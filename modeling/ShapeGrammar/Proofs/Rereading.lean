import ShapeGrammar.Proofs.Pools
import ShapeGrammar.Proofs.Arena
/-!
# Reading an operator again

The operator text of a transform block is read when its script is compiled, with the
variables of the whole script and the colour pool that the settings have at that point; a
build reads it again only when that first reading used a variable (`Scene.deltaOf`). This
module says which delta a build applies.

A reading depends on the variables only through the names its text looks up
(`Delta.lookups`), and on the pool only through the paint it binds to it: under lookups
that agree on those names, two readings of one text end with the same fault, or with the
same delta but for the pool its paint is bound to (`Delta.read_rebind`). Both facts come
out of one relation between two readings, `Delta.Alike`, proved combinator by combinator
over the reader.

Since a compiled grammar binds all pool-bound paint to the pool the settings have at the
end, every block of a compiled structure is its text read under the structure's variables
and pool (`Structure.compile_blocks_read`). So a build under other variables applies to a
block the text read afresh under them when the first reading used a variable, and also when
it used none but the new variables agree with the old ones on every name the text looks up
(`Structure.build_delta_eq_read_of_agree`). A variable defined after compiling, under a name
that a block read without variables looks up, is not seen: that block keeps its first
reading.
-/

namespace ShapeGrammar

theorem Outcome.holds_true {α : Type} (o : Outcome α) : o.Holds fun _ => True := fun _ => trivial

/-- The name a word looks a variable up by, if any: the name of a variable, or a name
that is no command. -/
def OpWord.lookedUp : OpWord → Option String
  | .variable n => some n
  | .name w => if Delta.isCommand w then none else some w
  | _ => none

namespace Delta

/-- The names an operator text may look variables up by. -/
def lookups (text : String) : List String :=
  match OpWord.split text with
  | .ok words => words.filterMap OpWord.lookedUp
  | .error _ => []

namespace Source

/-- Sources with one text recolour alike. -/
theorem recolour_congr {src₁ src₂ : Source} {c₁ c₂ : Hsba} (h : src₁.text = src₂.text)
    (hc : c₁ = c₂) (t : String) : src₁.recolour c₁ t = src₂.recolour c₂ t := by
  unfold recolour fault
  rw [h, hc]

/-- Sources with one text look a word up alike when their lookups agree on its name. -/
theorem variableOf_congr {src₁ src₂ : Source} (ht : src₁.text = src₂.text) {w : OpWord}
    (h : ∀ n, w.lookedUp = some n → src₁.lookup n = src₂.lookup n) :
    src₁.variableOf w = src₂.variableOf w := by
  cases w with
  | «variable» n => simp only [variableOf, fault, ht, h n rfl]
  | name w =>
    by_cases hw : isCommand w
    · simp only [variableOf, hw, if_true]
    · simp only [variableOf, hw, h w (by simp [OpWord.lookedUp, hw])]
  | number _ | hex _ | star => rfl

end Source

section Alike

variable {α β γ δ : Type} {src₁ src₂ : Source}

/-- Two sources read a cursor alike: they report faults in one text, and look up one
value for every word still to read. -/
def ReadAlike (src₁ src₂ : Source) (c : Cursor) : Prop :=
  src₁.text = src₂.text ∧ ∀ w ∈ c.words, src₁.variableOf w = src₂.variableOf w

/-- Two outcomes of readings agree: the same fault, or values related by `R` at one
cursor that the sources still read alike. -/
inductive Agree (src₁ src₂ : Source) (R : α → β → Prop) :
    Except Fault (α × Cursor) → Except Fault (β × Cursor) → Prop
  | fault (e : Fault) : Agree src₁ src₂ R (.error e) (.error e)
  | value {a : α} {b : β} {c : Cursor} (h : R a b) (hc : ReadAlike src₁ src₂ c) :
      Agree src₁ src₂ R (.ok (a, c)) (.ok (b, c))

/-- Two readings agree from every cursor that the sources read alike. -/
def Alike (src₁ src₂ : Source) (R : α → β → Prop) (m₁ : Reading α) (m₂ : Reading β) : Prop :=
  ∀ c, ReadAlike src₁ src₂ c → Agree src₁ src₂ R (m₁.run c) (m₂.run c)

namespace Alike

theorem pure {R : α → β → Prop} {a : α} {b : β} (h : R a b) :
    Alike src₁ src₂ R (Pure.pure a) (Pure.pure b) :=
  fun _ hc => .value h hc

theorem throw {R : α → β → Prop} {p : OperatorProblem} :
    Alike src₁ src₂ R (MonadExcept.throw (src₁.fault p)) (MonadExcept.throw (src₂.fault p)) := by
  intro c hc
  have he : src₁.fault p = src₂.fault p := by rw [Source.fault, Source.fault, hc.1]
  rw [he]
  exact .fault _

theorem bind {Q : α → β → Prop} {R : γ → δ → Prop} {m₁ : Reading α} {m₂ : Reading β}
    {f : α → Reading γ} {g : β → Reading δ} (hm : Alike src₁ src₂ Q m₁ m₂)
    (hf : ∀ a b, Q a b → Alike src₁ src₂ R (f a) (g b)) :
    Alike src₁ src₂ R (m₁ >>= f) (m₂ >>= g) := by
  intro c hc
  rw [StateT.run_bind, StateT.run_bind]
  have h := hm c hc
  generalize m₁.run c = r₁ at h
  generalize m₂.run c = r₂ at h
  cases h with
  | fault e => exact .fault e
  | value hab hc' => exact hf _ _ hab _ hc'

theorem bind_eq {R : γ → δ → Prop} {m₁ m₂ : Reading α} {f : α → Reading γ} {g : α → Reading δ}
    (hm : Alike src₁ src₂ Eq m₁ m₂) (hf : ∀ a, Alike src₁ src₂ R (f a) (g a)) :
    Alike src₁ src₂ R (m₁ >>= f) (m₂ >>= g) :=
  hm.bind fun a _ hab => hab ▸ hf a

theorem ite {R : α → β → Prop} {c : Prop} [Decidable c] {m₁ m₂ : Reading α} {n₁ n₂ : Reading β}
    (h₁ : Alike src₁ src₂ R m₁ n₁) (h₂ : Alike src₁ src₂ R m₂ n₂) :
    Alike src₁ src₂ R (if c then m₁ else m₂) (if c then n₁ else n₂) := by
  by_cases hc : c
  · rw [if_pos hc, if_pos hc]
    exact h₁
  · rw [if_neg hc, if_neg hc]
    exact h₂

theorem lift {e₁ e₂ : Except Fault α} (h : src₁.text = src₂.text → e₁ = e₂) :
    Alike src₁ src₂ Eq (liftM e₁ : Reading α) (liftM e₂) := by
  intro c hc
  rw [h hc.1]
  cases e₂ with
  | error e => exact .fault e
  | ok a => exact .value rfl hc

/-- The next word is one that the sources look up alike. -/
theorem peek : Alike src₁ src₂
    (fun a b => a = b ∧ ∀ w, a = some w → src₁.variableOf w = src₂.variableOf w)
    Delta.peek Delta.peek := by
  intro c hc
  exact .value ⟨rfl, fun w hw => hc.2 w (List.mem_of_head? hw)⟩ hc

/-- Words taken leave words that the sources still read alike. -/
theorem advance (b : Bool) : Alike src₁ src₂ Eq (Delta.advance b) (Delta.advance b) := by
  intro c hc
  exact .value rfl ⟨hc.1, fun w hw => hc.2 w (List.mem_of_mem_drop hw)⟩

end Alike

theorem numberOpt_alike : Alike src₁ src₂ Eq (numberOpt src₁) (numberOpt src₂) := by
  unfold numberOpt
  refine Alike.peek.bind fun a b h => ?_
  obtain ⟨rfl, hw⟩ := h
  split
  · exact (Alike.advance _).bind_eq fun _ => Alike.pure rfl
  · rename_i w _
    refine (Alike.lift fun _ => hw w rfl).bind_eq fun v => ?_
    split
    · refine (Alike.advance _).bind_eq fun _ => ?_
      split
      · exact Alike.pure rfl
      · exact Alike.throw
    · exact Alike.pure rfl
  · exact Alike.pure rfl

theorem number_alike (command : String) :
    Alike src₁ src₂ Eq (number src₁ command) (number src₂ command) := by
  unfold number
  refine numberOpt_alike.bind_eq fun x => ?_
  split
  · exact Alike.pure rfl
  · exact Alike.throw

theorem numbers_alike (command : String) :
    ∀ n, Alike src₁ src₂ Eq (numbers src₁ command n) (numbers src₂ command n) := by
  intro n
  induction n with
  | zero => exact Alike.pure rfl
  | succ n ih =>
    unfold numbers
    exact (number_alike command).bind_eq fun x => ih.bind_eq fun xs => Alike.pure rfl

theorem colourOpt_alike : Alike src₁ src₂ Eq (colourOpt src₁) (colourOpt src₂) := by
  unfold colourOpt
  refine Alike.peek.bind fun a b h => ?_
  obtain ⟨rfl, hw⟩ := h
  split
  · exact Alike.pure rfl
  · rename_i w
    refine (Alike.lift fun _ => hw w rfl).bind_eq fun v => ?_
    dsimp only
    split
    · exact Alike.pure rfl
    · refine (Alike.advance _).bind_eq fun _ => ?_
      split
      · exact Alike.pure rfl
      · exact Alike.throw

theorem colour_alike (command : String) :
    Alike src₁ src₂ Eq (colour src₁ command) (colour src₂ command) := by
  unfold colour
  refine colourOpt_alike.bind_eq fun t => ?_
  split
  · exact Alike.pure rfl
  · exact Alike.throw

theorem take_alike : Alike src₁ src₂ Eq take take := by
  unfold take
  refine Alike.peek.bind fun a b h => ?_
  obtain ⟨rfl, -⟩ := h
  dsimp only
  exact Alike.ite ((Alike.advance _).bind_eq fun _ => Alike.pure rfl) (Alike.pure rfl)

/-- A colour read as written is the same paint for both sources, and bound to no pool. -/
theorem absolute_alike (t : String) :
    Alike src₁ src₂ (fun c₁ c₂ => c₂ = c₁.rebind src₂.pool) (absolute src₁ t) (absolute src₂ t) := by
  unfold absolute
  exact (Alike.lift fun ht => Source.recolour_congr ht rfl _).bind_eq fun c => Alike.pure rfl

/-- Deltas that differ at most in the pool their paint is bound to, the second bound to
the second source's pool. -/
abbrev Rebound (src₂ : Source) (d₁ d₂ : Delta) : Prop := d₂ = d₁.rebind src₂.pool

theorem named_alike (d : Delta) (w : String) :
    Alike src₁ src₂ (Rebound src₂) (named src₁ d w) (named src₂ (d.rebind src₂.pool) w) := by
  unfold named
  dsimp only
  -- the two readings test the same words in the same order and read the same arguments; the
  -- deltas each branch returns differ in their paint's pool only
  refine .ite ?x (.ite ?y (.ite ?z (.ite ?rx (.ite ?ry (.ite ?rz (.ite ?s (.ite ?fx (.ite ?fy
    (.ite ?fz (.ite ?m (.ite ?hue (.ite ?sat (.ite ?brightness (.ite ?alpha (.ite ?blend
    (.ite ?color (.ite ?random .throw)))))))))))))))))
  case x | y | z | hue | sat | brightness | alpha =>
    exact (number_alike _).bind_eq fun _ => .pure rfl
  case rx | ry | rz =>
    exact (number_alike _).bind_eq fun _ => (Alike.lift fun _ => rfl).bind_eq fun _ => .pure rfl
  case s =>
    refine (number_alike _).bind_eq fun _ => numberOpt_alike.bind_eq fun y => ?_
    cases y with
    | none => exact .pure rfl
    | some _ => exact (number_alike _).bind_eq fun _ => .pure rfl
  case fx | fy | fz | random => exact .pure rfl
  case m => exact (numbers_alike _ _).bind_eq fun _ => .pure rfl
  case blend =>
    exact (colour_alike _).bind_eq fun _ =>
      (Alike.lift fun ht => Source.recolour_congr ht rfl _).bind_eq fun _ =>
        (number_alike _).bind_eq fun _ => .pure rfl
  case color =>
    refine colourOpt_alike.bind_eq fun t => ?_
    cases t with
    | some _ =>
      refine (absolute_alike _).bind fun _ _ h => ?_
      subst h
      exact .pure rfl
    | none =>
      refine take_alike.bind_eq fun next => ?_
      cases next with
      | some _ => exact .ite (.pure rfl) .throw
      | none => exact .throw

theorem command_alike (d : Delta) (w : OpWord) :
    Alike src₁ src₂ (Rebound src₂) (command src₁ d w) (command src₂ (d.rebind src₂.pool) w) := by
  unfold command
  cases w with
  | hex h =>
    refine (absolute_alike _).bind fun _ _ h => ?_
    subst h
    exact .pure rfl
  | star =>
    refine colourOpt_alike.bind_eq fun t => ?_
    cases t with
    | some _ =>
      exact (Alike.lift fun ht => Source.recolour_congr ht rfl _).bind_eq fun _ =>
        (number_alike _).bind_eq fun _ => .pure rfl
    | none =>
      refine take_alike.bind_eq fun next => ?_
      cases next with
      | some _ =>
        exact .ite ((number_alike _).bind_eq fun _ => (number_alike _).bind_eq fun _ => .pure rfl)
          .throw
      | none => exact .throw
  | name n =>
    refine .ite ?_ (named_alike d n)
    refine (absolute_alike _).bind fun _ _ h => ?_
    subst h
    exact .pure rfl
  | _ => exact .throw

theorem commandsFrom_alike :
    ∀ (fuel : Nat) (d : Delta), Alike src₁ src₂ (Rebound src₂) (commandsFrom src₁ fuel d)
      (commandsFrom src₂ fuel (d.rebind src₂.pool)) := by
  intro fuel
  induction fuel with
  | zero => intro d; exact Alike.pure rfl
  | succ fuel ih =>
    intro d
    unfold commandsFrom
    refine take_alike.bind_eq fun w => ?_
    split
    · exact Alike.pure rfl
    · exact (command_alike d _).bind fun d₁ d₂ h => h ▸ ih d₁

end Alike

/-- **An operator text reads alike under lookups that agree on the names it looks up,
whatever the pools:** with the same fault, or with the same delta but for the pool its
paint is bound to. -/
theorem read_rebind {text : String} {lookup₁ lookup₂ : String → Option String}
    (h : ∀ n ∈ lookups text, lookup₁ n = lookup₂ n) (pool₁ pool₂ : Pool) :
    read text lookup₂ pool₂ = (read text lookup₁ pool₁).map (rebind pool₂) := by
  unfold read
  cases hw : OpWord.split text with
  | error e => rfl
  | ok words =>
    have hc : ReadAlike ⟨text, lookup₁, pool₁⟩ ⟨text, lookup₂, pool₂⟩ ⟨words, false⟩ := by
      refine ⟨rfl, fun w hw' => Source.variableOf_congr (by rfl) fun n hn => h n ?_⟩
      simp only [lookups, hw, List.mem_filterMap]
      exact ⟨w, hw', hn⟩
    have hr := commandsFrom_alike words.length neutral _ hc
    rw [show neutral.rebind pool₂ = neutral from rfl] at hr
    dsimp only [bind, Except.bind]
    generalize (commandsFrom ⟨text, lookup₁, pool₁⟩ words.length neutral).run ⟨words, false⟩ = r₁
      at hr ⊢
    generalize (commandsFrom ⟨text, lookup₂, pool₂⟩ words.length neutral).run ⟨words, false⟩ = r₂
      at hr ⊢
    cases hr with
    | fault e => rfl
    | value hd _ => subst hd; rfl

/-- Rebinding to the pool a delta already draws from changes nothing. -/
theorem rebind_of_drawsFrom {pool : Pool} {d : Delta} (hd : d.DrawsFrom pool) : d.rebind pool = d := by
  obtain ⟨t, paint, shift, target, ratio, u⟩ := d
  cases paint with
  | none => rfl
  | some c =>
    obtain ⟨hsba, cpool⟩ := c
    cases cpool with
    | none => rfl
    | some q =>
      -- paint that draws from `pool` is bound to it already
      cases hd _ rfl q rfl
      rfl

/-- **An operator text reads alike under lookups that agree on the names it looks up.** -/
theorem read_congr {text : String} {lookup₁ lookup₂ : String → Option String}
    (h : ∀ n ∈ lookups text, lookup₁ n = lookup₂ n) (pool : Pool) :
    read text lookup₂ pool = read text lookup₁ pool := by
  rw [read_rebind h pool pool]
  cases hr : read text lookup₁ pool with
  | error e => rfl
  | ok d => exact congrArg Except.ok (rebind_of_drawsFrom (read_drawsFrom hr))

end Delta

/-- A block was read from its text, under `lookup`, with some pool. -/
def Block.ReadUnder (lookup : String → Option String) (b : Block) : Prop :=
  ∃ pool, Delta.read b.source lookup pool = .ok b.delta

theorem Draft.node_readUnder {d : Draft} {vars : Variables} {t : Script.Term} {b : Block}
    (h : d.node vars t = .ok (.block b)) : b.ReadUnder vars.get? := by
  cases t with
  | transform count ops _ =>
    simp only [Draft.node] at h
    cases hr : Delta.read ops vars.get? d.settings.pool with
    | error e => rw [hr] at h; cases h
    | ok delta =>
      rw [hr] at h
      cases h
      exact ⟨d.settings.pool, hr⟩
  | reference name option param => cases h

/-- Every block that statements compile without fault was read from its text under the
variables of the script, with the pool of its time. -/
theorem Draft.compileBody_readUnder (vars : Variables) (rule : Nat) (picks : List Script.Branch)
    (nodes : List Node) (ss : List Script.Statement) (d : Draft)
    (hn : ∀ b, Node.block b ∈ nodes → b.ReadUnder vars.get?)
    (hd : ∀ b ∈ d.grammar.blocks, b.ReadUnder vars.get?) :
    (Draft.compileBody vars rule picks nodes ss d).Holds
      fun d' => ∀ b ∈ d'.grammar.blocks, b.ReadUnder vars.get? := by
  fun_induction Draft.compileBody vars rule picks nodes ss d with
  | case1 =>
    refine Outcome.holds_done (Grammar.blocks_setBody hd _ fun c hc b hb => hn b ?_)
    exact Chain.block_mem_of_mem_ofNodes hc hb
  | case2 _ _ _ _ _ _ _ ih => exact ih hn hd
  | case3 _ _ _ _ _ _ _ ih => exact (Outcome.holds_true _).andThen fun s _ => ih s hn hd
  | case4 _ _ _ _ _ _ _ _ _ ih₂ ih₁ =>
    -- each variant adds a rule with no body and compiles its own body into it
    refine Outcome.Holds.andThen ?_ fun d hd => ih₁ d hn hd
    refine Outcome.Holds.foldl (fun acc x hacc => ?_) _ _ (Outcome.holds_done hd)
    obtain ⟨w, bs⟩ := x
    refine hacc.andThen fun d hd => ?_
    split
    rename_i g i hgi
    have hg : (d.grammar.addRule _ _ _ _ _).1 = g := congrArg Prod.fst hgi
    refine ih₂ bs d g i (fun _ h => absurd h List.not_mem_nil) ?_
    rw [← hg]
    exact Grammar.blocks_addRule hd _ _ _ _ _
  | case5 _ _ _ _ _ _ _ hnode ih =>
    refine ih (fun b hb => ?_) hd
    rcases List.mem_append.mp hb with hb | hb
    · exact hn b hb
    · rw [← List.mem_singleton.mp hb] at hnode
      exact Draft.node_readUnder hnode
  | case6 => exact Outcome.holds_failed _ _
  | case7 _ _ d _ _ _ _ _ hns ih =>
    rw [Draft.mapM_node_attach] at hns
    rw [hns]
    refine ih (fun b hb => ?_) hd
    rcases List.mem_append.mp hb with hb | hb
    · exact hn b hb
    · obtain ⟨t, -, ht⟩ := mem_of_mapM_eq_ok hns _ hb
      exact Draft.node_readUnder ht
  | case8 _ _ d _ _ _ _ _ hf =>
    rw [Draft.mapM_node_attach] at hf
    rw [hf]
    exact Outcome.holds_failed _ _
  | case9 _ _ _ _ _ ih => exact ih hn hd

namespace Structure

/-- **Every block of a compiled structure is its text read under the structure's
variables and pool.** -/
theorem compile_blocks_read (st : Structure) (script : String) (seed : Int) :
    (st.compile script seed).Holds fun st' => ∃ g, st'.grammar = some g ∧
      ∀ b ∈ g.blocks, Delta.read b.source st'.vars.get? st'.settings.pool = .ok b.delta := by
  unfold compile
  split
  · exact Outcome.holds_failed _ _
  · refine (Outcome.holds_true _).andThen fun s _ => ?_
    dsimp only
    split
    · exact Outcome.holds_of_fault _ _ _
    · rename_i hf
      refine Outcome.holds_mk _ ⟨_, rfl, fun b hb => ?_⟩
      rw [Grammar.blocks_rebind] at hb
      obtain ⟨b₀, hb₀, rfl⟩ := List.mem_map.mp hb
      obtain ⟨p, hp⟩ := Draft.compileBody_readUnder _ _ _ _ _ _ (by intro _ h; cases h)
        (by intro b hb; rw [Grammar.blocks_empty] at hb; cases hb) hf b₀ hb₀
      -- the block was read with the pool of its time; the grammar rebinds it to the last one
      rw [Delta.read_rebind (fun _ _ => rfl) p, hp]
      rfl

/-- **A build reads a block's text again wherever a fresh reading could differ.** After a
compilation without fault, every block of the grammar is its text read under the
structure's variables and pool. A build under any variables `V` (the structure with `V`
assigned to its variables walks the scene of its grammar, its settings and `V`) applies
to a block its text read afresh under `V` when the first reading used a variable, and also
when it used none but `V` agrees with the compiled variables on every name the text looks
up: the same delta, or the same fault. -/
theorem build_delta_eq_read_of_agree (st₀ : Structure) (script : String) (seed : Int)
    (hf : (st₀.compile script seed).fault = none) :
    ∃ g, (st₀.compile script seed).state.grammar = some g ∧
      ∀ b ∈ g.blocks,
        Delta.read b.source (st₀.compile script seed).state.vars.get?
            (st₀.compile script seed).state.settings.pool = .ok b.delta ∧
        ∀ V : Variables, (b.delta.usesVariables = true ∨
            ∀ n ∈ Delta.lookups b.source, V.get? n = (st₀.compile script seed).state.vars.get? n) →
          (Scene.of g (st₀.compile script seed).state.settings V).deltaOf b =
            Delta.read b.source V.get? (st₀.compile script seed).state.settings.pool := by
  obtain ⟨g, hg, hread⟩ := compile_blocks_read st₀ script seed hf
  refine ⟨g, hg, fun b hb => ⟨hread b hb, fun V hV => ?_⟩⟩
  unfold Scene.deltaOf
  cases hu : b.delta.usesVariables with
  | true => rfl
  | false =>
    -- the cached delta is the reading under the compiled variables, which `V` matches
    have hagree : ∀ n ∈ Delta.lookups b.source,
        V.get? n = (st₀.compile script seed).state.vars.get? n := by
      rcases hV with hV | hV
      · rw [hu] at hV
        cases hV
      · exact hV
    rw [if_neg Bool.false_ne_true, ← Delta.read_congr hagree, hread b hb]

/-- A scaled box compiles without fault, and a build under variables defined only afterwards
applies to its block the reading of its text under them: the text looks no name up. -/
theorem scaled_box_rereads_alike :
    ((Structure.mk [] {} Variables.empty none 0).compile "{ s 2 } box" 0).fault = none ∧
      ∃ g, ((Structure.mk [] {} Variables.empty none 0).compile "{ s 2 } box" 0).state.grammar =
          some g ∧
        ∀ b ∈ g.blocks,
          (Scene.of g ((Structure.mk [] {} Variables.empty none 0).compile "{ s 2 } box" 0).state.settings
              ⟨[("k", "3")]⟩).deltaOf b =
            Delta.read b.source (Variables.get? ⟨[("k", "3")]⟩)
              ((Structure.mk [] {} Variables.empty none 0).compile "{ s 2 } box" 0).state.settings.pool := by
  have hf : ((Structure.mk [] {} Variables.empty none 0).compile "{ s 2 } box" 0).fault = none := by
    decide +kernel
  have hlk : ∀ g ∈ ((Structure.mk [] {} Variables.empty none 0).compile "{ s 2 } box" 0).state.grammar,
      ∀ b ∈ g.blocks, Delta.lookups b.source = [] := by
    decide +kernel
  obtain ⟨g, hg, hall⟩ := build_delta_eq_read_of_agree _ _ _ hf
  refine ⟨hf, g, hg, fun b hb => (hall b hb).2 _ (.inr fun n hn => ?_)⟩
  rw [hlk g hg b hb] at hn
  cases hn

end Structure

end ShapeGrammar
