import ShapeGrammar.Proofs.Rereading
/-!
# The skeleton of a script

Settings and definitions build no rule and no node. A definition is seen everywhere, as
the variables of a script are collected before anything is compiled, and a setting only
changes the settings; the one way a setting reaches the grammar is through the colour
pool that the blocks compiled after it are read with. At the end of a compilation every
block is bound to the pool of the final settings (`Grammar.rebind`), so that pool does
not count either.

This file makes that precise. `Statement.skeleton` takes the settings and definitions out
of statements, in rule bodies at any depth; `Grammar.EqUpToPool` relates grammars equal
once bound to any one pool. Binding commutes with every step that builds a grammar
(`Chain.ofNodes_rebind`, `Grammar.setBody_rebind`, `Grammar.addRule_rebind`) and a term is
read alike with any pool, up to binding (`Draft.node_rebind`). So statements that compile
without fault have a skeleton that compiles without fault into a grammar equal up to pool
(`Draft.compileBody_skeleton`), the two runs related step by step (`Outcome.Leads`).
-/

namespace ShapeGrammar

theorem Paint.rebind_rebind (p q : Pool) (c : Paint) : (c.rebind q).rebind p = c.rebind p := by
  unfold Paint.rebind
  cases h : c.pool with
  | none => simp [h]
  | some _ => rfl

theorem Delta.rebind_rebind (p q : Pool) (d : Delta) : (d.rebind q).rebind p = d.rebind p := by
  simp [Delta.rebind, Option.map_map, Function.comp_def, Paint.rebind_rebind]

/-- The block with its paint bound to `pool`. -/
def Block.rebind (pool : Pool) (b : Block) : Block := { b with delta := b.delta.rebind pool }

/-- The chain with its blocks' paint bound to `pool`. -/
def Chain.rebind (pool : Pool) (c : Chain) : Chain := { c with blocks := c.blocks.map (Block.rebind pool) }

/-- The node with its paint, if it is a block, bound to `pool`. -/
def Node.rebind (pool : Pool) : Node → Node
  | .block b => .block (b.rebind pool)
  | .reference r => .reference r

/-- The rule with the paint of its body bound to `pool`. -/
def Rule.rebind (pool : Pool) (r : Rule) : Rule := { r with body := r.body.map (Chain.rebind pool) }

theorem Node.rebind_rebind (p q : Pool) (n : Node) : (n.rebind q).rebind p = n.rebind p := by
  cases n with
  | block b => simp [Node.rebind, Block.rebind, Delta.rebind_rebind]
  | reference r => rfl

theorem Grammar.rebind_eq (g : Grammar) (pool : Pool) : g.rebind pool = ⟨g.rules.map (Rule.rebind pool)⟩ :=
  rfl

namespace Chain

/-- A fold that ends a chain at each reference binds alike before and after. -/
theorem foldl_rebind {step : List Chain × List Block → Node → List Chain × List Block}
    (hblock : ∀ acc b, step acc (.block b) = (acc.1, acc.2 ++ [b]))
    (hreference : ∀ acc r, step acc (.reference r) = (acc.1 ++ [⟨acc.2, some r⟩], [])) (pool : Pool) :
    ∀ (ns : List Node) (acc : List Chain × List Block),
      (ns.map (Node.rebind pool)).foldl step (acc.1.map (rebind pool), acc.2.map (Block.rebind pool)) =
        ((ns.foldl step acc).1.map (rebind pool), (ns.foldl step acc).2.map (Block.rebind pool)) := by
  intro ns
  induction ns with
  | nil => intro acc; rfl
  | cons n ns ih =>
    intro acc
    cases n with
    | block b =>
      simp only [List.map_cons, List.foldl_cons, Node.rebind, hblock]
      rw [← ih]
      simp
    | reference r =>
      simp only [List.map_cons, List.foldl_cons, Node.rebind, hreference]
      rw [← ih]
      simp [rebind]

theorem ofNodes_rebind (pool : Pool) (nodes : List Node) :
    (ofNodes nodes).map (rebind pool) = ofNodes (nodes.map (Node.rebind pool)) := by
  have e : (([] : List Chain), ([] : List Block)) =
      (([] : List Chain).map (rebind pool), ([] : List Block).map (Block.rebind pool)) := rfl
  unfold ofNodes
  rw [e, foldl_rebind (fun _ _ => rfl) (fun _ _ => rfl) pool nodes ([], []), ← e]
  -- the binding keeps the chains finished and the blocks pending
  split
  rename_i chains pending hp
  rw [hp]
  split <;> simp_all [rebind]

end Chain

/-- Changing one rule and then binding every rule is binding every rule and then changing
that one, when the change commutes with binding. -/
theorem Array.map_modify_comm {α β : Type} {f : α → α} {k : β → β} {g : α → β}
    (h : ∀ x, g (f x) = k (g x)) (a : Array α) (i : Nat) : (a.modify i f).map g = (a.map g).modify i k := by
  apply Array.ext'
  apply List.ext_getElem
  · simp
  · intro n h₁ h₂
    simp only [Array.toList_map, Array.toList_modify, List.getElem_map, List.getElem_modify]
    split
    · exact h _
    · rfl

namespace Grammar

theorem setBody_rebind (g : Grammar) (i : Nat) (body : List Chain) (pool : Pool) :
    (g.setBody i body).rebind pool = (g.rebind pool).setBody i (body.map (Chain.rebind pool)) := by
  simp only [rebind_eq, setBody, Grammar.mk.injEq]
  refine Array.map_modify_comm (fun r => ?_) _ _
  rfl

theorem addChild_rebind (r : Rule) (name : String) (i : Nat) (pool : Pool) :
    (r.addChild name i).rebind pool = (r.rebind pool).addChild name i := by
  unfold Rule.addChild
  split <;> rename_i h <;> simp [Rule.rebind, h]

theorem addRule_rebind (g : Grammar) (parent : Nat) (name : String) (weight : Float)
    (maxDepth : Option Int) (fallback : Option String) (pool : Pool) :
    (g.rebind pool).addRule parent name weight maxDepth fallback =
      ((g.addRule parent name weight maxDepth fallback).1.rebind pool,
        (g.addRule parent name weight maxDepth fallback).2) := by
  simp only [rebind_eq, addRule, Prod.mk.injEq, Grammar.mk.injEq, Array.size_map, and_true]
  rw [Array.map_modify_comm (k := fun r => r.addChild name g.rules.size)
    fun r => addChild_rebind r name g.rules.size pool, Array.map_push]
  -- the new rule has no body yet, so binding leaves it as it is
  rfl

/-- Two grammars that are the same but for the pools their paint is bound to: bound to
any one pool, they are equal. -/
def EqUpToPool (g₁ g₂ : Grammar) : Prop := ∀ pool, g₁.rebind pool = g₂.rebind pool

namespace EqUpToPool

variable {g₁ g₂ : Grammar}

theorem size_eq (h : EqUpToPool g₁ g₂) : g₁.size = g₂.size := by
  have e := congrArg (fun g : Grammar => g.rules.size) (h Pool.blank)
  simpa [rebind_eq, size] using e

theorem setBody (h : EqUpToPool g₁ g₂) (i : Nat) {body₁ body₂ : List Chain}
    (hb : ∀ pool, body₁.map (Chain.rebind pool) = body₂.map (Chain.rebind pool)) :
    EqUpToPool (g₁.setBody i body₁) (g₂.setBody i body₂) := by
  intro pool
  rw [setBody_rebind, setBody_rebind, h pool, hb pool]

theorem addRule (h : EqUpToPool g₁ g₂) (parent : Nat) (name : String) (weight : Float)
    (maxDepth : Option Int) (fallback : Option String) :
    EqUpToPool (g₁.addRule parent name weight maxDepth fallback).1
        (g₂.addRule parent name weight maxDepth fallback).1 ∧
      (g₁.addRule parent name weight maxDepth fallback).2 =
        (g₂.addRule parent name weight maxDepth fallback).2 := by
  refine ⟨fun pool => ?_, ?_⟩
  · have e := congrArg Prod.fst (congrArg (·.addRule parent name weight maxDepth fallback) (h pool))
    simpa only [addRule_rebind] using e
  · exact size_eq h

end EqUpToPool

end Grammar

namespace Outcome

variable {α β γ δ : Type}

/-- The second outcome succeeds whenever the first does, with a state related to the
first's by `R`. -/
def Leads (R : α → β → Prop) (o₁ : Outcome α) (o₂ : Outcome β) : Prop :=
  o₁.fault = none → o₂.fault = none ∧ R o₁.state o₂.state

namespace Leads

variable {R : α → β → Prop} {S : γ → δ → Prop}

theorem done {a : α} {b : β} (h : R a b) : Leads R (.done a) (.done b) := fun _ => ⟨rfl, h⟩

theorem failed (a : α) (f : Fault) (o₂ : Outcome β) : Leads R (.failed a f) o₂ := fun h => nomatch h

/-- Two operations that go on from related states, with related outcomes. -/
theorem andThen {o₁ : Outcome α} {o₂ : Outcome β} {lift₁ : α → γ} {lift₂ : β → δ}
    {k₁ : α → Outcome γ} {k₂ : β → Outcome δ} (ho : Leads R o₁ o₂)
    (hk : ∀ a b, R a b → Leads S (k₁ a) (k₂ b)) : Leads S (o₁.andThen lift₁ k₁) (o₂.andThen lift₂ k₂) := by
  intro hf
  unfold Outcome.andThen at hf ⊢
  cases h₁ : o₁.fault with
  | some f => rw [h₁] at hf; cases hf
  | none =>
    rw [h₁] at hf
    obtain ⟨h₂, hR⟩ := ho h₁
    rw [h₂]
    exact hk _ _ hR hf

/-- An operation on the first side only, that the second keeps up with from any state. -/
theorem andThen_left {o₁ : Outcome α} {lift₁ : α → γ} {k₁ : α → Outcome γ} {o₂ : Outcome δ}
    (hk : ∀ a, Leads S (k₁ a) o₂) : Leads S (o₁.andThen lift₁ k₁) o₂ := by
  intro hf
  unfold Outcome.andThen at hf ⊢
  cases h₁ : o₁.fault with
  | some f => rw [h₁] at hf; cases hf
  | none =>
    rw [h₁] at hf
    exact hk _ hf

/-- Steps applied one after another on both sides, each keeping the outcomes related. -/
theorem foldl {ι : Type} {step₁ : Outcome α → ι → Outcome α} {step₂ : Outcome β → ι → Outcome β}
    (hstep : ∀ acc₁ acc₂ x, Leads R acc₁ acc₂ → Leads R (step₁ acc₁ x) (step₂ acc₂ x)) :
    ∀ (xs : List ι) (acc₁ : Outcome α) (acc₂ : Outcome β), Leads R acc₁ acc₂ →
      Leads R (xs.foldl step₁ acc₁) (xs.foldl step₂ acc₂) := by
  intro xs
  induction xs with
  | nil => intro acc₁ acc₂ h; exact h
  | cons x xs ih => intro acc₁ acc₂ h; exact ih _ _ (hstep _ _ x h)

end Leads

end Outcome

namespace Script.Statement

/-- The statements with their settings and definitions taken out, in rule bodies at any
depth: what two scripts share when they differ only in where these stand. -/
def skeleton : List Statement → List Statement
  | [] => []
  | .define _ _ :: rest => skeleton rest
  | .setting _ _ :: rest => skeleton rest
  | .rule name options body :: rest => .rule name options (skeleton body) :: skeleton rest
  | .term t :: rest => .term t :: skeleton rest
  | .group bs :: rest => .group bs :: skeleton rest

/-- Taking settings and definitions out keeps the variants of a body. -/
theorem choices_skeleton (w : Float) (body : List Statement) :
    choices w (skeleton body) = choices w body := by
  induction body generalizing w with
  | nil => simp [skeleton]
  | cons s rest ih =>
    cases s <;> simp [skeleton, choices, ih]

end Script.Statement

theorem List.mapM_eq_map_of {ε α β γ : Type} {f : α → Except ε β} {g : α → Except ε γ} {h : β → γ}
    (hfg : ∀ x, g x = (f x).map h) : ∀ l : List α, l.mapM g = (l.mapM f).map (List.map h) := by
  intro l
  induction l with
  | nil => rfl
  | cons x xs ih =>
    simp only [List.mapM_cons, hfg, ih]
    cases f x <;> cases xs.mapM f <;> rfl

/-- A term is read alike under variables that agree and any pools, up to the pool its
paint is bound to. -/
theorem Draft.node_rebind {vars₁ vars₂ : Variables} (hv : vars₁.get? = vars₂.get?) (d₁ d₂ : Draft)
    (t : Script.Term) : d₂.node vars₂ t = (d₁.node vars₁ t).map (Node.rebind d₂.settings.pool) := by
  cases t with
  | transform count ops _ =>
    simp only [Draft.node]
    rw [Delta.read_rebind (fun n _ => congrFun hv n) d₁.settings.pool d₂.settings.pool]
    cases Delta.read ops vars₁.get? d₁.settings.pool <;> rfl
  | reference name option param => rfl

open Script Statement in
/-- **The grammar a compilation builds depends on the skeleton of the statements only**,
up to the pools its paint is bound to: statements compiled without fault, from any
settings, have their skeleton compiled without fault from any other settings, under
variables that agree, into a grammar equal but for those pools. -/
theorem Draft.compileBody_skeleton {vars₁ vars₂ : Variables} (hv : vars₁.get? = vars₂.get?)
    (rule : Nat) (picks : List Branch) (nodes₁ : List Node) (ss : List Statement) (d₁ : Draft) :
    ∀ (nodes₂ : List Node) (d₂ : Draft), d₁.grammar.EqUpToPool d₂.grammar →
      (∀ pool, nodes₁.map (Node.rebind pool) = nodes₂.map (Node.rebind pool)) →
      (Draft.compileBody vars₁ rule picks nodes₁ ss d₁).Leads (fun a b => a.grammar.EqUpToPool b.grammar)
        (Draft.compileBody vars₂ rule picks nodes₂ (skeleton ss) d₂) := by
  fun_induction Draft.compileBody vars₁ rule picks nodes₁ ss d₁ with
  | case1 =>
    intro nodes₂ d₂ hg hn
    simp only [skeleton]
    rw [Draft.compileBody]
    refine Outcome.Leads.done (hg.setBody _ fun pool => ?_)
    rw [Chain.ofNodes_rebind, Chain.ofNodes_rebind, hn pool]
  | case2 _ _ _ _ _ _ _ ih =>
    intro nodes₂ d₂ hg hn
    simp only [skeleton]
    exact ih nodes₂ d₂ hg hn
  | case3 _ _ _ d key value rest ih =>
    intro nodes₂ d₂ hg hn
    simp only [skeleton]
    exact Outcome.Leads.andThen_left fun s => ih s nodes₂ d₂ hg hn
  | case4 r _ _ d name options body rest defined ih₂ ih₁ =>
    intro nodes₂ d₂ hg hn
    unfold defined
    simp only [skeleton]
    rw [Draft.compileBody, choices_skeleton]
    refine Outcome.Leads.andThen (R := fun a b => a.grammar.EqUpToPool b.grammar) ?_
      fun a b hab => ih₁ a nodes₂ b hab hn
    refine Outcome.Leads.foldl (fun acc₁ acc₂ x hacc => ?_) _ _ _ (Outcome.Leads.done hg)
    obtain ⟨w, bs⟩ := x
    refine hacc.andThen fun a b hab => ?_
    dsimp only
    -- both sides add the variant to grammars equal up to pool, at the same index
    obtain ⟨hg', hi⟩ := hab.addRule r name w options.maxDepth options.fallback
    rw [hi]
    exact ih₂ bs a _ _ [] _ hg' fun _ => rfl
  | case5 _ _ _ d t rest n hnode ih =>
    intro nodes₂ d₂ hg hn
    simp only [skeleton]
    rw [Draft.compileBody, Draft.node_rebind hv d d₂ t, hnode]
    simp only [Except.map]
    refine ih (nodes₂ ++ [n.rebind d₂.settings.pool]) d₂ hg fun pool => ?_
    simp [hn pool, Node.rebind_rebind]
  | case6 => intro _ _ _ _; exact Outcome.Leads.failed _ _ _
  | case7 _ _ d _ _ _ _ _ hns ih =>
    intro nodes₂ d₂ hg hn
    rw [Draft.mapM_node_attach] at hns
    simp only [skeleton]
    rw [Draft.compileBody]
    rw [List.mapM_eq_map_of (Draft.node_rebind hv d d₂), hns]
    simp only [Except.map]
    refine ih _ d₂ hg fun pool => ?_
    simp [hn pool, Node.rebind_rebind, Function.comp_def]
  | case8 _ _ d _ _ _ _ _ hf =>
    intro _ _ _ _
    rw [Draft.mapM_node_attach] at hf
    rw [hf]
    exact Outcome.Leads.failed _ _ _
  | case9 _ _ _ _ _ ih =>
    intro nodes₂ d₂ hg hn
    simp only [skeleton]
    rw [Draft.compileBody]
    exact ih nodes₂ d₂ hg hn

end ShapeGrammar
