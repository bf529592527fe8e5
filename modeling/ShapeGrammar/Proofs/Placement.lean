import ShapeGrammar.Proofs.Slots
import ShapeGrammar.Proofs.Skeleton
import ShapeGrammar.Proofs.Lockstep
/-!
# Where settings and definitions stand

A script's settings and definitions may stand anywhere: at the top, or in rule bodies at
any depth. This file shows that where they stand does not matter
(`Structure.compile_alike_of_moved_settings`): two scripts that parse to statements with
the same skeleton, whose settings leave every slot with the same last value and whose
definitions give every name the same last value, compile, when both compile, into
structures alike (`Structure.Alike`).

The proof puts three facts together. The variables give each name its last value
(`Variables.ofStatements_get?`). The settings a compilation leaves settle the script's
settings once each (`Draft.compileBody_settled`), so they agree slot by slot
(`Settings.Settled.sameAt`). The grammar, bound to the final pool, is that of the skeleton
(`Draft.compileBody_skeleton`), so a colour pool set after a block that draws from it still
governs its draws. A build reads its scene only through the grammar, the limits, the sizes
and the deltas of its blocks (`Walk.rule_alike`), so the builds are the same.
-/

namespace ShapeGrammar

namespace Scene

/-- Two scenes that a build reads alike: the same grammar, limits and sizes, and the same
delta for every block. -/
structure Alike (sc₁ sc₂ : Scene) : Prop where
  grammar : sc₁.grammar = sc₂.grammar
  maxDepth : sc₁.settings.maxDepth = sc₂.settings.maxDepth
  maxObjects : sc₁.settings.maxObjects = sc₂.settings.maxObjects
  deltaOf : ∀ b, sc₁.deltaOf b = sc₂.deltaOf b
  smallest : sc₁.smallest = sc₂.smallest
  largest : sc₁.largest = sc₂.largest

variable {sc₁ sc₂ : Scene}

theorem Alike.limitOf (h : Alike sc₁ sc₂) (r : Rule) : sc₁.limitOf r = sc₂.limitOf r := by
  simp only [Scene.limitOf, h.maxDepth]

theorem Alike.admits (h : Alike sc₁ sc₂) (t : Transform) : sc₁.admits t = sc₂.admits t := by
  simp only [Scene.admits, h.smallest, h.largest]

end Scene

namespace Walk

variable {σ : Type} {sc₁ sc₂ : Scene} {obs : Observer σ} {n : Nat}

theorem place_alike (h : sc₁.Alike sc₂) (fr : Frame) (ref : Reference) (p : Progress σ) :
    place sc₁ obs fr ref p = place sc₂ obs fr ref p := by
  simp only [place, h.maxObjects, h.admits]

theorem deepest_alike (h : sc₁.Alike sc₂) : deepest sc₁ = deepest sc₂ := by
  have hl : (fun acc r => max acc (sc₁.limitOf r)) = fun acc r => max acc (sc₂.limitOf r) := by
    funext acc r
    rw [h.limitOf]
  simp only [deepest, h.grammar, h.maxDepth, hl]

theorem fuelFor_alike (h : sc₁.Alike sc₂) : fuelFor sc₁ = fuelFor sc₂ := by
  simp only [fuelFor, deepest_alike h, h.grammar]

theorem reference_alike (h : sc₁.Alike sc₂)
    (hrule : ∀ (fr : Frame) i fb (p : Progress σ), rule sc₁ obs n fr i fb p = rule sc₂ obs n fr i fb p)
    (fr : Frame) (ref : Reference) (p : Progress σ) :
    reference sc₁ obs n fr ref p = reference sc₂ obs n fr ref p := by
  rw [reference, reference, h.grammar]
  rcases sc₂.grammar.find fr.rule ref.label p.twister with ⟨_ | i, tw⟩
  · exact place_alike h _ _ _
  · dsimp only
    cases (sc₂.grammar.rule? i).bind fun r => r.parent.bind sc₂.grammar.rule? with
    | none => rfl
    | some s =>
      dsimp only
      rw [h.limitOf, hrule]

theorem repeated_alike {bs : List Block} {target : Option Reference}
    (hchain : ∀ (fr : Frame) (p : Progress σ), chain sc₁ obs n fr bs target p = chain sc₂ obs n fr bs target p)
    (d : Delta) : ∀ (count : Nat) (fr : Frame) (last : Flow) (p : Progress σ),
      repeated sc₁ obs n fr d bs target count last p = repeated sc₂ obs n fr d bs target count last p := by
  intro count
  induction count with
  | zero => intro fr last p; rw [repeated, repeated]
  | succ count ih =>
    intro fr last p
    rw [repeated, repeated]
    dsimp only
    rw [hchain]
    cases chain sc₂ obs n _ bs target p with
    | error f => rfl
    | ok r =>
      obtain ⟨flow, p'⟩ := r
      cases flow <;> dsimp only <;> first | rfl | exact ih _ _ _

theorem chain_alike (h : sc₁.Alike sc₂)
    (href : ∀ (fr : Frame) ref (p : Progress σ), reference sc₁ obs n fr ref p = reference sc₂ obs n fr ref p) :
    ∀ (bs : List Block) (fr : Frame) (target : Option Reference) (p : Progress σ),
      chain sc₁ obs n fr bs target p = chain sc₂ obs n fr bs target p := by
  intro bs
  induction bs with
  | nil =>
    intro fr target p
    cases target with
    | none => rw [chain, chain]
    | some ref => rw [chain, chain, href]
  | cons b rest ih =>
    intro fr target p
    rw [chain, chain, h.deltaOf b]
    cases sc₂.deltaOf b with
    | error f => rfl
    | ok d =>
      dsimp only
      split
      · rfl
      · exact repeated_alike (fun fr p => ih fr target p) d b.count fr .more p

theorem body_alike
    (hchain : ∀ bs (fr : Frame) target (p : Progress σ),
      chain sc₁ obs n fr bs target p = chain sc₂ obs n fr bs target p) :
    ∀ (cs : List Chain) (fr : Frame) (p : Progress σ), body sc₁ obs n fr cs p = body sc₂ obs n fr cs p := by
  intro cs
  induction cs with
  | nil => intro fr p; rw [body, body]
  | cons c rest ih =>
    intro fr p
    rw [body, body, hchain]
    cases chain sc₂ obs n fr c.blocks c.target p with
    | error f => rfl
    | ok r =>
      obtain ⟨flow, p'⟩ := r
      cases flow with
      | more => exact ih fr p'
      | cut => rfl
      | stop => rfl

/-- **A walk reads its scene only through the grammar, the limits, the sizes and the
deltas of blocks.** -/
theorem rule_alike (h : sc₁.Alike sc₂) : ∀ (n : Nat) (fr : Frame) (i : Nat) (fb : Bool) (p : Progress σ),
    rule sc₁ obs n fr i fb p = rule sc₂ obs n fr i fb p := by
  intro n
  induction n with
  | zero => intro fr i fb p; rw [rule, rule]
  | succ n ih =>
    intro fr i fb p
    rw [rule, rule, h.grammar]
    cases sc₂.grammar.rule? i with
    | none => rfl
    | some r =>
      dsimp only
      -- at fuel `n` a reference walks rules, a chain references, and a body chains
      rw [h.limitOf, body_alike (chain_alike h (reference_alike h ih))]
      simp only [ih]

end Walk

/-- Builds of scenes read alike are the same. -/
theorem InPlace.run_alike {σ : Type} {sc₁ sc₂ : Scene} (h : sc₁.Alike sc₂) (obs : Observer σ)
    (init : σ) (seed : Int) : InPlace.run sc₁ obs init seed = InPlace.run sc₂ obs init seed := by
  rw [InPlace.run_eq_walk, InPlace.run_eq_walk, Walk.fuelFor_alike h, Walk.rule_alike h]

namespace Variables

theorem get?_eq_lookup (v : Variables) (name : String) : v.get? name = v.entries.lookup name := by
  obtain ⟨entries⟩ := v
  simp only [get?]
  induction entries with
  | nil => rfl
  | cons e rest ih =>
    obtain ⟨k, x⟩ := e
    rw [Settings.lookup_cons_ite, List.find?_cons]
    by_cases hk : name = k
    · subst hk
      simp
    · have hb : (k == name) = false := beq_false_of_ne (Ne.symm hk)
      simp [hk, hb, ih]

theorem get?_put (v : Variables) (name value name' : String) :
    (v.put name value).get? name' = if name' = name then some value else v.get? name' := by
  have e : (v.put name value).entries = Settings.putExtra v.entries name value := by
    unfold put Settings.putExtra
    split <;> rfl
  rw [get?_eq_lookup, get?_eq_lookup, e, Settings.lookup_putExtra]

/-- Definitions put one after another leave each name its last value. -/
theorem get?_foldl_put {step : Variables → String × String → Variables}
    (hstep : ∀ v name value, step v (name, value) = v.put name value) (name : String) :
    ∀ (defs : List (String × String)) (v : Variables),
      (defs.foldl step v).get? name = (lastValue name defs).or (v.get? name) := by
  intro defs
  induction defs with
  | nil => intro v; simp [lastValue]
  | cons d rest ih =>
    intro v
    obtain ⟨k, x⟩ := d
    rw [List.foldl_cons, ih, hstep, get?_put]
    by_cases hk : k = name
    · subst hk
      simp [lastValue]
    · simp [lastValue, hk, Ne.symm hk]

/-- **The variables of statements give each name the last value it is defined with.** -/
theorem ofStatements_get? (ss : List Script.Statement) (name : String) :
    (ofStatements ss).get? name = lastValue name (definitions ss) := by
  rw [ofStatements, get?_foldl_put (fun _ _ _ => rfl)]
  simp [empty, get?]

end Variables

namespace Script.Statement

/-- The setting or the term a statement is, if it is one of these. -/
def plain? : Statement → Option ((String × String) ⊕ Term)
  | .setting k v => some (.inl (k, v))
  | .term t => some (.inr t)
  | _ => none

/-- The statement a setting or a term is. -/
def ofPlain : (String × String) ⊕ Term → Statement
  | .inl (k, v) => .setting k v
  | .inr t => .term t

/-- Statements that are all settings and terms are those settings and terms. -/
theorem eq_map_ofPlain : ∀ {ss : List Statement} {ps : List ((String × String) ⊕ Term)},
    ss.mapM plain? = some ps → ss = ps.map ofPlain
  | [], ps, h => by
    simp only [List.mapM_nil] at h
    cases h
    rfl
  | s :: ss, ps, h => by
    rw [List.mapM_cons] at h
    simp only [Option.bind_eq_bind, Option.bind_eq_some_iff, Option.pure_def, Option.some.injEq] at h
    obtain ⟨p, hp, ps', hps', rfl⟩ := h
    rw [eq_map_ofPlain hps', List.map_cons]
    congr 1
    cases s <;> simp only [plain?, reduceCtorEq, Option.some.injEq] at hp <;> subst hp <;> rfl

end Script.Statement

namespace Structure

/-- A script that compiles without fault parses. -/
theorem parse_of_compile {st : Structure} {script : String} {seed : Int}
    (hf : (st.compile script seed).fault = none) : ∃ ss, Script.parse script = .ok ss := by
  unfold compile at hf
  split at hf
  · cases hf
  · exact ⟨_, ‹_›⟩

/-- **A compilation without fault** compiles the statements into the root scope from the
settings of the overrides, under the variables of the statements, and binds the grammar to
the pool it ends with. -/
theorem compile_eq_of_ok {st : Structure} {script : String} {seed : Int} {ss : List Script.Statement}
    (h : Script.parse script = .ok ss) (hf : (st.compile script seed).fault = none) :
    ∃ o : Outcome Draft, Draft.compileBody (Variables.ofStatements ss) 0 [] [] ss
        ⟨Grammar.empty, (Settings.ofOverrides st.overrides).state⟩ = o ∧ o.fault = none ∧
      (st.compile script seed).state =
        { st with
          settings := o.state.settings
          vars := Variables.ofStatements ss
          grammar := some (o.state.grammar.rebind o.state.settings.pool)
          seed := seed } := by
  unfold compile at hf ⊢
  rw [h] at hf ⊢
  dsimp only at hf ⊢
  unfold Outcome.andThen at hf ⊢
  cases h₀ : (Settings.ofOverrides st.overrides).fault with
  | some f => rw [h₀] at hf; cases hf
  | none =>
    rw [h₀] at hf
    dsimp only at hf ⊢
    refine ⟨_, rfl, ?_⟩
    split at hf
    · cases hf
    · rename_i ho
      rw [ho]
      exact ⟨rfl, rfl⟩

/-- Two structures alike in all that can be asked of them: the same settings but for the
order in which extra keys were first set, the same value of every extra key and variable,
the same grammar, and the same build for every observer. -/
structure Alike (st₁ st₂ : Structure) : Prop where
  settings : st₁.settings = { st₂.settings with extras := st₁.settings.extras }
  extras : ∀ key, st₁.settings.extras.lookup key = st₂.settings.extras.lookup key
  vars : ∀ name, st₁.vars.get? name = st₂.vars.get? name
  grammar : st₁.grammar = st₂.grammar
  build : ∀ {σ : Type} (obs : Observer σ) (init : σ), st₁.build obs init = st₂.build obs init

open Script Statement Settings in
/-- **Where settings and definitions stand does not matter.** Two scripts that parse to
statements with the same skeleton, whose settings leave every slot with the same last
value and whose definitions give every name the same last value, compile, when both
compile, into structures alike: the same settings up to the order of extra keys, with the
same pool, the same variables and grammar, and the same build for every observer. A
colour pool set after a block that draws from it still governs its draws. -/
theorem compile_alike_of_moved_settings (st₀ : Structure) (script₁ script₂ : String) (seed : Int)
    {ss₁ ss₂ : List Statement} (h₁ : parse script₁ = .ok ss₁) (h₂ : parse script₂ = .ok ss₂)
    (hskel : skeleton ss₁ = skeleton ss₂)
    (hset : ∀ sl, lastValue sl (slotWrites ss₁) = lastValue sl (slotWrites ss₂))
    (hdef : ∀ name, lastValue name (definitions ss₁) = lastValue name (definitions ss₂))
    (hf₁ : (st₀.compile script₁ seed).fault = none) (hf₂ : (st₀.compile script₂ seed).fault = none) :
    Alike (st₀.compile script₁ seed).state (st₀.compile script₂ seed).state := by
  obtain ⟨o₁, ho₁, hof₁, hst₁⟩ := compile_eq_of_ok h₁ hf₁
  obtain ⟨o₂, ho₂, hof₂, hst₂⟩ := compile_eq_of_ok h₂ hf₂
  rw [hst₁, hst₂]
  -- the settings: each run settles its script's settings once each
  have hs₁ := (ho₁ ▸ Draft.compileBody_settled _ 0 [] [] ss₁ _ (parse_groups h₁).2) hof₁
  have hs₂ := (ho₂ ▸ Draft.compileBody_settled _ 0 [] [] ss₂ _ (parse_groups h₂).2) hof₂
  have hsame : ∀ sl, SameAt sl o₁.state.settings o₂.state.settings := hs₁.sameAt hs₂ hset
  have hceil : SameCeilings o₁.state.settings o₂.state.settings :=
    ⟨hs₁.ceilings.1.trans hs₂.ceilings.1.symm, hs₁.ceilings.2.trans hs₂.ceilings.2.symm⟩
  have hsettings := eq_of_sameAt hsame hceil
  have hpool : o₁.state.settings.pool = o₂.state.settings.pool := hsame (.setting .colourPool)
  -- the variables: each name has its last value
  have hv : (Variables.ofStatements ss₁).get? = (Variables.ofStatements ss₂).get? := by
    funext name
    rw [Variables.ofStatements_get?, Variables.ofStatements_get?, hdef]
  -- the grammar: both runs build, up to pool, the grammar of the common skeleton
  have hk₁ := (ho₁ ▸ Draft.compileBody_skeleton hv 0 [] [] ss₁ _ [] _ (fun _ => rfl) (fun _ => rfl)) hof₁
  have hk₂ := (ho₂ ▸ Draft.compileBody_skeleton rfl 0 [] [] ss₂ _ [] _ (fun _ => rfl) (fun _ => rfl)) hof₂
  rw [hskel] at hk₁
  have hgrammar : o₁.state.grammar.rebind o₁.state.settings.pool =
      o₂.state.grammar.rebind o₂.state.settings.pool := by
    rw [hpool, hk₁.2, hk₂.2]
  refine ⟨hsettings, fun key => hsame (.extra key), fun name => congrFun hv name,
    congrArg some hgrammar, fun obs init => ?_⟩
  -- the builds: the two scenes are read alike, from the same seed
  have hseed : o₁.state.settings.seed = o₂.state.settings.seed := hsame (.setting .seed)
  simp only [build, buildSeed, hgrammar, hseed]
  apply InPlace.run_alike
  refine ⟨rfl, hsame (.setting .maxDepth), hsame (.setting .maxObjects), fun b => ?_, ?_, ?_⟩
  · simp only [Scene.deltaOf, Scene.of, hv, hpool]
  · have hmin : o₁.state.settings.minSize = o₂.state.settings.minSize := hsame (.setting .minSize)
    simp only [Scene.of, min3, hmin]
  · have hmax : o₁.state.settings.maxSize = o₂.state.settings.maxSize := hsame (.setting .maxSize)
    simp only [Scene.of, max3, hmax]

open Script Statement in
/-- An extra key set before or after the shape it stands with compiles alike. -/
theorem setting_moved_past_shape_compiles_alike :
    ((Structure.mk [] {} Variables.empty none 0).compile "set foo 1\nbox" 0).fault = none ∧
    ((Structure.mk [] {} Variables.empty none 0).compile "box\nset foo 1" 0).fault = none ∧
    Alike ((Structure.mk [] {} Variables.empty none 0).compile "set foo 1\nbox" 0).state
      ((Structure.mk [] {} Variables.empty none 0).compile "box\nset foo 1" 0).state := by
  have hf₁ : ((Structure.mk [] {} Variables.empty none 0).compile "set foo 1\nbox" 0).fault = none := by
    decide +kernel
  have hf₂ : ((Structure.mk [] {} Variables.empty none 0).compile "box\nset foo 1" 0).fault = none := by
    decide +kernel
  obtain ⟨ss₁, h₁⟩ := parse_of_compile hf₁
  obtain ⟨ss₂, h₂⟩ := parse_of_compile hf₂
  -- the statements the two scripts parse to, read through a view the kernel computes
  have k₁ : (parse "set foo 1\nbox").toOption.map (·.mapM plain?) =
      some (some [.inl ("foo", "1"), .inr (.reference "box" none none)]) := by
    decide +kernel
  have k₂ : (parse "box\nset foo 1").toOption.map (·.mapM plain?) =
      some (some [.inr (.reference "box" none none), .inl ("foo", "1")]) := by
    decide +kernel
  rw [h₁] at k₁
  rw [h₂] at k₂
  simp only [Except.toOption, Option.map_some, Option.some.injEq] at k₁ k₂
  have e₁ := eq_map_ofPlain k₁
  have e₂ := eq_map_ofPlain k₂
  simp only [List.map_cons, List.map_nil, ofPlain] at e₁ e₂
  subst e₁ e₂
  refine ⟨hf₁, hf₂, compile_alike_of_moved_settings _ _ _ 0 h₁ h₂ ?_ ?_ ?_ hf₁ hf₂⟩
  · simp [skeleton]
  · simp [slotWrites, settingsOf]
  · simp [definitions]

end Structure

end ShapeGrammar
