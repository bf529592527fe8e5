import ShapeGrammar.Structure
/-!
# Compiling a structure again

A structure may be compiled any number of times, and builds in between read whatever the
last compilation left. A compilation ends in one of three ways (`compile_cases`): the script
cannot be read, the overrides are refused, or the statements are compiled from the settings
of the overrides under the variables of the script. Only in the last way does it change the
structure, and it replaces the grammar and the seed only when the statements compile without
fault.

So a compilation that succeeds leaves exactly the structure that a fresh one with the same
overrides, compiled from the same script and seed, would be, whatever the structure held
before (`compile_ok_eq_fresh`); all it reads of the structure is its overrides
(`compile_congr`). A compilation that fails keeps the grammar and the seed of the last one
that succeeded, but it is not undone as a whole: once the statements are read, the settings
they reached and the variables of the script stay in place (`compile_vars`), and the old
grammar is then built under them.
-/

namespace ShapeGrammar

namespace Structure

open Script

variable (script : String) (seed : Int)

/-- **The three ends of a compilation.** The script is not read and nothing changes; the
overrides are refused and nothing changes; or the statements are compiled from the settings
of the overrides, and the structure takes the settings they reach and the variables of the
script, and also the new grammar and seed when they compile without fault. -/
theorem compile_cases (st : Structure) :
    (∃ f, parse script = .error f ∧ st.compile script seed = .failed st f) ∨
    (∃ ss f, parse script = .ok ss ∧ (Settings.ofOverrides st.overrides).fault = some f ∧
      (st.compile script seed).state = st ∧ (st.compile script seed).fault = some f) ∨
    (∃ ss, parse script = .ok ss ∧ (Settings.ofOverrides st.overrides).fault = none ∧
      let o := Draft.compileBody (Variables.ofStatements ss) 0 [] [] ss
        ⟨Grammar.empty, (Settings.ofOverrides st.overrides).state⟩
      (st.compile script seed).fault = o.fault ∧
      (st.compile script seed).state =
        match o.fault with
        | some _ => { st with settings := o.state.settings, vars := Variables.ofStatements ss }
        | none => { st with settings := o.state.settings, vars := Variables.ofStatements ss,
                            grammar := some (o.state.grammar.rebind o.state.settings.pool),
                            seed := seed }) := by
  unfold compile
  cases hp : parse script with
  | error f => exact .inl ⟨f, rfl, rfl⟩
  | ok ss =>
    dsimp only
    unfold Outcome.andThen
    cases ho : (Settings.ofOverrides st.overrides).fault with
    | some f => exact .inr (.inl ⟨ss, f, rfl, rfl, rfl, rfl⟩)
    | none =>
      refine .inr (.inr ⟨ss, rfl, rfl, ?_⟩)
      dsimp only
      split
      · rename_i f hf
        rw [hf]
        exact ⟨rfl, rfl⟩
      · rename_i hf
        rw [hf]
        exact ⟨rfl, rfl⟩

/-- A script that cannot be read changes nothing. -/
theorem compile_of_parse_error (st : Structure) {f : Fault} (h : parse script = .error f) :
    st.compile script seed = .failed st f := by
  unfold compile
  rw [h]

/-- Once the statements are read and the overrides taken, the variables are those of the
statements, whether compiling them succeeds or not. -/
theorem compile_vars (st : Structure) {ss : List Statement} (h : parse script = .ok ss)
    (ho : (Settings.ofOverrides st.overrides).fault = none) :
    (st.compile script seed).state.vars = Variables.ofStatements ss := by
  rcases compile_cases script seed st with ⟨f, hp, -⟩ | ⟨ss', f, -, ho', -⟩ | ⟨ss', hp, -, -, hst⟩
  · rw [h] at hp
    cases hp
  · rw [ho] at ho'
    cases ho'
  · rw [h] at hp
    cases hp
    rw [hst]
    split <;> rfl

/-- A compilation that fails keeps the grammar, the seed and the overrides. -/
theorem compile_failed_keeps_grammar (st : Structure) (hf : (st.compile script seed).fault ≠ none) :
    (st.compile script seed).state.grammar = st.grammar ∧
      (st.compile script seed).state.seed = st.seed ∧
      (st.compile script seed).state.overrides = st.overrides := by
  rcases compile_cases script seed st with ⟨f, -, hst⟩ | ⟨ss, f, -, -, hst, -⟩ | ⟨ss, -, -, hfo, hst⟩
  · rw [hst]
    exact ⟨rfl, rfl, rfl⟩
  · rw [hst]
    exact ⟨rfl, rfl, rfl⟩
  · -- the statements failed to compile, so the grammar and seed were not replaced
    rw [hst]
    rw [hfo] at hf
    split
    · exact ⟨rfl, rfl, rfl⟩
    · rename_i hnone
      exact absurd hnone hf

/-- **A compilation reads only the overrides of the structure.** Two structures with the same
overrides fail alike, and when they do not, they end as the same structure. -/
theorem compile_congr {st₁ st₂ : Structure} (h : st₁.overrides = st₂.overrides) :
    (st₁.compile script seed).fault = (st₂.compile script seed).fault ∧
      ((st₁.compile script seed).fault = none →
        (st₁.compile script seed).state = (st₂.compile script seed).state) := by
  unfold compile
  rw [h]
  split
  · exact ⟨rfl, fun hf => by cases hf⟩
  · unfold Outcome.andThen
    split
    · exact ⟨rfl, fun hf => by cases hf⟩
    · dsimp only
      split
      · exact ⟨rfl, fun hf => by cases hf⟩
      · -- every field but the overrides is set by the compilation
        refine ⟨rfl, fun _ => ?_⟩
        obtain ⟨o₁, s₁, v₁, g₁, seed₁⟩ := st₁
        obtain ⟨o₂, s₂, v₂, g₂, seed₂⟩ := st₂
        cases h
        rfl

/-- A compilation without fault took the overrides without fault. -/
theorem overrides_ok_of_compile (st : Structure) (hf : (st.compile script seed).fault = none) :
    (Settings.ofOverrides st.overrides).fault = none := by
  rcases compile_cases script seed st with ⟨f, -, hst⟩ | ⟨ss, f, -, -, -, hfo⟩ | ⟨ss, -, ho, -⟩
  · rw [hst] at hf
    cases hf
  · rw [hfo] at hf
    cases hf
  · exact ho

/-- **A compilation that succeeds leaves the structure a fresh one would be.** A fresh structure
with the same overrides, compiled from the same script and seed, compiles without fault and
ends as the same structure, whatever was compiled and built before. -/
theorem compile_ok_eq_fresh (st : Structure) (hf : (st.compile script seed).fault = none) :
    (ofScript st.overrides script seed).toExcept = .ok (st.compile script seed).state := by
  have ho := overrides_ok_of_compile script seed st hf
  -- the fresh structure has the overrides of `st`, and nothing else a compilation reads
  have hsame := @compile_congr script seed
    ⟨st.overrides, (Settings.ofOverrides st.overrides).state, Variables.empty, none, 0⟩ st rfl
  have hf₀ : (Structure.compile ⟨st.overrides, (Settings.ofOverrides st.overrides).state,
      Variables.empty, none, 0⟩ script seed).fault = none := hsame.1.trans hf
  unfold ofScript create Outcome.andThen Outcome.toExcept
  simp only [Outcome.map, ho, hf₀]
  rw [hsame.2 hf₀]

/-- **Compiling again replaces the structure or keeps its grammar.** A compilation that
succeeds leaves the structure a fresh one with the same overrides would be. One that fails
keeps the grammar and the seed; it changes nothing when the script cannot be read, and
otherwise the variables are already those of the script. -/
theorem compile_replaces_or_keeps_grammar (st : Structure) :
    ((st.compile script seed).fault = none →
      (ofScript st.overrides script seed).toExcept = .ok (st.compile script seed).state) ∧
    ((st.compile script seed).fault ≠ none →
      (st.compile script seed).state.grammar = st.grammar ∧
      (st.compile script seed).state.seed = st.seed ∧
      (∀ f, parse script = .error f → (st.compile script seed).state = st) ∧
      (∀ ss, parse script = .ok ss → (Settings.ofOverrides st.overrides).fault = none →
        (st.compile script seed).state.vars = Variables.ofStatements ss)) := by
  refine ⟨compile_ok_eq_fresh script seed st, fun hf => ?_⟩
  obtain ⟨hg, hseed, -⟩ := compile_failed_keeps_grammar script seed st hf
  refine ⟨hg, hseed, fun f h => ?_, fun ss h ho => compile_vars script seed st h ho⟩
  rw [compile_of_parse_error script seed st h]
  rfl

/-- A structure that its script limited to one object, compiled again from a script whose
block cannot be read: the compilation fails and keeps the grammar and the seed, but the
limit of objects is already back to its default. -/
theorem unreadable_block_keeps_grammar_not_limit :
    let st := ((Structure.mk [] {} Variables.empty none 0).compile "set maxobjects 1 box box" 0).state
    (st.compile "{ zzz } box" 5).fault ≠ none ∧
      (st.compile "{ zzz } box" 5).state.grammar = st.grammar ∧
      (st.compile "{ zzz } box" 5).state.seed = st.seed ∧
      st.settings.maxObjects = 1 ∧ (st.compile "{ zzz } box" 5).state.settings.maxObjects = 100000 := by
  intro st
  have hf : (st.compile "{ zzz } box" 5).fault ≠ none :=
    Option.ne_none_iff_isSome.mpr (by decide +kernel)
  obtain ⟨hg, hseed, -⟩ := (compile_replaces_or_keeps_grammar "{ zzz } box" 5 st).2 hf
  exact ⟨hf, hg, hseed, by decide +kernel, by decide +kernel⟩

end Structure

end ShapeGrammar
