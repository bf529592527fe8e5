import ShapeGrammar.Build.InPlace
/-!
# Frames: the walk kept in place puts everything back

A walk kept on one status (`InPlace`) changes the transform, the paint, the current rule,
the depth counters and the saved frames as it goes, and relies on every step to put them
back. This file proves that it does, on every path out of a step, a build that stops
included: each step of the walk in place ends with the status it started from, the
progress of the build alone changed, and that progress is the one the walk that passes
frames down (`Walk`) makes.

So the walk that passes frames down is the walk in place, and what it makes plain holds of
both: every chain of a rule's body is walked with that rule as the current rule, so a
reference is resolved from the rule whose body holds it, whatever path led there, and a
block's delta reaches only the rest of its own chain.

The proof goes by the fuel of the walk: a rule at fuel `n + 1` walks its body and its
fallback at fuel `n`, and at a fixed fuel a reference walks a rule, a chain walks
references and shorter chains, and a body walks chains.
-/

namespace ShapeGrammar

namespace InPlace

open Status

variable {σ : Type} {sc : Scene} {obs : Observer σ} {fuel : Nat}

/-- A reference puts the status back when every rule at its fuel does. -/
theorem reference_eq
    (hrule : ∀ (st : Status σ) i fb,
      rule sc obs fuel st i fb = (Walk.rule sc obs fuel st.frame i fb st.progress).map st.after)
    (st : Status σ) (ref : Reference) :
    reference sc obs fuel st ref = (Walk.reference sc obs fuel st.frame ref st.progress).map st.after := by
  rw [reference, Walk.reference]
  simp only [rule_frame]
  rcases hfind : sc.grammar.find st.rule ref.label st.progress.twister with ⟨_ | i, tw⟩
  · dsimp only
    cases Walk.place sc obs st.frame ref { st.progress with twister := tw } <;> rfl
  · dsimp only
    cases (sc.grammar.rule? i).bind fun r => r.parent.bind sc.grammar.rule? with
    | none => rfl
    | some s =>
      dsimp only
      simp only [withProgress, depths_frame]
      by_cases hg : (st.depths.bump s.name).get s.name ≤ sc.limitOf s
      · simp only [hg, ↓reduceIte]
        rw [hrule]
        simp only [Status.frame]
        cases Walk.rule sc obs fuel ⟨st.transform, st.paint, st.rule, st.depths.bump s.name⟩ i true
            { st.progress with twister := tw } with
        | error f => rfl
        | ok r =>
          obtain ⟨f, p⟩ := r
          cases f <;> simp [Except.map, after, withProgress]
      · simp only [hg, ↓reduceIte]
        simp [Except.map, after, withProgress]

/-- A block with nothing after it is only applied: it ends with the frame it saved ready
to be restored. -/
theorem repeated_alone {bs : List Block} {target : Option Reference}
    (halone : (bs.isEmpty && target.isNone) = true) {t : Transform} {c : Paint} {i : Nat}
    {rest : List Saved} (d : Delta) :
    ∀ (n : Nat) (st : Status σ) (last : Flow), st.saved = ⟨some t, some c, i⟩ :: rest →
      ∃ st', repeated sc obs fuel st d bs target n last = .ok (last, st') ∧ st'.pop = st.pop := by
  intro n
  induction n with
  | zero => intro st last _; exact ⟨st, by rw [repeated], rfl⟩
  | succ n ih =>
    intro st last hsaved
    obtain ⟨st', hrun, hpop⟩ := ih (st.apply d) last (by rw [saved_apply, hsaved])
    refine ⟨st', ?_, ?_⟩
    · rw [repeated, if_pos halone]
      exact hrun
    · rw [hpop, pop_apply hsaved]

/-- Repeating a block puts back what its saved frame restores, when the rest of the chain
puts the status back: the block's applications are undone by the restore. -/
theorem repeated_eq {bs : List Block} {target : Option Reference}
    (hchain : ∀ st : Status σ,
      chain sc obs fuel st bs target = (Walk.chain sc obs fuel st.frame bs target st.progress).map st.after)
    (hnext : (bs.isEmpty && target.isNone) = false) {t : Transform} {c : Paint} {i : Nat}
    {rest : List Saved} (d : Delta) :
    ∀ (n : Nat) (st : Status σ) (last : Flow), st.saved = ⟨some t, some c, i⟩ :: rest →
      (repeated sc obs fuel st d bs target n last).map (fun r => (r.1, r.2.pop)) =
        (Walk.repeated sc obs fuel st.frame d bs target n last st.progress).map st.pop.after := by
  intro n
  induction n with
  | zero =>
    intro st last _
    rw [repeated, Walk.repeated]
    simp only [Except.map, after]
    rw [← progress_pop st, withProgress_progress]
  | succ n ih =>
    intro st last hsaved
    rw [repeated, Walk.repeated, if_neg (by simp [hnext]), hchain]
    rcases hd : d.apply st.transform st.paint with ⟨t', c'⟩
    -- the rest of the chain is walked from the applied frame, the saved frames kept
    have hframe : (st.apply d).frame = ⟨t', c', st.rule, st.depths⟩ := by
      simp [Status.apply, Status.frame, hd]
    have hpop : (st.apply d).pop = st.pop := pop_apply hsaved d
    simp only [transform_frame, paint_frame, rule_frame, depths_frame, hframe, progress_apply, hd]
    cases Walk.chain sc obs fuel ⟨t', c', st.rule, st.depths⟩ bs target st.progress with
    | error f => rfl
    | ok r =>
      obtain ⟨flow, p⟩ := r
      have hnext := ih ((st.apply d).withProgress p) flow (by simp [hsaved])
      cases flow with
      | stop => simp [Except.map, after, hpop]
      | more => simpa [Except.map, after, hpop, hframe] using hnext
      | cut => simpa [Except.map, after, hpop, hframe] using hnext

/-- A chain puts the status back when every reference at its fuel does: each block saves
the status before it is applied and restores it after its last repetition. -/
theorem chain_eq
    (href : ∀ (st : Status σ) ref,
      reference sc obs fuel st ref = (Walk.reference sc obs fuel st.frame ref st.progress).map st.after) :
    ∀ (bs : List Block) (st : Status σ) (target : Option Reference),
      chain sc obs fuel st bs target = (Walk.chain sc obs fuel st.frame bs target st.progress).map st.after := by
  intro bs
  induction bs with
  | nil =>
    intro st target
    cases target with
    | none => rw [chain, Walk.chain]; rfl
    | some ref => rw [chain, Walk.chain, href]
  | cons b rest ih =>
    intro st target
    rw [chain, Walk.chain]
    cases sc.deltaOf b with
    | error f => rfl
    | ok d =>
      dsimp only
      -- the block's repetitions end on the frame it saved, which the restore puts back
      by_cases halone : (rest.isEmpty && target.isNone) = true
      · obtain ⟨st', hrun, hpop⟩ :=
          @repeated_alone σ sc obs fuel rest target halone _ _ _ _ d b.count st.push .more rfl
        rw [hrun, if_pos halone]
        simp [hpop, Except.map, after]
      · have hrep := repeated_eq (ih · target) (Bool.eq_false_iff.mpr halone) d b.count st.push .more rfl
        rw [frame_push, progress_push, pop_push] at hrep
        rw [if_neg halone]
        cases hrun : repeated sc obs fuel st.push d rest target b.count .more with
        | error f => rw [hrun] at hrep; exact hrep
        | ok r => rw [hrun] at hrep; exact hrep

/-- A body puts the status back when every chain at its fuel does. -/
theorem body_eq
    (hchain : ∀ (st : Status σ) bs target,
      chain sc obs fuel st bs target = (Walk.chain sc obs fuel st.frame bs target st.progress).map st.after) :
    ∀ (cs : List Chain) (st : Status σ),
      body sc obs fuel st cs = (Walk.body sc obs fuel st.frame cs st.progress).map st.after := by
  intro cs
  induction cs with
  | nil => intro st; rw [body, Walk.body]; rfl
  | cons c rest ih =>
    intro st
    rw [body, Walk.body, hchain]
    cases Walk.chain sc obs fuel st.frame c.blocks c.target st.progress with
    | error f => rfl
    | ok r =>
      obtain ⟨flow, p⟩ := r
      cases flow with
      | more => simpa [Except.map, after] using ih (st.withProgress p)
      | cut => rfl
      | stop => rfl

/-- A rule at fuel `n + 1` puts the status back when bodies and rules at fuel `n` do: it
leaves as it entered, on every path that does not fail. -/
theorem rule_succ_eq
    (hbody : ∀ (st : Status σ) cs,
      body sc obs fuel st cs = (Walk.body sc obs fuel st.frame cs st.progress).map st.after)
    (hrule : ∀ (st : Status σ) i fb,
      rule sc obs fuel st i fb = (Walk.rule sc obs fuel st.frame i fb st.progress).map st.after)
    (st : Status σ) (i : Nat) (fb : Bool) :
    rule sc obs (fuel + 1) st i fb =
      (Walk.rule sc obs (fuel + 1) st.frame i fb st.progress).map st.after := by
  rw [rule, Walk.rule]
  cases hr : sc.grammar.rule? i with
  | none => rfl
  | some r =>
    dsimp only
    by_cases hempty : r.body.isEmpty = true
    · simp only [hempty, ↓reduceIte]
      rfl
    simp only [hempty, depths_pushRule, depths_frame, Bool.false_eq_true, ↓reduceIte]
    by_cases hg : (st.depths.bump r.name).get r.name ≤ sc.limitOf r
    · -- within the limit: the body is walked in the entered rule
      simp only [hg, ↓reduceIte]
      rw [hbody, frame_pushRule, progress_pushRule]
      simp only [depths_frame]
      cases Walk.body sc obs fuel { st.frame with rule := i, depths := st.depths.bump r.name }
          r.body st.progress with
      | error f => rfl
      | ok res =>
        obtain ⟨flow, p⟩ := res
        cases flow <;> simp [Except.map, after, popRule_pushRule hr]
    simp only [hg, ↓reduceIte]
    cases fb with
    | false => simp [Except.map, after, popRule_pushRule_self hr]
    | true =>
      simp only [↓reduceIte]
      cases r.fallback with
      | none => simp [Except.map, after, popRule_pushRule_self hr]
      | some label =>
        dsimp only
        rw [progress_pushRule]
        cases sc.grammar.find i label st.progress.twister with
        | mk found tw =>
          cases found with
          | none => rfl
          | some t =>
            -- past the limit: the fallback is walked in the entered rule, and the rule is left
            dsimp only
            rw [hrule, frame_withProgress, frame_pushRule, progress_withProgress, after_withProgress]
            simp only [depths_frame]
            cases Walk.rule sc obs fuel { st.frame with rule := i, depths := st.depths.bump r.name }
                t false { st.progress with twister := tw } with
            | error f => rfl
            | ok res =>
              obtain ⟨flow, p⟩ := res
              simp [Except.map, after, popRule_pushRule hr]

/-! ## Every step puts the status back -/

theorem rule_eq_walk :
    ∀ (fuel : Nat) (st : Status σ) i fb,
      rule sc obs fuel st i fb = (Walk.rule sc obs fuel st.frame i fb st.progress).map st.after := by
  intro fuel
  induction fuel with
  | zero =>
    intro st i fb
    rw [rule, Walk.rule]
    rfl
  | succ fuel ih =>
    have hchain := fun st bs target => chain_eq (reference_eq ih) bs st target
    exact rule_succ_eq (fun st cs => body_eq hchain cs st) ih

theorem reference_eq_walk (st : Status σ) (ref : Reference) :
    reference sc obs fuel st ref = (Walk.reference sc obs fuel st.frame ref st.progress).map st.after :=
  reference_eq (rule_eq_walk fuel) st ref

theorem chain_eq_walk (st : Status σ) (bs : List Block) (target : Option Reference) :
    chain sc obs fuel st bs target = (Walk.chain sc obs fuel st.frame bs target st.progress).map st.after :=
  chain_eq (fun st ref => reference_eq_walk st ref) bs st target

theorem body_eq_walk (st : Status σ) (cs : List Chain) :
    body sc obs fuel st cs = (Walk.body sc obs fuel st.frame cs st.progress).map st.after :=
  body_eq (fun st bs target => chain_eq_walk st bs target) cs st

/-- **The frame discipline.** A rule (with or without its fallback), a chain of blocks and
the reference after them, and a reference, walked in place on any status, end — when they
do not fail, a build that stops included — with that very status, its transform, paint,
current rule, depth counters and saved frames as they were, only the progress of the build
changed; and the flow and progress are those of the walk that passes frames down. So in
the walk in place every chain of a body starts in the body's rule, and a block's delta
reaches the rest of its own chain and nothing after it. -/
theorem restores_status (st : Status σ) :
    (∀ i fb, rule sc obs fuel st i fb = (Walk.rule sc obs fuel st.frame i fb st.progress).map st.after) ∧
    (∀ bs target,
      chain sc obs fuel st bs target = (Walk.chain sc obs fuel st.frame bs target st.progress).map st.after) ∧
    (∀ ref, reference sc obs fuel st ref = (Walk.reference sc obs fuel st.frame ref st.progress).map st.after) :=
  ⟨rule_eq_walk fuel st, chain_eq_walk st, reference_eq_walk st⟩

/-- A step that ends as `after` makes it ends with its own status, a new progress in it. -/
theorem eq_withProgress_of_map_after {st st' : Status σ} {f : Flow}
    {x : Except Fault (Flow × Progress σ)} (h : x.map st.after = .ok (f, st')) :
    st' = st.withProgress st'.progress := by
  cases x with
  | error e => cases h
  | ok r =>
    simp only [Except.map, after, Except.ok.injEq, Prod.mk.injEq] at h
    obtain ⟨-, rfl⟩ := h
    rfl

/-- A rule that does not fail hands back the status it was given, with a new progress. -/
theorem rule_keeps_status {st st' : Status σ} {i : Nat} {fb : Bool} {f : Flow}
    (h : rule sc obs fuel st i fb = .ok (f, st')) : st' = st.withProgress st'.progress :=
  eq_withProgress_of_map_after (by rw [← rule_eq_walk]; exact h)

/-- A chain that does not fail hands back the status it was given, with a new progress. -/
theorem chain_keeps_status {st st' : Status σ} {bs : List Block} {target : Option Reference}
    {f : Flow} (h : chain sc obs fuel st bs target = .ok (f, st')) :
    st' = st.withProgress st'.progress :=
  eq_withProgress_of_map_after (by rw [← chain_eq_walk]; exact h)

end InPlace

end ShapeGrammar
