import ShapeGrammar.Proofs.Frames
import ShapeGrammar.Proofs.Pools
import ShapeGrammar.Command
/-!
# Builds in lockstep

Colour draws and the weighted choices of rules read one generator, so an observer that
consumes one double more or less at some object changes every later choice. This file
shows that observers that consume alike keep whole builds in step.

Two observers *mirror* each other on the paint of a pool (`Observer.Mirrors`) when,
shown the same object from related states and the same generator, the second takes it
whenever the first does, leaving the same generator, asking alike whether to stop, and
reaching related states. Two progresses *agree* (`Walk.Agree`) when they have the same
generator, count and stop and related observer states. The walk itself reads only the
frame and the generator, so from agreeing progresses two walks with mirroring observers
make the same choices and show the same objects: whenever the first ends, the second ends
with the same flow and agreeing progress (`Walk.Follows`). The proof goes level by level
as the walk does, by induction on the fuel, carrying that every frame's paint draws from
the scene's pool: the grammar's blocks set only such paint, and a block read again for a
build is read with that pool.

The recorders that take every colour and that only consume its draws mirror each other
on paint of a balanced pool (`Recorder.draw_mirrors_skip`), and so do the recorder that takes
colours and the label counter of `validate` (`Recorder.draw_mirrors_counter`); a compiled
structure draws from one balanced pool. So a pass that skips colours places what the pass
that takes them places, in the same order, counts as many and leaves the generator in the
same state, and `validate` counts the labels of the objects the pass that takes colours
places (`skipping_colours_keeps_builds_in_step`). The converse fails: taking a colour can fail
where skipping it cannot, for paint whose channels are not numbers (a hue turned by an
infinite amount), and then only the pass that skips colours ends.
-/

namespace ShapeGrammar

/-- Two observers keep in step on the paint of `pool`, their states related by `R`: shown
the same object, with paint drawing from `pool`, from related states and the same
generator, the second takes it whenever the first does, and both leave the same
generator, ask alike whether to stop and reach related states. -/
def Observer.Mirrors {σ₁ σ₂ : Type} (pool : Pool) (R : σ₁ → σ₂ → Prop) (obs₁ : Observer σ₁)
    (obs₂ : Observer σ₂) : Prop :=
  ∀ w₁ w₂ (s : Sighting) tw, s.paint.DrawsFrom pool → R w₁ w₂ → ∀ w₁' tw' stop,
    obs₁.see w₁ s tw = .ok (w₁', tw', stop) →
      ∃ w₂', obs₂.see w₂ s tw = .ok (w₂', tw', stop) ∧ R w₁' w₂'

namespace Walk

variable {σ₁ σ₂ : Type} (R : σ₁ → σ₂ → Prop)

/-- The progress of two builds in step: the same generator, count and stop, and observer
states related by `R`. -/
structure Agree (p₁ : Progress σ₁) (p₂ : Progress σ₂) : Prop where
  twister : p₁.twister = p₂.twister
  count : p₁.count = p₂.count
  stopped : p₁.stopped = p₂.stopped
  watch : R p₁.watch p₂.watch

/-- The second walk ends as the first does whenever the first ends: with the same flow and
a progress in step. -/
def Follows (x₁ : Except Fault (Flow × Progress σ₁)) (x₂ : Except Fault (Flow × Progress σ₂)) :
    Prop :=
  ∀ f p₁, x₁ = .ok (f, p₁) → ∃ p₂, x₂ = .ok (f, p₂) ∧ Agree R p₁ p₂

variable {R} {sc : Scene} {obs₁ : Observer σ₁} {obs₂ : Observer σ₂}

theorem Agree.withTwister {p₁ : Progress σ₁} {p₂ : Progress σ₂} (hp : Agree R p₁ p₂)
    (tw : Twister) : Agree R { p₁ with twister := tw } { p₂ with twister := tw } :=
  ⟨rfl, hp.count, hp.stopped, hp.watch⟩

theorem follows_ok {p₁ : Progress σ₁} {p₂ : Progress σ₂} (hp : Agree R p₁ p₂) (f : Flow) :
    Follows R (.ok (f, p₁)) (.ok (f, p₂)) := by
  intro f' q₁ h
  cases h
  exact ⟨p₂, rfl, hp⟩

theorem follows_error (e : Fault) (x₂ : Except Fault (Flow × Progress σ₂)) :
    Follows R (.error e : Except Fault (Flow × Progress σ₁)) x₂ := by
  intro f q₁ h
  cases h

/-- Two walks that go on from the ends of two walks in step: they follow each other when
they do after every end of the first walk in step with an end of the second, and after
every fault of the first. -/
theorem Follows.peel {x₁ : Except Fault (Flow × Progress σ₁)} {x₂ : Except Fault (Flow × Progress σ₂)}
    (hx : Follows R x₁ x₂) {y₁ : Except Fault (Flow × Progress σ₁)}
    {y₂ : Except Fault (Flow × Progress σ₂)}
    (hok : ∀ f q₁ q₂, x₁ = .ok (f, q₁) → x₂ = .ok (f, q₂) → Agree R q₁ q₂ → Follows R y₁ y₂)
    (herr : ∀ e, x₁ = .error e → Follows R y₁ y₂) : Follows R y₁ y₂ := by
  cases h₁ : x₁ with
  | error e => exact herr e h₁
  | ok r =>
    obtain ⟨f, q₁⟩ := r
    obtain ⟨q₂, h₂, hq⟩ := hx f q₁ h₁
    exact hok f q₁ q₂ h₁ h₂ hq

/-- An object is placed alike: the limits read the count and the transform, and the
observers see the same object with the same generator. -/
theorem place_follows (hobs : obs₁.Mirrors sc.settings.pool R obs₂) {fr : Frame}
    (hfr : fr.paint.DrawsFrom sc.settings.pool) (ref : Reference) {p₁ : Progress σ₁}
    {p₂ : Progress σ₂} (hp : Agree R p₁ p₂) :
    Follows R (place sc obs₁ fr ref p₁) (place sc obs₂ fr ref p₂) := by
  obtain ⟨tw, n, stopped, w₁⟩ := p₁
  obtain ⟨tw₂, n₂, stopped₂, w₂⟩ := p₂
  obtain ⟨rfl, rfl, rfl, hw⟩ := hp
  intro f q₁ h
  simp only [place, bind, Except.bind, pure, Except.pure] at h ⊢
  by_cases hmax : (n : Int) ≥ sc.settings.maxObjects
  · -- the limit of objects was reached before: both stop at once
    rw [if_pos hmax] at h ⊢
    cases h
    exact ⟨_, rfl, ⟨rfl, rfl, rfl, hw⟩⟩
  rw [if_neg hmax] at h ⊢
  cases hadm : sc.admits fr.transform with
  | error e => rw [hadm] at h; cases h
  | ok fits =>
    rw [hadm] at h
    dsimp only at h ⊢
    by_cases hfits : (!fits) = true
    · rw [if_pos hfits] at h ⊢
      cases h
      exact ⟨_, rfl, ⟨rfl, rfl, rfl, hw⟩⟩
    rw [if_neg hfits] at h ⊢
    cases hs₁ : obs₁.see w₁ ⟨ref.label, ref.param, ref.option, fr.transform, fr.paint, n + 1⟩ tw with
    | error e => rw [hs₁] at h; cases h
    | ok r =>
      obtain ⟨w₁', tw', stop⟩ := r
      obtain ⟨w₂', hs₂, hw'⟩ := hobs w₁ w₂ _ tw hfr hw w₁' tw' stop hs₁
      rw [hs₁] at h
      rw [hs₂]
      dsimp only at h ⊢
      -- after the object only the stop and the count decide, and they agree
      split at h
      · rw [if_pos ‹_›]
        cases h
        exact ⟨_, rfl, ⟨rfl, rfl, rfl, hw'⟩⟩
      · rw [if_neg ‹_›]
        split at h
        · rw [if_pos ‹_›]
          cases h
          exact ⟨_, rfl, ⟨rfl, rfl, rfl, hw'⟩⟩
        · rw [if_neg ‹_›]
          cases h
          exact ⟨_, rfl, ⟨rfl, rfl, rfl, hw'⟩⟩

/-- A reference is walked alike when the rules at its fuel are: the label is looked up with
the same generator. -/
theorem reference_follows (hobs : obs₁.Mirrors sc.settings.pool R obs₂) {n : Nat}
    (hrule : ∀ (fr : Frame) i fb (p₁ : Progress σ₁) (p₂ : Progress σ₂),
      fr.paint.DrawsFrom sc.settings.pool → Agree R p₁ p₂ →
        Follows R (rule sc obs₁ n fr i fb p₁) (rule sc obs₂ n fr i fb p₂))
    {fr : Frame} (hfr : fr.paint.DrawsFrom sc.settings.pool) (ref : Reference) {p₁ : Progress σ₁}
    {p₂ : Progress σ₂} (hp : Agree R p₁ p₂) :
    Follows R (reference sc obs₁ n fr ref p₁) (reference sc obs₂ n fr ref p₂) := by
  rw [reference, reference, ← hp.twister]
  rcases sc.grammar.find fr.rule ref.label p₁.twister with ⟨_ | i, tw⟩
  · exact place_follows hobs hfr ref (hp.withTwister tw)
  · dsimp only
    cases (sc.grammar.rule? i).bind fun r => r.parent.bind sc.grammar.rule? with
    | none => exact follows_ok (hp.withTwister tw) _
    | some s =>
      dsimp only
      split
      · -- the rule ends alike, and the reference goes on unless it stopped
        refine (hrule { fr with depths := fr.depths.bump s.name } i true _ _ hfr
          (hp.withTwister tw)).peel (fun f q₁ q₂ h₁ h₂ hq => ?_) fun e h₁ => ?_
        · rw [h₁, h₂]
          cases f <;> exact follows_ok hq _
        · rw [h₁]
          exact follows_error e _
      · exact follows_ok (hp.withTwister tw) _

/-- Repeats of a block are walked alike when the rest of the chain is: each application
sets only paint drawing from the pool. -/
theorem repeated_follows {n : Nat} {bs : List Block} {target : Option Reference}
    (hchain : ∀ (fr : Frame) (p₁ : Progress σ₁) (p₂ : Progress σ₂),
      fr.paint.DrawsFrom sc.settings.pool → Agree R p₁ p₂ →
        Follows R (chain sc obs₁ n fr bs target p₁) (chain sc obs₂ n fr bs target p₂))
    {d : Delta} (hd : d.DrawsFrom sc.settings.pool) :
    ∀ (count : Nat) (fr : Frame) (last : Flow) (p₁ : Progress σ₁) (p₂ : Progress σ₂),
      fr.paint.DrawsFrom sc.settings.pool → Agree R p₁ p₂ →
        Follows R (repeated sc obs₁ n fr d bs target count last p₁)
          (repeated sc obs₂ n fr d bs target count last p₂) := by
  intro count
  induction count with
  | zero => intro fr last p₁ p₂ _ hp; rw [repeated, repeated]; exact follows_ok hp last
  | succ count ih =>
    intro fr last p₁ p₂ hfr hp
    rw [repeated, repeated]
    dsimp only
    have hfr' : (d.apply fr.transform fr.paint).2.DrawsFrom sc.settings.pool :=
      Delta.applyToPaint_drawsFrom hd hfr
    refine (hchain ⟨(d.apply fr.transform fr.paint).1, (d.apply fr.transform fr.paint).2, fr.rule,
      fr.depths⟩ p₁ p₂ hfr' hp).peel (fun f q₁ q₂ h₁ h₂ hq => ?_) fun e h₁ => ?_
    · rw [h₁, h₂]
      -- a stop ends the repeats; otherwise the next application follows
      cases f with
      | stop => exact follows_ok hq _
      | more => exact ih _ _ _ _ hfr' hq
      | cut => exact ih _ _ _ _ hfr' hq
    · rw [h₁]
      exact follows_error e _

/-- A chain of blocks setting only paint of the pool is walked alike when the references
at its fuel are. -/
theorem chain_follows {n : Nat}
    (href : ∀ (fr : Frame) ref (p₁ : Progress σ₁) (p₂ : Progress σ₂),
      fr.paint.DrawsFrom sc.settings.pool → Agree R p₁ p₂ →
        Follows R (reference sc obs₁ n fr ref p₁) (reference sc obs₂ n fr ref p₂)) :
    ∀ (bs : List Block), (∀ b ∈ bs, b.delta.DrawsFrom sc.settings.pool) →
      ∀ (fr : Frame) target (p₁ : Progress σ₁) (p₂ : Progress σ₂),
        fr.paint.DrawsFrom sc.settings.pool → Agree R p₁ p₂ →
          Follows R (chain sc obs₁ n fr bs target p₁) (chain sc obs₂ n fr bs target p₂) := by
  intro bs
  induction bs with
  | nil =>
    intro _ fr target p₁ p₂ hfr hp
    cases target with
    | none => rw [chain, chain]; exact follows_ok hp _
    | some ref => rw [chain, chain]; exact href fr ref p₁ p₂ hfr hp
  | cons b rest ih =>
    intro hbs fr target p₁ p₂ hfr hp
    rw [chain, chain]
    cases hδ : sc.deltaOf b with
    | error e => exact follows_error e _
    | ok d =>
      dsimp only
      split
      · exact follows_ok hp _
      · have hd := Scene.deltaOf_drawsFrom (hbs b List.mem_cons_self) hδ
        have hrest : ∀ b ∈ rest, b.delta.DrawsFrom sc.settings.pool :=
          fun b hb => hbs b (List.mem_cons_of_mem _ hb)
        exact repeated_follows (fun fr p₁ p₂ hfr hp => ih hrest fr target p₁ p₂ hfr hp) hd
          b.count fr .more p₁ p₂ hfr hp

/-- A body is walked alike when the chains at its fuel are. -/
theorem body_follows {n : Nat}
    (hchain : ∀ (bs : List Block), (∀ b ∈ bs, b.delta.DrawsFrom sc.settings.pool) →
      ∀ (fr : Frame) target (p₁ : Progress σ₁) (p₂ : Progress σ₂),
        fr.paint.DrawsFrom sc.settings.pool → Agree R p₁ p₂ →
          Follows R (chain sc obs₁ n fr bs target p₁) (chain sc obs₂ n fr bs target p₂)) :
    ∀ (cs : List Chain), (∀ c ∈ cs, ∀ b ∈ c.blocks, b.delta.DrawsFrom sc.settings.pool) →
      ∀ (fr : Frame) (p₁ : Progress σ₁) (p₂ : Progress σ₂),
        fr.paint.DrawsFrom sc.settings.pool → Agree R p₁ p₂ →
          Follows R (body sc obs₁ n fr cs p₁) (body sc obs₂ n fr cs p₂) := by
  intro cs
  induction cs with
  | nil => intro _ fr p₁ p₂ _ hp; rw [body, body]; exact follows_ok hp _
  | cons c rest ih =>
    intro hcs fr p₁ p₂ hfr hp
    rw [body, body]
    refine (hchain c.blocks (hcs c List.mem_cons_self) fr c.target p₁ p₂ hfr hp).peel
      (fun f q₁ q₂ h₁ h₂ hq => ?_) fun e h₁ => ?_
    · rw [h₁, h₂]
      cases f with
      | more => exact ih (fun c hc => hcs c (List.mem_cons_of_mem _ hc)) fr _ _ hfr hq
      | cut => exact follows_ok hq _
      | stop => exact follows_ok hq _
    · rw [h₁]
      exact follows_error e _

/-- A rule at fuel `n + 1` is walked alike when the bodies and rules at fuel `n` are: its
body and its fallback are found alike, the fallback with the same generator. -/
theorem rule_succ_follows {n : Nat} (hg : sc.grammar.DrawsFrom sc.settings.pool)
    (hbody : ∀ (cs : List Chain), (∀ c ∈ cs, ∀ b ∈ c.blocks, b.delta.DrawsFrom sc.settings.pool) →
      ∀ (fr : Frame) (p₁ : Progress σ₁) (p₂ : Progress σ₂),
        fr.paint.DrawsFrom sc.settings.pool → Agree R p₁ p₂ →
          Follows R (body sc obs₁ n fr cs p₁) (body sc obs₂ n fr cs p₂))
    (hrule : ∀ (fr : Frame) i fb (p₁ : Progress σ₁) (p₂ : Progress σ₂),
      fr.paint.DrawsFrom sc.settings.pool → Agree R p₁ p₂ →
        Follows R (rule sc obs₁ n fr i fb p₁) (rule sc obs₂ n fr i fb p₂))
    {fr : Frame} (hfr : fr.paint.DrawsFrom sc.settings.pool) (i : Nat) (fb : Bool)
    {p₁ : Progress σ₁} {p₂ : Progress σ₂} (hp : Agree R p₁ p₂) :
    Follows R (rule sc obs₁ (n + 1) fr i fb p₁) (rule sc obs₂ (n + 1) fr i fb p₂) := by
  rw [rule, rule]
  cases hr : sc.grammar.rule? i with
  | none => exact follows_ok hp _
  | some r =>
    dsimp only
    split
    · exact follows_ok hp _
    · split
      · -- within the limit: the body, a body cut short counting as done
        refine (hbody r.body (hg i r hr) { fr with rule := i, depths := fr.depths.bump r.name } p₁ p₂
          hfr hp).peel (fun f q₁ q₂ h₁ h₂ hq => ?_) fun e h₁ => ?_
        · rw [h₁, h₂]
          cases f <;> exact follows_ok hq _
        · rw [h₁]
          exact follows_error e _
      · cases fb with
        | false => exact follows_ok hp _
        | true =>
          rw [if_pos rfl, if_pos rfl]
          cases r.fallback with
          | none => exact follows_ok hp _
          | some label =>
            dsimp only
            rw [← hp.twister]
            rcases sc.grammar.find i label p₁.twister with ⟨_ | t, tw⟩
            · exact follows_error _ _
            · exact hrule { fr with rule := i, depths := fr.depths.bump r.name } t false _ _ hfr
                (hp.withTwister tw)

/-- **Observers that mirror each other keep walks in step.** From agreeing progresses and a
frame whose paint draws from the scene's pool, in a grammar whose blocks set only such
paint, the walk with the second observer ends as the walk with the first does. -/
theorem rule_follows (hobs : obs₁.Mirrors sc.settings.pool R obs₂)
    (hg : sc.grammar.DrawsFrom sc.settings.pool) :
    ∀ (n : Nat) (fr : Frame) i fb (p₁ : Progress σ₁) (p₂ : Progress σ₂),
      fr.paint.DrawsFrom sc.settings.pool → Agree R p₁ p₂ →
        Follows R (rule sc obs₁ n fr i fb p₁) (rule sc obs₂ n fr i fb p₂) := by
  intro n
  induction n with
  | zero => intro fr i fb p₁ p₂ _ hp; rw [rule, rule]; exact follows_ok hp _
  | succ n ih =>
    intro fr i fb p₁ p₂ hfr hp
    -- at fuel `n` a reference walks rules, a chain references, and a body chains
    exact rule_succ_follows hg
      (body_follows (chain_follows fun fr ref p₁ p₂ hfr hp => reference_follows hobs ih hfr ref hp))
      ih hfr i fb hp

end Walk

namespace InPlace

/-- A build is the walk from the start frame, its progress kept. -/
theorem run_eq_walk {σ : Type} (sc : Scene) (obs : Observer σ) (init : σ) (seed : Int) :
    run sc obs init seed =
      (Walk.rule sc obs (Walk.fuelFor sc) Walk.start 0 true (Walk.begin init seed)).map (·.2) := by
  rw [run, rule_eq_walk, Status.frame_ofFrame, Status.progress_ofFrame]
  cases Walk.rule sc obs (Walk.fuelFor sc) Walk.start 0 true (Walk.begin init seed) <;> rfl

variable {σ₁ σ₂ : Type} {R : σ₁ → σ₂ → Prop} {sc : Scene} {obs₁ : Observer σ₁}
  {obs₂ : Observer σ₂}

/-- Builds with mirroring observers from related states: whenever the first ends, the
second ends in step. -/
theorem run_follows (hobs : obs₁.Mirrors sc.settings.pool R obs₂)
    (hg : sc.grammar.DrawsFrom sc.settings.pool) {init₁ : σ₁} {init₂ : σ₂} (hinit : R init₁ init₂)
    (seed : Int) (q₁ : Progress σ₁) (h : run sc obs₁ init₁ seed = .ok q₁) :
    ∃ q₂, run sc obs₂ init₂ seed = .ok q₂ ∧ Walk.Agree R q₁ q₂ := by
  rw [run_eq_walk] at h ⊢
  cases h₁ : Walk.rule sc obs₁ (Walk.fuelFor sc) Walk.start 0 true (Walk.begin init₁ seed) with
  | error e => rw [h₁] at h; cases h
  | ok r =>
    obtain ⟨f, q₁'⟩ := r
    rw [h₁] at h
    cases h
    -- both builds start from the unbound paint of the start frame and the same generator
    have hstart : Walk.Agree R (Walk.begin init₁ seed) (Walk.begin init₂ seed) :=
      ⟨rfl, rfl, rfl, hinit⟩
    obtain ⟨q₂, h₂, hq⟩ := Walk.rule_follows hobs hg _ Walk.start 0 true _ _
      (Paint.drawsFrom_ofHsba _ _) hstart f q₁' h₁
    rw [h₂]
    exact ⟨q₂, rfl, hq⟩

end InPlace

/-- A placement with its colour dropped. -/
def Placement.uncoloured (p : Placement) : Placement := { p with colour := none }

/-- A recording with the colours of its placements dropped. -/
def Record.uncoloured (r : Record) : Record := ⟨r.placements.map Placement.uncoloured, r.answer⟩

/-- The recorder that takes colours and the one that only consumes their draws mirror each
other on the paint of a balanced pool, the second recording the first without colours. -/
theorem Recorder.draw_mirrors_skip {pool : Pool} (hp : pool.Balanced) (stopAt : Option Nat)
    (answers : Bool) :
    (Recorder.observer ⟨.draw, stopAt, answers⟩).Mirrors pool (fun r₁ r₂ => r₂ = r₁.uncoloured)
      (Recorder.observer ⟨.skip, stopAt, answers⟩) := by
  intro w₁ w₂ s tw hs hw w₁' tw' stop h
  subst hw
  simp only [Recorder.observer, Recorder.colourOf, bind, Except.bind, pure, Except.pure] at h ⊢
  cases hc : s.paint.toRgba tw with
  | error e => rw [hc] at h; cases h
  | ok r =>
    obtain ⟨v, g⟩ := r
    rw [hc] at h
    cases h
    rw [Paint.skip_eq_of_toRgba hs hp hc]
    exact ⟨_, rfl, rfl⟩

/-- The label counts of a recording, labels in the order first placed. -/
def Record.labelCounts (r : Record) : List (String × Nat) :=
  (r.placements.reverse.map (·.label)).foldl Command.tally []

/-- The recorder that takes colours and stops at the sample limit of `validate`, and the
label counter of `validate`, mirror each other on the paint of a balanced pool, the counter
holding the label counts of the recording. -/
theorem Recorder.draw_mirrors_counter {pool : Pool} (hp : pool.Balanced) :
    (Recorder.observer ⟨.draw, some Command.sampleLimit, false⟩).Mirrors pool
      (fun r counts => counts = r.labelCounts) Command.counter := by
  intro w₁ w₂ s tw hs hw w₁' tw' stop h
  subst hw
  simp only [Recorder.observer, Recorder.colourOf, bind, Except.bind, pure, Except.pure] at h
  cases hc : s.paint.toRgba tw with
  | error e => rw [hc] at h; cases h
  | ok r =>
    obtain ⟨v, g⟩ := r
    rw [hc] at h
    cases h
    refine ⟨Command.tally w₁.labelCounts s.label, ?_, ?_⟩
    · -- the counter skips the colour the recorder took
      simp only [Command.counter, Paint.skip_eq_of_toRgba hs hp hc]
    · -- the new object's label is counted last
      simp only [Record.labelCounts, List.reverse_cons, List.map_append, List.map_cons,
        List.map_nil, List.foldl_append, List.foldl_cons, List.foldl_nil]

/-- **A pass that skips colours keeps in step with the pass that takes them.** For a
structure compiled without fault, whenever the build that takes every colour ends, the build
that only consumes the colours' draws ends too: it has placed the same objects in the same
order (labels, options, parameters, transforms and counts), counted as many, stopped alike
and left the generator in the same state. The label counter of `validate` counts the labels
of the objects that the build taking colours places up to the sample limit, and leaves the
generator as it does. More generally any two observers that mirror each other on the
structure's pool keep its builds in step; and every pool that a scheme assigned without
fault leaves skips exactly what it draws. -/
theorem skipping_colours_keeps_builds_in_step (st₀ : Structure) (script : String) (seed : Int)
    (hf : (st₀.compile script seed).fault = none) :
    (∀ (stopAt : Option Nat) (answers : Bool) (q₁ : Progress Record),
      (st₀.compile script seed).state.record ⟨.draw, stopAt, answers⟩ = .ok q₁ →
        ∃ q₂, (st₀.compile script seed).state.record ⟨.skip, stopAt, answers⟩ = .ok q₂ ∧
          q₂.watch = q₁.watch.uncoloured ∧ q₂.count = q₁.count ∧ q₂.stopped = q₁.stopped ∧
          q₂.twister = q₁.twister) ∧
    (∀ q₁ : Progress Record,
      (st₀.compile script seed).state.record ⟨.draw, some Command.sampleLimit, false⟩ = .ok q₁ →
        ∃ q₂, (st₀.compile script seed).state.build Command.counter [] = .ok q₂ ∧
          q₂.watch = q₁.watch.labelCounts ∧ q₂.count = q₁.count ∧ q₂.twister = q₁.twister) ∧
    (∀ {σ₁ σ₂ : Type} (R : σ₁ → σ₂ → Prop) (obs₁ : Observer σ₁) (obs₂ : Observer σ₂) (init₁ : σ₁)
      (init₂ : σ₂), obs₁.Mirrors (st₀.compile script seed).state.settings.pool R obs₂ →
        R init₁ init₂ → ∀ q₁, (st₀.compile script seed).state.build obs₁ init₁ = .ok q₁ →
          ∃ q₂, (st₀.compile script seed).state.build obs₂ init₂ = .ok q₂ ∧ Walk.Agree R q₁ q₂) ∧
    (∀ (p : Pool) (text : String) (g : Twister), (p.assign text).fault = none →
      (p.assign text).state.skip g = ((p.assign text).state.draw g).2) := by
  obtain ⟨hpool, g, hg, hdraws⟩ := Structure.compile_drawsBalanced st₀ script seed hf
  have hbuild : ∀ {σ₁ σ₂ : Type} (R : σ₁ → σ₂ → Prop) (obs₁ : Observer σ₁) (obs₂ : Observer σ₂)
      (init₁ : σ₁) (init₂ : σ₂), obs₁.Mirrors (st₀.compile script seed).state.settings.pool R obs₂ →
        R init₁ init₂ → ∀ q₁, (st₀.compile script seed).state.build obs₁ init₁ = .ok q₁ →
          ∃ q₂, (st₀.compile script seed).state.build obs₂ init₂ = .ok q₂ ∧ Walk.Agree R q₁ q₂ := by
    intro σ₁ σ₂ R obs₁ obs₂ init₁ init₂ hobs hinit q₁ h
    rw [Structure.build, hg] at h ⊢
    exact InPlace.run_follows hobs hdraws hinit _ q₁ h
  refine ⟨?_, ?_, hbuild, fun p text g hp => Pool.skip_eq_draw (Pool.assign_balanced p text hp) g⟩
  · intro stopAt answers q₁ h
    -- the recorders that take and skip colours are two such observers
    obtain ⟨q₂, h₂, hq⟩ := hbuild _ _ _ Record.empty Record.empty
      (Recorder.draw_mirrors_skip hpool stopAt answers) rfl q₁ h
    exact ⟨q₂, h₂, hq.watch, hq.count.symm, hq.stopped.symm, hq.twister.symm⟩
  · intro q₁ h
    -- and so are the recorder that takes colours and the counter of `validate`
    obtain ⟨q₂, h₂, hq⟩ := hbuild _ _ _ Record.empty [] (Recorder.draw_mirrors_counter hpool) rfl q₁ h
    exact ⟨q₂, h₂, hq.watch, hq.count.symm, hq.twister.symm⟩

/-- A script that paints one box from the colour pool compiles without fault, so the pass that
draws its colour and the pass that skips it keep in step. -/
theorem box_skips_in_step :
    ((Structure.mk [] {} Variables.empty none 0).compile "{ random } box" 0).fault = none ∧
      ∀ q₁, ((Structure.mk [] {} Variables.empty none 0).compile "{ random } box" 0).state.record
          Recorder.snapshots = .ok q₁ →
        ∃ q₂, ((Structure.mk [] {} Variables.empty none 0).compile "{ random } box" 0).state.record
            ⟨.skip, none, false⟩ = .ok q₂ ∧
          q₂.watch = q₁.watch.uncoloured ∧ q₂.count = q₁.count ∧ q₂.stopped = q₁.stopped ∧
          q₂.twister = q₁.twister :=
  have hf : ((Structure.mk [] {} Variables.empty none 0).compile "{ random } box" 0).fault = none := by
    decide +kernel
  ⟨hf, (skipping_colours_keeps_builds_in_step _ _ _ hf).1 none false⟩

end ShapeGrammar
