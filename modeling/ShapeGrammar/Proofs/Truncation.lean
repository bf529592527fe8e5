import ShapeGrammar.Proofs.Lockstep
/-!
# Truncation: a build cut short shows a prefix of the build

A build ends early for two reasons: the limit of objects is reached, or the observer asks
it to stop. Either way the flow `stop` unwinds every level of the walk at once, however
deep in rules, repeats and fallbacks it was reached. This file shows that what the
observer sees of a build cut short is exactly a prefix of what it sees of the build that is
not: the same objects in the same order, each shown with the same generator and the same
observer state, and nothing after the cut.

The calls of an observer are made visible by logging them (`Observer.logged`): the logged
observer keeps, in order, every object it is shown with the state and the generator it
is shown with. A walk only adds calls to the log, one for each object it counts
(`Walk.Grows`). That follows from a general fact: a relation between progresses that every
draw and every object placed keep is kept by whole walks (`Walk.Keeps`, `Walk.rule_keeps`).
The limit of objects is kept the same way: no walk counts past it, or past zero.

One walk *truncates* another (`Walk.Truncates`) when, whenever the first ends, the second
ends alike or has stopped at a point that the first walked past. The pair of builds with two
limits of objects, the first never reaching its own, is one such pair; a build and the same
build with an observer that also asks to stop at its `j`-th object is another. Only placing
an object differs between the two walks of a pair; the rest goes level by level as the walk
does, by induction on the fuel. Hence `limit_cuts_build_to_prefix`.
-/

namespace ShapeGrammar

/-- One call of an observer: the state it was in, and the object and generator it was shown. -/
structure Visit (σ : Type) where
  watch : σ
  sighting : Sighting
  twister : Twister

namespace Observer

variable {σ : Type}

/-- The observer that also logs its calls, in order. -/
def logged (obs : Observer σ) : Observer (σ × List (Visit σ)) where
  see w s tw := (obs.see w.1 s tw).map fun r => ((r.1, w.2 ++ [⟨w.1, s, tw⟩]), r.2.1, r.2.2)

/-- The observer that also asks the build to stop when it is shown its `j`-th object. -/
def stoppingAt (obs : Observer σ) (j : Nat) : Observer σ where
  see w s tw := (obs.see w s tw).map fun r => (r.1, r.2.1, r.2.2 || s.count == j)

/-- A logged call is a call of the observer, with the call added at the end of the log. -/
theorem logged_see_eq_ok {obs : Observer σ} {w w' : σ × List (Visit σ)} {s : Sighting}
    {tw tw' : Twister} {stop : Bool} (h : obs.logged.see w s tw = .ok (w', tw', stop)) :
    ∃ w₁, obs.see w.1 s tw = .ok (w₁, tw', stop) ∧ w' = (w₁, w.2 ++ [⟨w.1, s, tw⟩]) := by
  simp only [logged] at h
  cases hs : obs.see w.1 s tw with
  | error e =>
    rw [hs] at h
    cases h
  | ok r =>
    rw [hs] at h
    simp only [Except.map, Except.ok.injEq, Prod.mk.injEq] at h
    obtain ⟨rfl, rfl, rfl⟩ := h
    exact ⟨r.1, rfl, rfl⟩

/-- Logging the observer that stops at its `j`-th object is stopping the logged observer there. -/
theorem logged_stoppingAt (obs : Observer σ) (j : Nat) :
    (obs.stoppingAt j).logged = obs.logged.stoppingAt j := by
  simp only [logged, stoppingAt, Observer.mk.injEq]
  funext w s tw
  cases obs.see w.1 s tw <;> rfl

end Observer

/-- The scene with another limit of objects. -/
def Scene.withObjectLimit (sc : Scene) (k : Int) : Scene :=
  { sc with settings := { sc.settings with maxObjects := k } }

namespace Scene

variable (sc : Scene) (k : Int)

@[simp] theorem grammar_withObjectLimit : (sc.withObjectLimit k).grammar = sc.grammar := rfl

@[simp] theorem limitOf_withObjectLimit : (sc.withObjectLimit k).limitOf = sc.limitOf := rfl

@[simp] theorem deltaOf_withObjectLimit : (sc.withObjectLimit k).deltaOf = sc.deltaOf := rfl

@[simp] theorem admits_withObjectLimit : (sc.withObjectLimit k).admits = sc.admits := rfl

@[simp] theorem maxObjects_withObjectLimit : (sc.withObjectLimit k).settings.maxObjects = k := rfl

@[simp] theorem withObjectLimit_maxObjects : sc.withObjectLimit sc.settings.maxObjects = sc := rfl

@[simp] theorem withObjectLimit_withObjectLimit (m : Int) :
    (sc.withObjectLimit m).withObjectLimit k = sc.withObjectLimit k := rfl

end Scene

namespace Walk

variable {σ : Type} {sc : Scene} {obs : Observer σ} {G : Progress σ → Progress σ → Prop}

/-- A relation between progresses that everything a walk does to its progress keeps: it is
reflexive and transitive, and a draw of the generator and placing an object keep it. -/
structure Keeps (sc : Scene) (obs : Observer σ) (G : Progress σ → Progress σ → Prop) : Prop where
  refl : ∀ p, G p p
  trans : ∀ {p q r}, G p q → G q r → G p r
  draw : ∀ (p : Progress σ) (tw : Twister), G p { p with twister := tw }
  place : ∀ fr ref p f q, place sc obs fr ref p = .ok (f, q) → G p q

/-- Every end of a walk from `p` is related to `p`. -/
def Ends (G : Progress σ → Progress σ → Prop) (p : Progress σ)
    (x : Except Fault (Flow × Progress σ)) : Prop :=
  ∀ f q, x = .ok (f, q) → G p q

section Place

variable {fr : Frame} {ref : Reference} {p : Progress σ}

/-- At the limit of objects, placing an object stops the walk before the object. -/
theorem place_of_limit (h : (p.count : Int) ≥ sc.settings.maxObjects) :
    place sc obs fr ref p = .ok (.stop, p) := by
  simp only [place, bind, Except.bind, pure, Except.pure]
  rw [if_pos h]

/-- Below the limit, an object out of range cuts the rest of the body. -/
theorem place_of_unfit (h : ¬(p.count : Int) ≥ sc.settings.maxObjects)
    (ha : sc.admits fr.transform = .ok false) : place sc obs fr ref p = .ok (.cut, p) := by
  simp only [place, bind, Except.bind, pure, Except.pure]
  rw [if_neg h, ha]
  rfl

/-- Below the limit, an object in range is shown to the observer, whose answer gives the new
progress; the walk stops when the observer asked or the count reached the limit. -/
theorem place_of_seen (h : ¬(p.count : Int) ≥ sc.settings.maxObjects)
    (ha : sc.admits fr.transform = .ok true) {w : σ} {tw : Twister} {stop : Bool}
    (hs : obs.see p.watch ⟨ref.label, ref.param, ref.option, fr.transform, fr.paint, p.count + 1⟩
      p.twister = .ok (w, tw, stop)) :
    place sc obs fr ref p =
      .ok (if p.stopped || stop then .stop
        else if ((p.count + 1 : Nat) : Int) ≥ sc.settings.maxObjects then .stop else .more,
        ⟨tw, p.count + 1, p.stopped || stop, w⟩) := by
  simp only [place, bind, Except.bind, pure, Except.pure]
  rw [if_neg h, ha]
  simp only [Bool.not_true, Bool.false_eq_true, ↓reduceIte]
  rw [hs]
  dsimp only
  split <;> (try split) <;> rfl

/-- The ways placing an object ends: stopped before it at the limit of objects, cut for
its size, or shown to the observer. -/
theorem place_eq_ok {q : Progress σ} {f : Flow} (h : place sc obs fr ref p = .ok (f, q)) :
    ((p.count : Int) ≥ sc.settings.maxObjects ∧ f = .stop ∧ q = p) ∨
    (¬(p.count : Int) ≥ sc.settings.maxObjects ∧ sc.admits fr.transform = .ok false ∧ f = .cut ∧
      q = p) ∨
    (¬(p.count : Int) ≥ sc.settings.maxObjects ∧ sc.admits fr.transform = .ok true ∧
      ∃ w tw stop, obs.see p.watch
          ⟨ref.label, ref.param, ref.option, fr.transform, fr.paint, p.count + 1⟩ p.twister =
            .ok (w, tw, stop) ∧
        f = (if p.stopped || stop then .stop
          else if ((p.count + 1 : Nat) : Int) ≥ sc.settings.maxObjects then .stop else .more) ∧
        q = ⟨tw, p.count + 1, p.stopped || stop, w⟩) := by
  by_cases hmax : (p.count : Int) ≥ sc.settings.maxObjects
  · rw [place_of_limit hmax] at h
    cases h
    exact .inl ⟨hmax, rfl, rfl⟩
  cases hadm : sc.admits fr.transform with
  | error e =>
    simp only [place, bind, Except.bind, pure, Except.pure] at h
    rw [if_neg hmax, hadm] at h
    cases h
  | ok fits =>
    cases fits with
    | false =>
      rw [place_of_unfit hmax hadm] at h
      cases h
      exact .inr (.inl ⟨hmax, rfl, rfl, rfl⟩)
    | true =>
      cases hs : obs.see p.watch ⟨ref.label, ref.param, ref.option, fr.transform, fr.paint,
          p.count + 1⟩ p.twister with
      | error e =>
        simp only [place, bind, Except.bind, pure, Except.pure] at h
        rw [if_neg hmax, hadm] at h
        simp only [Bool.not_true, Bool.false_eq_true, ↓reduceIte] at h
        rw [hs] at h
        cases h
      | ok r =>
        obtain ⟨w, tw, stop⟩ := r
        rw [place_of_seen hmax hadm hs] at h
        cases h
        exact .inr (.inr ⟨hmax, rfl, w, tw, stop, rfl, rfl, rfl⟩)

end Place

/-- A reference keeps `G` when the rules at its fuel do. -/
theorem reference_keeps (hG : Keeps sc obs G) {n : Nat}
    (hrule : ∀ (fr : Frame) i fb (p : Progress σ), Ends G p (rule sc obs n fr i fb p))
    (fr : Frame) (ref : Reference) (p : Progress σ) : Ends G p (reference sc obs n fr ref p) := by
  intro f q h
  rw [reference] at h
  rcases hf : sc.grammar.find fr.rule ref.label p.twister with ⟨_ | i, tw⟩
  · rw [hf] at h
    exact hG.trans (hG.draw p tw) (hG.place _ _ _ _ _ h)
  · rw [hf] at h
    dsimp only at h
    split at h
    · cases h
      exact hG.draw p tw
    · split at h
      · -- the rule ends at the reference's end, whatever its flow
        split at h
        · cases h
          exact hG.trans (hG.draw p tw) (hrule _ _ _ _ _ _ ‹_›)
        · cases h
          exact hG.trans (hG.draw p tw) (hrule _ _ _ _ _ _ ‹_›)
        · cases h
      · cases h
        exact hG.draw p tw

/-- Repeats of a block keep `G` when the rest of the chain does. -/
theorem repeated_keeps (hG : Keeps sc obs G) {n : Nat} {bs : List Block}
    {target : Option Reference}
    (hchain : ∀ (fr : Frame) (p : Progress σ), Ends G p (chain sc obs n fr bs target p))
    (d : Delta) :
    ∀ (count : Nat) (fr : Frame) (last : Flow) (p : Progress σ),
      Ends G p (repeated sc obs n fr d bs target count last p) := by
  intro count
  induction count with
  | zero =>
    intro fr last p f q h
    rw [repeated] at h
    cases h
    exact hG.refl p
  | succ count ih =>
    intro fr last p f q h
    rw [repeated] at h
    dsimp only at h
    split at h
    · cases h
      exact hchain _ _ _ _ ‹_›
    · exact hG.trans (hchain _ _ _ _ ‹_›) (ih _ _ _ _ _ h)
    · cases h

/-- A chain keeps `G` when the references at its fuel do. -/
theorem chain_keeps (hG : Keeps sc obs G) {n : Nat}
    (href : ∀ (fr : Frame) ref (p : Progress σ), Ends G p (reference sc obs n fr ref p)) :
    ∀ (bs : List Block) (fr : Frame) (target : Option Reference) (p : Progress σ),
      Ends G p (chain sc obs n fr bs target p) := by
  intro bs
  induction bs with
  | nil =>
    intro fr target p f q h
    cases target with
    | none =>
      rw [chain] at h
      cases h
      exact hG.refl p
    | some ref =>
      rw [chain] at h
      exact href fr ref p f q h
  | cons b rest ih =>
    intro fr target p f q h
    rw [chain] at h
    split at h
    · cases h
    · split at h
      · cases h
        exact hG.refl p
      · exact repeated_keeps hG (fun fr p => ih fr target p) _ _ _ _ _ _ _ h

/-- A body keeps `G` when the chains at its fuel do. -/
theorem body_keeps (hG : Keeps sc obs G) {n : Nat}
    (hchain : ∀ bs (fr : Frame) target (p : Progress σ), Ends G p (chain sc obs n fr bs target p)) :
    ∀ (cs : List Chain) (fr : Frame) (p : Progress σ), Ends G p (body sc obs n fr cs p) := by
  intro cs
  induction cs with
  | nil =>
    intro fr p f q h
    rw [body] at h
    cases h
    exact hG.refl p
  | cons c rest ih =>
    intro fr p f q h
    rw [body] at h
    split at h
    · exact hG.trans (hchain _ _ _ _ _ _ ‹_›) (ih _ _ _ _ h)
    · exact hchain _ _ _ _ _ _ h

/-- A rule at fuel `n + 1` keeps `G` when the bodies and rules at fuel `n` do. -/
theorem rule_succ_keeps (hG : Keeps sc obs G) {n : Nat}
    (hbody : ∀ cs (fr : Frame) (p : Progress σ), Ends G p (body sc obs n fr cs p))
    (hrule : ∀ (fr : Frame) i fb (p : Progress σ), Ends G p (rule sc obs n fr i fb p))
    (fr : Frame) (i : Nat) (fb : Bool) (p : Progress σ) :
    Ends G p (rule sc obs (n + 1) fr i fb p) := by
  intro f q h
  rw [rule] at h
  split at h
  · cases h
    exact hG.refl p
  · dsimp only at h
    split at h
    · cases h
      exact hG.refl p
    · split at h
      · -- within the limit: the body's end, a body cut short counting as done
        split at h
        · cases h
          exact hbody _ _ _ _ _ ‹_›
        · exact hbody _ _ _ _ _ h
      · split at h
        · split at h
          · cases h
            exact hG.refl p
          · -- past the limit: the fallback, after the draw that found it
            split at h
            · cases h
            · exact hG.trans (hG.draw p _) (hrule _ _ _ _ _ _ h)
        · cases h
          exact hG.refl p

/-- **Walks keep every relation that draws and objects keep.** -/
theorem rule_keeps (hG : Keeps sc obs G) :
    ∀ (n : Nat) (fr : Frame) i fb (p : Progress σ), Ends G p (rule sc obs n fr i fb p) := by
  intro n
  induction n with
  | zero =>
    intro fr i fb p f q h
    rw [rule] at h
    cases h
    exact hG.refl p
  | succ n ih =>
    -- at fuel `n` a reference walks rules, a chain references, and a body chains
    exact rule_succ_keeps hG (body_keeps hG (chain_keeps hG (reference_keeps hG ih))) ih

/-! ## Truncation -/

variable {k : Int} {obs₁ obs₂ : Observer σ} {Pre : Progress σ → Prop}
  {Cut : Progress σ → Progress σ → Prop} {Fine : Progress σ → Prop}

/-- The second walk ends as the first does whenever the first ends `Fine`: alike, at a
progress it may go on from (`Pre`); or stopped at a progress cut from the first's end. -/
def Truncates (Pre : Progress σ → Prop) (Cut : Progress σ → Progress σ → Prop)
    (Fine : Progress σ → Prop) (x₁ x₂ : Except Fault (Flow × Progress σ)) : Prop :=
  ∀ f q₁, x₁ = .ok (f, q₁) → Fine q₁ →
    (x₂ = .ok (f, q₁) ∧ Pre q₁) ∨ ∃ q₂, x₂ = .ok (.stop, q₂) ∧ Cut q₂ q₁

/-- What cutting the walks of `sc` with `obs₁` short needs of them: they keep a relation `G`,
along which a cut stays a cut and a fine end was fine before; and a draw keeps `Pre`. -/
structure CutLaws (sc : Scene) (obs₁ : Observer σ) (G : Progress σ → Progress σ → Prop)
    (Pre : Progress σ → Prop) (Cut : Progress σ → Progress σ → Prop) (Fine : Progress σ → Prop) :
    Prop where
  keeps : Keeps sc obs₁ G
  cut : ∀ {q₂ q₁ q₁'}, Cut q₂ q₁ → G q₁ q₁' → Cut q₂ q₁'
  fine : ∀ {q q'}, G q q' → Fine q' → Fine q
  draw : ∀ (p : Progress σ) (tw : Twister), Pre p → Pre { p with twister := tw }

theorem truncates_ok {p : Progress σ} (hp : Pre p) (f : Flow) :
    Truncates Pre Cut Fine (.ok (f, p)) (.ok (f, p)) := by
  intro f' q₁ h _
  cases h
  exact .inl ⟨rfl, hp⟩

theorem truncates_error (e : Fault) (x₂ : Except Fault (Flow × Progress σ)) :
    Truncates Pre Cut Fine (.error e) x₂ := by
  intro f q₁ h
  cases h

/-- A reference is walked alike, or cut, when objects and the rules at its fuel are: the
label is looked up with the same generator. -/
theorem reference_truncates (hL : CutLaws sc obs₁ G Pre Cut Fine) {n : Nat}
    (hplace : ∀ (fr : Frame) ref (p : Progress σ), Pre p →
      Truncates Pre Cut Fine (place sc obs₁ fr ref p) (place (sc.withObjectLimit k) obs₂ fr ref p))
    (hrule : ∀ (fr : Frame) i fb (p : Progress σ), Pre p →
      Truncates Pre Cut Fine (rule sc obs₁ n fr i fb p) (rule (sc.withObjectLimit k) obs₂ n fr i fb p))
    (fr : Frame) (ref : Reference) {p : Progress σ} (hp : Pre p) :
    Truncates Pre Cut Fine (reference sc obs₁ n fr ref p)
      (reference (sc.withObjectLimit k) obs₂ n fr ref p) := by
  rw [reference, reference, Scene.grammar_withObjectLimit, Scene.limitOf_withObjectLimit]
  rcases sc.grammar.find fr.rule ref.label p.twister with ⟨_ | i, tw⟩
  · exact hplace fr ref _ (hL.draw p tw hp)
  · dsimp only
    cases (sc.grammar.rule? i).bind fun r => r.parent.bind sc.grammar.rule? with
    | none => exact truncates_ok (hL.draw p tw hp) _
    | some s =>
      dsimp only
      split
      · -- the rule ends alike or is cut; the reference goes on unless it stopped
        intro f q₁ h hq
        split at h
        · rename_i q heq
          cases h
          rcases hrule _ i true _ (hL.draw p tw hp) _ _ heq hq with ⟨h₂, hpre⟩ | ⟨q₂, h₂, hcut⟩
          · rw [h₂]
            exact .inl ⟨rfl, hpre⟩
          · rw [h₂]
            exact .inr ⟨q₂, rfl, hcut⟩
        · rename_i flow q hstop heq
          cases h
          rcases hrule _ i true _ (hL.draw p tw hp) _ _ heq hq with ⟨h₂, hpre⟩ | ⟨q₂, h₂, hcut⟩
          · rw [h₂]
            cases flow with
            | stop => exact absurd rfl hstop
            | more => exact .inl ⟨rfl, hpre⟩
            | cut => exact .inl ⟨rfl, hpre⟩
          · rw [h₂]
            exact .inr ⟨q₂, rfl, hcut⟩
        · cases h
      · exact truncates_ok (hL.draw p tw hp) _

/-- Repeats of a block are walked alike, or cut, when the rest of the chain is: the first
walk's later repeats only go on from where a cut was cut. -/
theorem repeated_truncates (hL : CutLaws sc obs₁ G Pre Cut Fine) {n : Nat} {bs : List Block}
    {target : Option Reference}
    (hchain : ∀ (fr : Frame) (p : Progress σ), Pre p →
      Truncates Pre Cut Fine (chain sc obs₁ n fr bs target p)
        (chain (sc.withObjectLimit k) obs₂ n fr bs target p))
    (hkeeps : ∀ (fr : Frame) (p : Progress σ), Ends G p (chain sc obs₁ n fr bs target p))
    (d : Delta) :
    ∀ (count : Nat) (fr : Frame) (last : Flow) (p : Progress σ), Pre p →
      Truncates Pre Cut Fine (repeated sc obs₁ n fr d bs target count last p)
        (repeated (sc.withObjectLimit k) obs₂ n fr d bs target count last p) := by
  intro count
  induction count with
  | zero =>
    intro fr last p hp
    rw [repeated, repeated]
    exact truncates_ok hp last
  | succ count ih =>
    intro fr last p hp f q₁ h hq
    rw [repeated] at h
    rw [repeated]
    dsimp only at h ⊢
    cases h₁ : chain sc obs₁ n ⟨(d.apply fr.transform fr.paint).1, (d.apply fr.transform fr.paint).2,
        fr.rule, fr.depths⟩ bs target p with
    | error e =>
      rw [h₁] at h
      cases h
    | ok r =>
      obtain ⟨f₁, q₁'⟩ := r
      rw [h₁] at h
      cases f₁ with
      | stop =>
        -- a stop ends the repeats of both walks
        cases h
        rcases hchain _ p hp _ _ h₁ hq with ⟨h₂, hpre⟩ | ⟨q₂, h₂, hcut⟩
        · rw [h₂]
          exact .inl ⟨rfl, hpre⟩
        · rw [h₂]
          exact .inr ⟨q₂, rfl, hcut⟩
      | more =>
        have hG := repeated_keeps hL.keeps hkeeps d count _ _ _ _ _ h
        rcases hchain _ p hp _ _ h₁ (hL.fine hG hq) with ⟨h₂, hpre⟩ | ⟨q₂, h₂, hcut⟩
        · rw [h₂]
          exact ih _ _ _ hpre f q₁ h hq
        · rw [h₂]
          exact .inr ⟨q₂, rfl, hL.cut hcut hG⟩
      | cut =>
        have hG := repeated_keeps hL.keeps hkeeps d count _ _ _ _ _ h
        rcases hchain _ p hp _ _ h₁ (hL.fine hG hq) with ⟨h₂, hpre⟩ | ⟨q₂, h₂, hcut⟩
        · rw [h₂]
          exact ih _ _ _ hpre f q₁ h hq
        · rw [h₂]
          exact .inr ⟨q₂, rfl, hL.cut hcut hG⟩

/-- A chain is walked alike, or cut, when the references at its fuel are. -/
theorem chain_truncates (hL : CutLaws sc obs₁ G Pre Cut Fine) {n : Nat}
    (href : ∀ (fr : Frame) ref (p : Progress σ), Pre p →
      Truncates Pre Cut Fine (reference sc obs₁ n fr ref p)
        (reference (sc.withObjectLimit k) obs₂ n fr ref p))
    (hkeeps : ∀ (fr : Frame) ref (p : Progress σ), Ends G p (reference sc obs₁ n fr ref p)) :
    ∀ (bs : List Block) (fr : Frame) (target : Option Reference) (p : Progress σ), Pre p →
      Truncates Pre Cut Fine (chain sc obs₁ n fr bs target p)
        (chain (sc.withObjectLimit k) obs₂ n fr bs target p) := by
  intro bs
  induction bs with
  | nil =>
    intro fr target p hp
    cases target with
    | none =>
      rw [chain, chain]
      exact truncates_ok hp _
    | some ref =>
      rw [chain, chain]
      exact href fr ref p hp
  | cons b rest ih =>
    intro fr target p hp
    rw [chain, chain, Scene.deltaOf_withObjectLimit]
    cases sc.deltaOf b with
    | error e => exact truncates_error e _
    | ok d =>
      dsimp only
      split
      · exact truncates_ok hp _
      · exact repeated_truncates hL (fun fr p hp => ih fr target p hp)
          (fun fr p => chain_keeps hL.keeps hkeeps rest fr target p) d b.count fr .more p hp

/-- A body is walked alike, or cut, when the chains at its fuel are: the first walk's later
chains only go on from where a cut was cut. -/
theorem body_truncates (hL : CutLaws sc obs₁ G Pre Cut Fine) {n : Nat}
    (hchain : ∀ bs (fr : Frame) target (p : Progress σ), Pre p →
      Truncates Pre Cut Fine (chain sc obs₁ n fr bs target p)
        (chain (sc.withObjectLimit k) obs₂ n fr bs target p))
    (hkeeps : ∀ cs (fr : Frame) (p : Progress σ), Ends G p (body sc obs₁ n fr cs p)) :
    ∀ (cs : List Chain) (fr : Frame) (p : Progress σ), Pre p →
      Truncates Pre Cut Fine (body sc obs₁ n fr cs p) (body (sc.withObjectLimit k) obs₂ n fr cs p) := by
  intro cs
  induction cs with
  | nil =>
    intro fr p hp
    rw [body, body]
    exact truncates_ok hp _
  | cons c rest ih =>
    intro fr p hp f q₁ h hq
    rw [body] at h
    rw [body]
    cases h₁ : chain sc obs₁ n fr c.blocks c.target p with
    | error e =>
      rw [h₁] at h
      cases h
    | ok r =>
      obtain ⟨f₁, q₁'⟩ := r
      rw [h₁] at h
      cases f₁ with
      | more =>
        have hG := hkeeps rest fr q₁' f q₁ h
        rcases hchain _ fr _ p hp _ _ h₁ (hL.fine hG hq) with ⟨h₂, hpre⟩ | ⟨q₂, h₂, hcut⟩
        · rw [h₂]
          exact ih fr q₁' hpre f q₁ h hq
        · rw [h₂]
          exact .inr ⟨q₂, rfl, hL.cut hcut hG⟩
      | cut =>
        cases h
        rcases hchain _ fr _ p hp _ _ h₁ hq with ⟨h₂, hpre⟩ | ⟨q₂, h₂, hcut⟩
        · rw [h₂]
          exact .inl ⟨rfl, hpre⟩
        · rw [h₂]
          exact .inr ⟨q₂, rfl, hcut⟩
      | stop =>
        cases h
        rcases hchain _ fr _ p hp _ _ h₁ hq with ⟨h₂, hpre⟩ | ⟨q₂, h₂, hcut⟩
        · rw [h₂]
          exact .inl ⟨rfl, hpre⟩
        · rw [h₂]
          exact .inr ⟨q₂, rfl, hcut⟩

/-- A rule at fuel `n + 1` is walked alike, or cut, when the bodies and rules at fuel `n`
are: its body and its fallback are found alike, the fallback with the same generator. -/
theorem rule_succ_truncates (hL : CutLaws sc obs₁ G Pre Cut Fine) {n : Nat}
    (hbody : ∀ cs (fr : Frame) (p : Progress σ), Pre p →
      Truncates Pre Cut Fine (body sc obs₁ n fr cs p) (body (sc.withObjectLimit k) obs₂ n fr cs p))
    (hrule : ∀ (fr : Frame) i fb (p : Progress σ), Pre p →
      Truncates Pre Cut Fine (rule sc obs₁ n fr i fb p) (rule (sc.withObjectLimit k) obs₂ n fr i fb p))
    (fr : Frame) (i : Nat) (fb : Bool) {p : Progress σ} (hp : Pre p) :
    Truncates Pre Cut Fine (rule sc obs₁ (n + 1) fr i fb p)
      (rule (sc.withObjectLimit k) obs₂ (n + 1) fr i fb p) := by
  rw [rule, rule, Scene.grammar_withObjectLimit, Scene.limitOf_withObjectLimit]
  cases sc.grammar.rule? i with
  | none => exact truncates_ok hp _
  | some r =>
    dsimp only
    split
    · exact truncates_ok hp _
    · split
      · -- within the limit: the body, a body cut short counting as done
        intro f q₁ h hq
        split at h
        · rename_i q heq
          cases h
          rcases hbody _ _ _ hp _ _ heq hq with ⟨h₂, hpre⟩ | ⟨q₂, h₂, hcut⟩
          · rw [h₂]
            exact .inl ⟨rfl, hpre⟩
          · rw [h₂]
            exact .inr ⟨q₂, rfl, hcut⟩
        · rename_i hcut'
          rcases hbody _ _ _ hp _ _ h hq with ⟨h₂, hpre⟩ | ⟨q₂, h₂, hcut⟩
          · rw [h₂]
            cases f with
            | cut => exact absurd h (hcut' q₁)
            | more => exact .inl ⟨rfl, hpre⟩
            | stop => exact .inl ⟨rfl, hpre⟩
          · rw [h₂]
            exact .inr ⟨q₂, rfl, hcut⟩
      · cases fb with
        | false => exact truncates_ok hp _
        | true =>
          rw [if_pos rfl, if_pos rfl]
          cases r.fallback with
          | none => exact truncates_ok hp _
          | some label =>
            dsimp only
            rcases sc.grammar.find i label p.twister with ⟨_ | t, tw⟩
            · exact truncates_error _ _
            · exact hrule _ t false _ (hL.draw p tw hp)

/-- **Walks that differ only in placing objects truncate alike.** When placing an object with
the second observer and limit truncates placing it with the first, so does every walk. -/
theorem rule_truncates (hL : CutLaws sc obs₁ G Pre Cut Fine)
    (hplace : ∀ (fr : Frame) ref (p : Progress σ), Pre p →
      Truncates Pre Cut Fine (place sc obs₁ fr ref p) (place (sc.withObjectLimit k) obs₂ fr ref p)) :
    ∀ (n : Nat) (fr : Frame) i fb (p : Progress σ), Pre p →
      Truncates Pre Cut Fine (rule sc obs₁ n fr i fb p) (rule (sc.withObjectLimit k) obs₂ n fr i fb p) := by
  intro n
  induction n with
  | zero =>
    intro fr i fb p hp
    rw [rule, rule]
    exact truncates_ok hp _
  | succ n ih =>
    intro fr i fb p hp
    -- the first walk keeps `G` at fuel `n`, through references, chains and bodies
    have hkeeps := reference_keeps hL.keeps (rule_keeps hL.keeps n)
    exact rule_succ_truncates hL
      (body_truncates hL (chain_truncates hL (reference_truncates hL hplace ih) hkeeps)
        (body_keeps hL.keeps (chain_keeps hL.keeps hkeeps)))
      ih fr i fb hp

/-! ## The log of a build and its limit of objects -/

/-- The log of `q` is the log of `p` followed by one call for each object counted since. -/
def Grows (p q : Progress (σ × List (Visit σ))) : Prop :=
  p.count ≤ q.count ∧
    ∃ new : List (Visit σ), q.watch.2 = p.watch.2 ++ new ∧ new.length = q.count - p.count

/-- Walks with a logged observer only add to the log, one call per object. -/
theorem grows_logged (sc : Scene) (obs : Observer σ) : Keeps sc obs.logged Grows where
  refl p := ⟨Nat.le_refl _, [], (List.append_nil _).symm, by simp⟩
  trans := by
    rintro p q r ⟨hpq, new₁, h₁, l₁⟩ ⟨hqr, new₂, h₂, l₂⟩
    refine ⟨Nat.le_trans hpq hqr, new₁ ++ new₂, by rw [h₂, h₁, List.append_assoc], ?_⟩
    rw [List.length_append, l₁, l₂]
    omega
  draw p tw := ⟨Nat.le_refl _, [], (List.append_nil _).symm, by simp⟩
  place fr ref p f q h := by
    rcases place_eq_ok h with ⟨-, -, rfl⟩ | ⟨-, -, -, rfl⟩ | ⟨-, -, w, tw, stop, hs, -, rfl⟩
    · exact ⟨Nat.le_refl _, [], (List.append_nil _).symm, by simp⟩
    · exact ⟨Nat.le_refl _, [], (List.append_nil _).symm, by simp⟩
    · -- the object shown is logged once
      obtain ⟨w₁, -, rfl⟩ := Observer.logged_see_eq_ok hs
      exact ⟨Nat.le_succ _, [_], rfl, by simp⟩

/-- Marking a progress stopped changes nothing of its log. -/
theorem grows_stopped (q : Progress (σ × List (Visit σ))) : Grows { q with stopped := true } q :=
  ⟨Nat.le_refl _, [], (List.append_nil _).symm, by simp⟩

/-- No walk counts objects past the limit, or past zero when the limit is not positive. -/
theorem bounded (sc : Scene) (obs : Observer σ) :
    Keeps sc obs fun p q => (p.count : Int) ≤ max sc.settings.maxObjects 0 →
      (q.count : Int) ≤ max sc.settings.maxObjects 0 where
  refl _ h := h
  trans hpq hqr h := hqr (hpq h)
  draw _ _ h := h
  place fr ref p f q h := by
    rcases place_eq_ok h with ⟨-, -, rfl⟩ | ⟨-, -, -, rfl⟩ | ⟨hlt, -, w, tw, stop, -, -, rfl⟩
    · exact id
    · exact id
    · -- an object is shown only below the limit
      intro _
      push_cast
      omega

/-- Placing an object under the limit `k` truncates placing it under a limit the first walk
does not reach: below `k` both place alike, and the second stops once its count reaches
`k`, or at once when `k` is not positive. -/
theorem place_truncates_limit {G : Progress σ → Progress σ → Prop} (hG : Keeps sc obs G) (k : Int)
    (fr : Frame) (ref : Reference) {p : Progress σ} (hp : (p.count : Int) ≤ max k 0) :
    Truncates (fun q => (q.count : Int) ≤ max k 0) (fun q₂ q₁ => G q₂ q₁ ∧ q₂.count = k.toNat)
      (fun q => (q.count : Int) < sc.settings.maxObjects)
      (place sc obs fr ref p) (place (sc.withObjectLimit k) obs fr ref p) := by
  intro f q₁ h hq
  have hG₁ := hG.place fr ref p f q₁ h
  by_cases hk : (p.count : Int) ≥ k
  · -- the second walk is at its limit: it stops where the first goes on
    have hstop : place (sc.withObjectLimit k) obs fr ref p = .ok (.stop, p) := place_of_limit hk
    exact .inr ⟨p, hstop, hG₁, by omega⟩
  rcases place_eq_ok h with ⟨hmax, -, rfl⟩ | ⟨-, hadm, rfl, rfl⟩ | ⟨-, hadm, w, tw, stop, hs, rfl, rfl⟩
  · -- the first walk never stops at its own limit
    exact absurd hq (by omega)
  · exact .inl ⟨place_of_unfit hk hadm, hp⟩
  · -- the object is shown alike; the second walk stops when its count reaches `k`
    have hM : ¬((p.count + 1 : Nat) : Int) ≥ sc.settings.maxObjects := by
      simp only at hq
      omega
    have hk₂ : ¬(p.count : Int) ≥ (sc.withObjectLimit k).settings.maxObjects := hk
    have hadm₂ : (sc.withObjectLimit k).admits fr.transform = .ok true := hadm
    rw [place_of_seen hk₂ hadm₂ hs, Scene.maxObjects_withObjectLimit]
    by_cases hst : (p.stopped || stop) = true
    · simp only [hst, ↓reduceIte]
      refine .inl ⟨trivial, ?_⟩
      show ((p.count + 1 : Nat) : Int) ≤ max k 0
      omega
    · by_cases hk' : ((p.count + 1 : Nat) : Int) ≥ k
      · simp only [hst, hM, hk', Bool.false_eq_true, ↓reduceIte]
        refine .inr ⟨_, rfl, hG.refl _, ?_⟩
        show p.count + 1 = k.toNat
        omega
      · simp only [hst, hM, hk', Bool.false_eq_true, ↓reduceIte]
        refine .inl ⟨trivial, ?_⟩
        show ((p.count + 1 : Nat) : Int) ≤ max k 0
        omega

/-- Placing an object with an observer that also stops at its `j`-th object truncates placing
it with the observer alone: the objects before the `j`-th are placed alike, and the second walk
stops at the `j`-th, which the first walk may go past. -/
theorem place_truncates_stopping {G : Progress σ → Progress σ → Prop}
    (hstop : ∀ q : Progress σ, G { q with stopped := true } q) (j : Nat) (fr : Frame)
    (ref : Reference) {p : Progress σ} (hp : p.count < j) :
    Truncates (fun q => q.count < j) (fun q₂ q₁ => G q₂ q₁ ∧ q₂.count = j) (fun _ => True)
      (place sc obs fr ref p) (place sc (obs.stoppingAt j) fr ref p) := by
  intro f q₁ h _
  rcases place_eq_ok h with ⟨hmax, rfl, rfl⟩ | ⟨hmax, hadm, rfl, rfl⟩ |
    ⟨hmax, hadm, w, tw, stop, hs, rfl, rfl⟩
  · exact .inl ⟨place_of_limit hmax, hp⟩
  · exact .inl ⟨place_of_unfit hmax hadm, hp⟩
  · have hs₂ : (obs.stoppingAt j).see p.watch
        ⟨ref.label, ref.param, ref.option, fr.transform, fr.paint, p.count + 1⟩ p.twister =
          .ok (w, tw, stop || p.count + 1 == j) := by
      simp only [Observer.stoppingAt, hs]
      rfl
    rw [place_of_seen hmax hadm hs₂]
    by_cases hj : p.count + 1 = j
    · -- the `j`-th object: the second walk stops here, marked stopped
      subst hj
      simp only [beq_self_eq_true, Bool.or_true, ↓reduceIte]
      exact .inr ⟨_, rfl, hstop ⟨tw, p.count + 1, p.stopped || stop, w⟩, rfl⟩
    · have hj' : (p.count + 1 == j) = false := by simpa using hj
      simp only [hj', Bool.or_false]
      exact .inl ⟨trivial, by omega⟩

/-- A walk from an empty log at count zero logs one call for each object it counts. -/
theorem log_length {n : Nat} {fr : Frame} {i : Nat} {fb : Bool} {init : σ} {seed : Int} {f : Flow}
    {q : Progress (σ × List (Visit σ))}
    (h : rule sc obs.logged n fr i fb (begin (init, []) seed) = .ok (f, q)) :
    q.watch.2.length = q.count := by
  obtain ⟨-, new, hlog, hlen⟩ := rule_keeps (grows_logged sc obs) n fr i fb _ f q h
  simp only [begin, List.nil_append, Nat.sub_zero] at hlog hlen
  rw [hlog, hlen]

end Walk

namespace InPlace

variable {σ : Type} (sc : Scene) (obs : Observer σ) (init : σ) (seed : Int)

theorem fuelFor_withObjectLimit (k : Int) : Walk.fuelFor (sc.withObjectLimit k) = Walk.fuelFor sc :=
  rfl

/-- The run of a build is its walk from the start, logged or not. -/
theorem walk_of_run {q : Progress σ} (h : run sc obs init seed = .ok q) :
    ∃ f, Walk.rule sc obs (Walk.fuelFor sc) Walk.start 0 true (Walk.begin init seed) = .ok (f, q) := by
  rw [run_eq_walk] at h
  cases h₁ : Walk.rule sc obs (Walk.fuelFor sc) Walk.start 0 true (Walk.begin init seed) with
  | error e =>
    rw [h₁] at h
    cases h
  | ok r =>
    rw [h₁] at h
    cases h
    exact ⟨r.1, rfl⟩

theorem run_of_walk {f : Flow} {q : Progress σ}
    (h : Walk.rule sc obs (Walk.fuelFor sc) Walk.start 0 true (Walk.begin init seed) = .ok (f, q)) :
    run sc obs init seed = .ok q := by
  rw [run_eq_walk, h]
  rfl

/-- A build logs one call for each object it counts. -/
theorem run_log_length {q : Progress (σ × List (Visit σ))}
    (h : run sc obs.logged (init, []) seed = .ok q) : q.watch.2.length = q.count := by
  obtain ⟨f, h₁⟩ := walk_of_run sc obs.logged (init, []) seed h
  exact Walk.log_length h₁

/-- No build counts more objects than its limit, or than zero. -/
theorem run_count_le {q : Progress σ} (h : run sc obs init seed = .ok q) :
    (q.count : Int) ≤ max sc.settings.maxObjects 0 := by
  obtain ⟨f, h₁⟩ := walk_of_run sc obs init seed h
  have hstart : ((Walk.begin init seed).count : Int) ≤ max sc.settings.maxObjects 0 := by
    simp only [Walk.begin]
    omega
  exact Walk.rule_keeps (Walk.bounded sc obs) _ _ _ _ _ f q h₁ hstart

/-- A build that places `N` objects below its limit, run again with any limit `k`, ends too
and calls its observer exactly on the first `min k N` of those objects. -/
theorem run_limit_prefix {q : Progress (σ × List (Visit σ))}
    (h : run sc obs.logged (init, []) seed = .ok q) (hq : (q.count : Int) < sc.settings.maxObjects)
    (k : Int) :
    ∃ q', run (sc.withObjectLimit k) obs.logged (init, []) seed = .ok q' ∧
      q'.watch.2 = q.watch.2.take (min k.toNat q.count) ∧ q'.count = min k.toNat q.count := by
  obtain ⟨f, h₁⟩ := walk_of_run sc obs.logged (init, []) seed h
  have hG := Walk.grows_logged sc obs
  have hL : Walk.CutLaws sc obs.logged Walk.Grows (fun q => (q.count : Int) ≤ max k 0)
      (fun q₂ q₁ => Walk.Grows q₂ q₁ ∧ q₂.count = k.toNat)
      (fun q => (q.count : Int) < sc.settings.maxObjects) :=
    ⟨hG, fun ⟨hg, hc⟩ hg' => ⟨hG.trans hg hg', hc⟩, fun hg hf => by have := hg.1; omega,
      fun _ _ hp => hp⟩
  have hstart : ((Walk.begin (init, ([] : List (Visit σ))) seed).count : Int) ≤ max k 0 := by
    simp only [Walk.begin]
    omega
  rcases Walk.rule_truncates hL (Walk.place_truncates_limit hG k) _ Walk.start 0 true _ hstart f q
    h₁ hq with ⟨h₂, hpre⟩ | ⟨q₂, h₂, ⟨hle, new, hlog, -⟩, hc⟩
  · -- never cut: the same build, which counts no more than `k`
    refine ⟨q, run_of_walk _ _ _ _ h₂, ?_, ?_⟩
    · have hmin : min k.toNat q.count = q.count := by omega
      rw [hmin, ← Walk.log_length h₁, List.take_length]
    · omega
  · -- cut where its count reached `k`: the calls so far are the first `k` of the build's
    refine ⟨q₂, run_of_walk _ _ _ _ h₂, ?_, ?_⟩
    · have hmin : min k.toNat q.count = q₂.watch.2.length := by
        rw [Walk.log_length h₂]
        omega
      rw [hmin, hlog, List.take_left]
    · omega

/-- An observer that also asks to stop at its `j`-th object is called exactly on the first `j`
calls of the build without that request, or on all of them when there are fewer. -/
theorem run_stopping_prefix {q : Progress (σ × List (Visit σ))}
    (h : run sc obs.logged (init, []) seed = .ok q) {j : Nat} (hj : 0 < j) :
    ∃ q', run sc (obs.stoppingAt j).logged (init, []) seed = .ok q' ∧
      q'.watch.2 = q.watch.2.take j ∧ q'.count = min j q.count := by
  obtain ⟨f, h₁⟩ := walk_of_run sc obs.logged (init, []) seed h
  have hG := Walk.grows_logged sc obs
  have hL : Walk.CutLaws sc obs.logged Walk.Grows (fun q => q.count < j)
      (fun q₂ q₁ => Walk.Grows q₂ q₁ ∧ q₂.count = j) (fun _ => True) :=
    ⟨hG, fun ⟨hg, hc⟩ hg' => ⟨hG.trans hg hg', hc⟩, fun _ _ => trivial, fun _ _ hp => hp⟩
  -- the scene is its own with its own limit, so only the observers differ
  have hplace : ∀ (fr : Frame) ref (p : Progress (σ × List (Visit σ))), p.count < j →
      Walk.Truncates (fun q => q.count < j) (fun q₂ q₁ => Walk.Grows q₂ q₁ ∧ q₂.count = j)
        (fun _ => True) (Walk.place sc obs.logged fr ref p)
        (Walk.place (sc.withObjectLimit sc.settings.maxObjects) (obs.logged.stoppingAt j) fr ref p) :=
    fun fr ref _ hp => Walk.place_truncates_stopping Walk.grows_stopped j fr ref hp
  rcases Walk.rule_truncates hL hplace _ Walk.start 0 true _ hj f q h₁ trivial
    with ⟨h₂, hpre⟩ | ⟨q₂, h₂, ⟨hle, new, hlog, -⟩, hc⟩
  all_goals rw [Scene.withObjectLimit_maxObjects, ← Observer.logged_stoppingAt] at h₂
  · -- never cut: the same build, with fewer than `j` objects
    refine ⟨q, run_of_walk _ _ _ _ h₂, ?_, by omega⟩
    rw [List.take_of_length_le (by rw [Walk.log_length h₁]; omega)]
  · -- cut at the `j`-th object
    refine ⟨q₂, run_of_walk _ _ _ _ h₂, ?_, by omega⟩
    rw [hlog, List.take_left' (by rw [Walk.log_length h₂, hc])]

end InPlace

/-- The structure with another limit of objects. -/
def Structure.withObjectLimit (st : Structure) (k : Int) : Structure :=
  { st with settings := { st.settings with maxObjects := k } }

namespace Structure

/-- A build with another limit of objects walks the scene with that limit. -/
theorem build_withObjectLimit {σ : Type} (st : Structure) (k : Int) (obs : Observer σ) (init : σ) :
    (st.withObjectLimit k).build obs init =
      match st.grammar with
      | none => .error .notCompiled
      | some g => InPlace.run ((Scene.of g st.settings st.vars).withObjectLimit k) obs init
          st.buildSeed := rfl

variable {σ : Type} (st : Structure) (obs : Observer σ) (init : σ)

/-- **A build cut short shows a prefix of the build.** Take a structure and an observer, and
log the observer's calls.

* When a build places `N` objects below its limit of objects `M`, it logs one call per
  object, and the same build with any limit `k` ends too, having called the observer
  exactly on the first `min k N` of those objects, each with the same observer state,
  object (label, option, parameter, transform, paint and count) and generator, and on no
  other.
* An observer that also asks to stop at its `j`-th object is called exactly on the first
  `j` calls of the build without that request, or on all of them when there are fewer: the
  build ends right after that object, however deep in rules, repeats and fallbacks.
* No build counts more objects than its limit, or than zero. -/
theorem limit_cuts_build_to_prefix :
    (∀ (M : Int) (q : Progress (σ × List (Visit σ))),
      (st.withObjectLimit M).build obs.logged (init, []) = .ok q → (q.count : Int) < M →
        q.watch.2.length = q.count ∧
        ∀ k : Int, ∃ q', (st.withObjectLimit k).build obs.logged (init, []) = .ok q' ∧
          q'.watch.2 = q.watch.2.take (min k.toNat q.count) ∧ q'.count = min k.toNat q.count) ∧
    (∀ q : Progress (σ × List (Visit σ)), st.build obs.logged (init, []) = .ok q →
      ∀ j : Nat, 0 < j → ∃ q', st.build (obs.stoppingAt j).logged (init, []) = .ok q' ∧
        q'.watch.2 = q.watch.2.take j ∧ q'.count = min j q.count) ∧
    (∀ q : Progress σ, st.build obs init = .ok q → (q.count : Int) ≤ max st.settings.maxObjects 0) := by
  refine ⟨fun M q h hq => ?_, fun q h j hj => ?_, fun q h => ?_⟩
  · rw [build_withObjectLimit] at h
    cases hg : st.grammar with
    | none =>
      rw [hg] at h
      cases h
    | some g =>
      rw [hg] at h
      refine ⟨InPlace.run_log_length _ _ _ _ h, fun k => ?_⟩
      rw [build_withObjectLimit, hg]
      have hcut := InPlace.run_limit_prefix _ obs init st.buildSeed h hq k
      rwa [Scene.withObjectLimit_withObjectLimit] at hcut
  · unfold build at h ⊢
    cases hg : st.grammar with
    | none =>
      rw [hg] at h
      cases h
    | some g =>
      rw [hg] at h
      exact InPlace.run_stopping_prefix _ _ _ _ h hj
  · unfold build at h
    cases hg : st.grammar with
    | none =>
      rw [hg] at h
      cases h
    | some g =>
      rw [hg] at h
      exact InPlace.run_count_le _ _ _ _ h

end Structure

end ShapeGrammar
