import Mathlib.Logic.Function.Iterate
import ShapeGrammar.Build.Walk
/-!
# Rejected objects and the rest of a body

An object whose size is out of range is not placed, and its walk ends with the flow `cut`:
drop the rest of the rule body. A body walks its chains in order and stops at the first
whose walk does not say to go on, so after a chain that ends with a cut nothing more of the
body is walked, whatever follows it, and after chains that go on it walks what follows
them (`body_append_of_more`).

But a chain does not end with every cut met inside it. A block is applied its count of
times, the rest of the chain walked after each application, and only a stop ends the
repetitions early: the flow of a block is that of its last repetition
(`repeated_ends_as_last`). So a chain ends as the last walk of its target ends, from the frame
that every block leaves after all its applications (`chain_ends_as_last_walk`). A rejection in
an earlier repetition is forgotten when a later one goes on, and the body goes on after the
chain (`body_after_chain`).
-/

namespace ShapeGrammar

namespace Frame

/-- The frame after one application of a delta. -/
def step (d : Delta) (fr : Frame) : Frame :=
  { fr with transform := (d.apply fr.transform fr.paint).1, paint := (d.apply fr.transform fr.paint).2 }

end Frame

namespace Scene

/-- The frame that the blocks of a chain leave when each in turn is applied its count of times,
or the fault of the first block whose delta cannot be read. -/
def frameAfter (sc : Scene) (fr : Frame) : List Block → Except Fault Frame
  | [] => .ok fr
  | b :: rest => do
    let d ← sc.deltaOf b
    sc.frameAfter (Nat.iterate (Frame.step d) b.count fr) rest

end Scene

namespace Walk

variable {σ : Type} (sc : Scene) (obs : Observer σ) (fuel : Nat)

/-- **A block's repetitions end as the last one does.** Unless the walk stops, the flow of the
repetitions is that of the last walk of the rest of the chain, from the frame the block leaves
after all its applications; a cut in an earlier repetition is forgotten. -/
theorem repeated_ends_as_last (d : Delta) (bs : List Block) (target : Option Reference) :
    ∀ (n : Nat) (fr : Frame) (last : Flow) (p q : Progress σ) (f : Flow),
      repeated sc obs fuel fr d bs target (n + 1) last p = .ok (f, q) → f ≠ .stop →
        ∃ p', chain sc obs fuel (Nat.iterate (Frame.step d) (n + 1) fr) bs target p' = .ok (f, q) := by
  intro n
  induction n with
  | zero =>
    intro fr last p q f h hf
    rw [repeated] at h
    dsimp only at h
    split at h
    · cases h
      exact absurd rfl hf
    · -- the only repetition is the last one
      rename_i flow p₁ _ hchain
      rw [repeated] at h
      cases h
      exact ⟨p, hchain⟩
    · cases h
  | succ n ih =>
    intro fr last p q f h hf
    rw [repeated] at h
    dsimp only at h
    split at h
    · cases h
      exact absurd rfl hf
    · -- the later repetitions start from the frame this one left
      obtain ⟨p', h'⟩ := ih _ _ _ _ _ h hf
      rw [Function.iterate_succ_apply]
      exact ⟨p', h'⟩
    · cases h

/-- **A chain ends as the last walk of its target.** Unless the walk stops, a chain whose blocks
are each applied at least once ends as its target's walk ends from the frame that all its
blocks leave. -/
theorem chain_ends_as_last_walk (ref : Reference) :
    ∀ (bs : List Block) (fr : Frame) (p q : Progress σ) (f : Flow),
      (∀ b ∈ bs, 0 < b.count) → chain sc obs fuel fr bs (some ref) p = .ok (f, q) → f ≠ .stop →
        ∃ fr' p', sc.frameAfter fr bs = .ok fr' ∧ reference sc obs fuel fr' ref p' = .ok (f, q) := by
  intro bs
  induction bs with
  | nil =>
    intro fr p q f _ h _
    rw [chain] at h
    exact ⟨fr, p, rfl, h⟩
  | cons b rest ih =>
    intro fr p q f hcount h hf
    rw [chain] at h
    split at h
    · cases h
    · rename_i d hd
      obtain ⟨n, hn⟩ := Nat.exists_eq_succ_of_ne_zero (Nat.pos_iff_ne_zero.mp (hcount b (by simp)))
      simp only [Option.isNone_some, Bool.and_false, Bool.false_eq_true, ↓reduceIte, hn] at h
      -- the last repetition of the block walks the rest of the chain from its last frame
      obtain ⟨p₁, h₁⟩ := repeated_ends_as_last sc obs fuel d rest (some ref) n fr .more p q f h hf
      obtain ⟨fr', p', hfr, href⟩ :=
        ih _ p₁ q f (fun b' hb' => hcount b' (List.mem_cons_of_mem b hb')) h₁ hf
      refine ⟨fr', p', ?_, href⟩
      simp only [Scene.frameAfter, hd, bind, Except.bind, hn]
      exact hfr

/-- **A body goes on from where the chains before went on.** Once the chains `pre` went on, the
walk of the body is the walk of what follows them, from the progress they left. -/
theorem body_append_of_more (fr : Frame) (cs : List Chain) :
    ∀ (pre : List Chain) (p p₁ : Progress σ),
      body sc obs fuel fr pre p = .ok (.more, p₁) →
        body sc obs fuel fr (pre ++ cs) p = body sc obs fuel fr cs p₁ := by
  intro pre
  induction pre with
  | nil =>
    intro p p₁ hpre
    rw [body] at hpre
    cases hpre
    rfl
  | cons c pre ih =>
    intro p p₁ hpre
    rw [body] at hpre
    rw [List.cons_append, body]
    split at hpre
    · rename_i p' _
      exact ih p' p₁ hpre
    · rename_i other hother
      -- a chain before that does not go on would have ended the body already
      rw [hpre] at hother
      exact absurd rfl (hother p₁)

/-- **A rejection ends the rest of a body only in the last repetition.** Take a body whose
chains before `c` went on, and whose chain `c`, each block applied at least once, ends with the
target `ref` and does not stop the build. Its flow is that of the last walk of `ref`, from the
frame all of `c`'s blocks leave. When that walk is a cut, for an object too small or too large,
nothing after `c` is walked; otherwise the body goes on after `c`, however many earlier
repetitions were cut. -/
theorem body_after_chain (fr : Frame) (pre post : List Chain) (blocks : List Block)
    (ref : Reference) (p p₁ q : Progress σ) (f : Flow)
    (hpre : body sc obs fuel fr pre p = .ok (.more, p₁))
    (hcount : ∀ b ∈ blocks, 0 < b.count)
    (hc : chain sc obs fuel fr blocks (some ref) p₁ = .ok (f, q)) (hf : f ≠ .stop) :
    (∃ fr' p', sc.frameAfter fr blocks = .ok fr' ∧ reference sc obs fuel fr' ref p' = .ok (f, q)) ∧
    body sc obs fuel fr (pre ++ ⟨blocks, some ref⟩ :: post) p =
      if f = .cut then .ok (.cut, q) else body sc obs fuel fr post q := by
  refine ⟨chain_ends_as_last_walk sc obs fuel ref blocks fr p₁ q f hcount hc hf, ?_⟩
  rw [body_append_of_more sc obs fuel fr _ pre p p₁ hpre, body]
  dsimp only
  rw [hc]
  cases f with
  | more => rfl
  | cut => rfl
  | stop => exact absurd rfl hf

/-- A block that doubles every axis, applied twice before a box, in a scene that admits volumes
between `27` and `10¹²`, the cubes of the least size `3` and of the default greatest size: the
first box, of volume `8`, is too small and its walk is a cut; the second, of volume `64`, is
placed, so the chain ends as that last walk and the body goes on after it, past the rejected
box. -/
theorem cut_box_forgotten_by_last_repetition :
    let sc : Scene := ⟨Grammar.empty, { minSize := 3.0 }, Variables.empty, .ok 27.0, .ok 1.0e12⟩
    let obs : Observer Unit := ⟨fun w _ tw => .ok (w, tw, false)⟩
    let d : Delta := { Delta.neutral with transform := Transform.scale 2.0 2.0 2.0 }
    let blocks : List Block := [⟨2, "s 2", d⟩]
    let ref : Reference := ⟨"box", none, none⟩
    let post : List Chain := [⟨[], some ⟨"box", none, none⟩⟩]
    reference sc obs 1 (Frame.step d start) ref (begin () 0) = .ok (.cut, begin () 0) ∧
      (∃ fr' p', sc.frameAfter start blocks = .ok fr' ∧
        reference sc obs 1 fr' ref p' = .ok (.more, { begin () 0 with count := 1 })) ∧
      body sc obs 1 start ([] ++ ⟨blocks, some ref⟩ :: post) (begin () 0) =
        body sc obs 1 start post { begin () 0 with count := 1 } := by
  intro sc obs d blocks ref post
  have hfind : ∀ tw, Grammar.empty.find 0 "box" tw = (none, tw) := fun _ => rfl
  -- the volumes after one and two doublings, against the two cubes
  have h₁ : ¬ ((27.0 : Float) < (Transform.identity * Transform.scale 2.0 2.0 2.0).det3) := by
    decide +kernel
  have h₂ : (27.0 : Float) <
      (Transform.identity * Transform.scale 2.0 2.0 2.0 * Transform.scale 2.0 2.0 2.0).det3 := by
    decide +kernel
  have h₃ : (Transform.identity * Transform.scale 2.0 2.0 2.0 * Transform.scale 2.0 2.0 2.0).det3 <
      1.0e12 := by
    decide +kernel
  have hcut : reference sc obs 1 (Frame.step d start) ref (begin () 0) = .ok (.cut, begin () 0) := by
    simp [reference, place, Scene.admits, Frame.step, Delta.apply, hfind, h₁, start, d, sc, ref,
      Delta.neutral, begin, bind, Except.bind, pure, Except.pure]
  have hc : chain sc obs 1 start blocks (some ref) (begin () 0) =
      .ok (.more, { begin () 0 with count := 1 }) := by
    simp [chain, repeated, reference, place, Scene.admits, Delta.apply, hfind, h₁, h₂, h₃, start, d,
      sc, obs, ref, blocks, Delta.neutral, Scene.deltaOf, begin, bind, Except.bind, pure, Except.pure]
  have hcount : ∀ b ∈ blocks, 0 < b.count := by
    intro b hb
    rw [List.mem_singleton] at hb
    rw [hb]
    decide
  obtain ⟨hlast, hbody⟩ := body_after_chain sc obs 1 start [] post blocks ref _ _ _ .more
    (by rw [body]) hcount hc (by decide)
  refine ⟨hcut, hlast, ?_⟩
  simpa using hbody

end Walk

end ShapeGrammar
