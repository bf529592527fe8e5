import ShapeGrammar.Delta.Basic
import Mathlib.LinearAlgebra.Matrix.Determinant.Basic
import Mathlib.Algebra.Order.Ring.Abs
import Mathlib.Logic.Function.Iterate
/-!
# Volumes of composed transforms

The size filter measures a placed object by the volume factor of its transform: the
absolute determinant of the upper-left 3×3 block (`Transform.det3`, which evaluates
`Transform.blockDet` on the entries). A build composes transforms on the right, one delta
after another, and each entry of a product is `Transform.productEntry` of the factors'
entries (`Transform.get_mul`); so the filter relies on the volume factor being
multiplicative.

This file reads the two formulas in exact arithmetic, over any commutative ring. A right
factor is *affine* when its bottom row is `0 0 0 1`, as it is for every transform a
constructor builds. Then the 3×3 block of a product is the product of the blocks
(`block_productEntry`), so the determinant is multiplicative (`blockDet_productEntry`), and
a product of affine factors is affine again (`IsAffine.productEntry`). Hence `n`
applications of one affine delta multiply the volume factor by the delta's own factor
`n` times (`blockDet_iterate`, `volume_factor_multiplicative`).

Every constructor stores the bottom row `0 0 0 1` as doubles (`Transform.Affine`:
`identity_affine`, `offset_affine`, `scale_affine`, `rotationX_affine` and its two siblings,
`linear_affine`, `ofBlock_affine`), and any reading of the doubles that takes `0.0` to `0`
and `1.0` to `1` makes affine entries of them (`Affine.isAffine`). A chain of such factors
read in exact arithmetic (`exactChain`) is affine, and its volume factor is the product of
the factors' (`exactChain_affine`). The products of doubles themselves are not read: a zero
times an infinite double is NaN, so the stored bottom row of a product need not be `0 0 0 1`.
-/

namespace ShapeGrammar

namespace Transform

variable {R : Type} [CommRing R]

/-- Row-major 4×4 entries whose bottom row is `0 0 0 1`: an affine transform. -/
structure IsAffine (e : Nat → R) : Prop where
  bottom₀ : e 12 = 0
  bottom₁ : e 13 = 0
  bottom₂ : e 14 = 0
  corner : e 15 = 1

theorem IsAffine.bottom {e : Nat → R} (h : IsAffine e) {c : Nat} (hc : c < 3) :
    e (12 + c) = 0 :=
  match c, hc with
  | 0, _ => h.bottom₀
  | 1, _ => h.bottom₁
  | 2, _ => h.bottom₂

/-- The upper-left 3×3 block of row-major 4×4 entries. -/
def block (e : Nat → R) : Matrix (Fin 3) (Fin 3) R := Matrix.of fun r c => e (4 * r + c)

theorem blockDet_eq_det (e : Nat → R) : blockDet e = (block e).det := by
  simp [blockDet, block, Matrix.det_fin_three]
  ring

/-- The product formula at row `r` and column `c`. -/
theorem productEntry_row (a b : Nat → R) (r : Nat) {c : Nat} (hc : c < 4) :
    productEntry a b (4 * r + c) = a (4 * r) * b c + a (4 * r + 1) * b (4 + c)
      + a (4 * r + 2) * b (8 + c) + a (4 * r + 3) * b (12 + c) := by
  have hr : (4 * r + c) / 4 = r := by omega
  have hc' : (4 * r + c) % 4 = c := by omega
  simp only [productEntry, hr, hc']

/-- **With an affine right factor, the block of a product is the product of the blocks**:
the fourth column of the left factor meets only the zeros of the right one's bottom row. -/
theorem block_productEntry (a : Nat → R) {b : Nat → R} (hb : IsAffine b) :
    block (productEntry a b) = block a * block b := by
  ext r c
  rw [Matrix.mul_apply, Fin.sum_univ_three]
  simp only [block, Matrix.of_apply, productEntry_row a b r (by omega : (c : Nat) < 4),
    hb.bottom c.isLt, mul_zero, add_zero]
  simp [add_comm]

/-- **The block determinant is multiplicative when the right factor is affine.** -/
theorem blockDet_productEntry (a : Nat → R) {b : Nat → R} (hb : IsAffine b) :
    blockDet (productEntry a b) = blockDet a * blockDet b := by
  rw [blockDet_eq_det, block_productEntry a hb, Matrix.det_mul, ← blockDet_eq_det,
    ← blockDet_eq_det]

/-- An affine left factor passes the right factor's bottom row through. -/
theorem productEntry_bottom {a : Nat → R} (ha : IsAffine a) (b : Nat → R) {c : Nat}
    (hc : c < 4) : productEntry a b (12 + c) = b (12 + c) := by
  have h := productEntry_row a b 3 hc
  simp only [Nat.reduceMul, Nat.reduceAdd] at h
  rw [h, ha.bottom₀, ha.bottom₁, ha.bottom₂, ha.corner]
  ring

/-- **A product of affine factors is affine.** -/
theorem IsAffine.productEntry {a b : Nat → R} (ha : IsAffine a) (hb : IsAffine b) :
    IsAffine (Transform.productEntry a b) :=
  ⟨(productEntry_bottom ha b (c := 0) (by omega)).trans hb.bottom₀,
    (productEntry_bottom ha b (c := 1) (by omega)).trans hb.bottom₁,
    (productEntry_bottom ha b (c := 2) (by omega)).trans hb.bottom₂,
    (productEntry_bottom ha b (c := 3) (by omega)).trans hb.corner⟩

/-- `n` applications of an affine delta `d` multiply the block determinant by its own
`n` times. -/
theorem blockDet_iterate (m : Nat → R) {d : Nat → R} (hd : IsAffine d) (n : Nat) :
    blockDet ((productEntry · d)^[n] m) = blockDet m * blockDet d ^ n := by
  induction n with
  | zero => simp
  | succ n ih =>
    rw [Function.iterate_succ_apply', blockDet_productEntry _ hd, ih, pow_succ, mul_assoc]

/-- **The volume factor of the size filter is multiplicative, in exact arithmetic.** For
entries `a` and affine entries `b` over an ordered commutative ring, the block determinant
of the product `a * b` is the product of the block determinants; the product is affine
whenever `a` is; and after `n` applications of the delta `b` to the transform `a`, the
volume factor is that of `a` times that of `b` to the `n`-th power. -/
theorem volume_factor_multiplicative {R : Type} [CommRing R] [LinearOrder R]
    [IsStrictOrderedRing R] (a : Nat → R) {b : Nat → R} (hb : IsAffine b) :
    blockDet (productEntry a b) = blockDet a * blockDet b ∧
      (IsAffine a → IsAffine (productEntry a b)) ∧
      ∀ n : Nat, |blockDet ((productEntry · b)^[n] a)| = |blockDet a| * |blockDet b| ^ n := by
  refine ⟨blockDet_productEntry a hb, fun ha => ha.productEntry hb, fun n => ?_⟩
  rw [blockDet_iterate a hb n, abs_mul, abs_pow]

/-- Doubling the first axis, read in the integers, is affine; composed onto itself it
doubles the volume factor each time. -/
theorem doubling_volume_factor :
    IsAffine (fun i : Nat => if i = 0 then (2 : ℤ) else if i % 5 = 0 then 1 else 0) ∧
      (blockDet (productEntry (fun i : Nat => if i = 0 then (2 : ℤ) else if i % 5 = 0 then 1 else 0)
          (fun i : Nat => if i = 0 then (2 : ℤ) else if i % 5 = 0 then 1 else 0)) =
        blockDet (fun i : Nat => if i = 0 then (2 : ℤ) else if i % 5 = 0 then 1 else 0) *
          blockDet (fun i : Nat => if i = 0 then (2 : ℤ) else if i % 5 = 0 then 1 else 0) ∧
      (IsAffine (fun i : Nat => if i = 0 then (2 : ℤ) else if i % 5 = 0 then 1 else 0) →
        IsAffine (productEntry (fun i : Nat => if i = 0 then (2 : ℤ) else if i % 5 = 0 then 1 else 0)
          (fun i : Nat => if i = 0 then (2 : ℤ) else if i % 5 = 0 then 1 else 0))) ∧
      ∀ n : Nat, |blockDet ((productEntry · (fun i : Nat => if i = 0 then (2 : ℤ)
          else if i % 5 = 0 then 1 else 0))^[n]
          (fun i : Nat => if i = 0 then (2 : ℤ) else if i % 5 = 0 then 1 else 0))| =
        |blockDet (fun i : Nat => if i = 0 then (2 : ℤ) else if i % 5 = 0 then 1 else 0)| *
          |blockDet (fun i : Nat => if i = 0 then (2 : ℤ) else if i % 5 = 0 then 1 else 0)| ^ n) := by
  have h : IsAffine (fun i : Nat => if i = 0 then (2 : ℤ) else if i % 5 = 0 then 1 else 0) :=
    ⟨by decide, by decide, by decide, by decide⟩
  exact ⟨h, volume_factor_multiplicative _ h⟩

/-! ## The constructors build affine transforms -/

/-- The bottom row of a transform, as stored doubles, is `0 0 0 1`. -/
structure Affine (t : Transform) : Prop where
  bottom₀ : t.get 12 = 0.0
  bottom₁ : t.get 13 = 0.0
  bottom₂ : t.get 14 = 0.0
  corner : t.get 15 = 1.0

/-- **An affine transform has affine entries in exact arithmetic**, for any reading of the
doubles that takes `0.0` to `0` and `1.0` to `1`. -/
theorem Affine.isAffine {t : Transform} (h : t.Affine) {φ : Float → R} (h0 : φ 0.0 = 0)
    (h1 : φ 1.0 = 1) : IsAffine fun i => φ (t.get i) :=
  ⟨by simp only [h.bottom₀, h0], by simp only [h.bottom₁, h0], by simp only [h.bottom₂, h0],
    by simp only [h.corner, h1]⟩

theorem get_ofFn (f : Fin 16 → Float) (i : Nat) :
    (ofFn f).get i = f ⟨i % 16, Nat.mod_lt i (by decide)⟩ :=
  Vector.getElem_ofFn (Nat.mod_lt i (by decide))

theorem ofFn_affine {f : Fin 16 → Float} (h₁₂ : f 12 = 0.0) (h₁₃ : f 13 = 0.0)
    (h₁₄ : f 14 = 0.0) (h₁₅ : f 15 = 1.0) : (ofFn f).Affine :=
  ⟨(get_ofFn f 12).trans h₁₂, (get_ofFn f 13).trans h₁₃, (get_ofFn f 14).trans h₁₄,
    (get_ofFn f 15).trans h₁₅⟩

theorem identity_affine : identity.Affine := ofFn_affine rfl rfl rfl rfl

theorem offset_affine (x y z : Float) : (offset x y z).Affine := ofFn_affine rfl rfl rfl rfl

theorem scale_affine (x y z : Float) : (scale x y z).Affine := ofFn_affine rfl rfl rfl rfl

theorem linear_affine (m : Fin 9 → Float) : (linear m).Affine := ofFn_affine rfl rfl rfl rfl

/-- A transform built from the cosine and sine of an angle, affine for every pair, is affine. -/
theorem affine_of_turn {θ : Float} {k : Float × Float → Except Fault Transform} {t : Transform}
    (h : (turn θ >>= k) = .ok t) (hk : ∀ c s t, k (c, s) = .ok t → t.Affine) : t.Affine := by
  cases hturn : turn θ with
  | error f =>
    rw [hturn] at h
    cases h
  | ok cs =>
    rw [hturn] at h
    exact hk cs.1 cs.2 t h

theorem rotationX_affine {θ : Float} {t : Transform} (h : rotationX θ = .ok t) : t.Affine :=
  affine_of_turn h fun _ _ _ hk => Except.ok.inj hk ▸ ofFn_affine rfl rfl rfl rfl

theorem rotationY_affine {θ : Float} {t : Transform} (h : rotationY θ = .ok t) : t.Affine :=
  affine_of_turn h fun _ _ _ hk => Except.ok.inj hk ▸ ofFn_affine rfl rfl rfl rfl

theorem rotationZ_affine {θ : Float} {t : Transform} (h : rotationZ θ = .ok t) : t.Affine :=
  affine_of_turn h fun _ _ _ hk => Except.ok.inj hk ▸ ofFn_affine rfl rfl rfl rfl

theorem ofBlock_affine {xs : List Float} {t : Transform} (h : ofBlock xs = .ok t) : t.Affine := by
  unfold ofBlock at h
  cases hx : Fault.exactly 9 xs with
  | error f =>
    rw [hx] at h
    cases h
  | ok ys =>
    rw [hx] at h
    exact Except.ok.inj h ▸ linear_affine _

/-! ## Chains of affine factors -/

/-- The entries of a chain of transforms composed on the right onto the entries `e`, each
factor read by `φ` and each product taken by the product formula in exact arithmetic: the
exact counterpart of `fs.foldl (· * ·) t`. -/
def exactChain (φ : Float → R) (e : Nat → R) (fs : List Transform) : Nat → R :=
  fs.foldl (fun acc t => productEntry acc fun i => φ (t.get i)) e

/-- **A chain of affine factors, in exact arithmetic, keeps affine entries affine, and
multiplies the volume factor by each factor's in turn.** -/
theorem exactChain_affine {φ : Float → R} (h0 : φ 0.0 = 0) (h1 : φ 1.0 = 1) :
    ∀ (fs : List Transform), (∀ t ∈ fs, t.Affine) → ∀ {e : Nat → R}, IsAffine e →
      IsAffine (exactChain φ e fs) ∧
        blockDet (exactChain φ e fs) = blockDet e * (fs.map fun t => blockDet fun i => φ (t.get i)).prod := by
  -- induction on the factors, the entries composed so far generalised
  intro fs
  induction fs with
  | nil => exact fun _ _ he => ⟨he, by simp [exactChain]⟩
  | cons t fs ih =>
    intro hfs e he
    have ht : IsAffine fun i => φ (t.get i) := (hfs t List.mem_cons_self).isAffine h0 h1
    obtain ⟨hchain, hdet⟩ := ih (fun t' h' => hfs t' (List.mem_cons_of_mem t h')) (he.productEntry ht)
    refine ⟨hchain, ?_⟩
    calc blockDet (exactChain φ e (t :: fs))
        = blockDet (productEntry e fun i => φ (t.get i)) *
            (fs.map fun t => blockDet fun i => φ (t.get i)).prod := hdet
      _ = blockDet e * ((t :: fs).map fun t => blockDet fun i => φ (t.get i)).prod := by
        rw [blockDet_productEntry e ht, List.map_cons, List.prod_cons, mul_assoc]

/-- The identity read in exact arithmetic has volume factor one. -/
theorem blockDet_identity {φ : Float → R} (h0 : φ 0.0 = 0) (h1 : φ 1.0 = 1) :
    blockDet (fun i => φ (identity.get i)) = 1 := by
  simp [blockDet, identity, get_ofFn, h0, h1]

end Transform

end ShapeGrammar
