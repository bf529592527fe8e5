import ShapeGrammar.Fault
/-!
# Transforms

A `Transform` is a 4×4 homogeneous matrix stored row by row, the offset in
entries 3, 7 and 11. Composition `a * b` applies `b` to points first; every entry of
the product is the sum `a r0 * b 0c + a r1 * b 1c + a r2 * b 2c + a r3 * b 3c`, added
left to right, so products are reproducible to the last bit.

The size of a placed object is measured by `Transform.det3`, the absolute
determinant of the upper-left 3×3 block: the factor by which the transform scales
volumes.
-/

namespace ShapeGrammar

/-- A 4×4 matrix of doubles, row by row. -/
structure Transform where
  entries : Vector Float 16

namespace Transform

/-- Entry `i` of the row-major layout (`i` is taken modulo 16). -/
def get (t : Transform) (i : Nat) : Float :=
  t.entries.get ⟨i % 16, Nat.mod_lt _ (by decide)⟩

/-- The transform with the given entries, row by row; `none` unless there are sixteen. -/
def ofList? (xs : List Float) : Option Transform :=
  if h : xs.length = 16 then some ⟨⟨xs.toArray, by simpa using h⟩⟩ else none

/-- The transform with the given entries, row by row; there must be sixteen. -/
def ofEntries (xs : List Float) : Except Fault Transform :=
  match ofList? xs with
  | some t => .ok t
  | none => .error (.entryCount xs.length)

/-- A transform from sixteen entries given as a function of the index. -/
def ofFn (f : Fin 16 → Float) : Transform := ⟨Vector.ofFn f⟩

/-- The entries, row by row. -/
def toList (t : Transform) : List Float := t.entries.toList

/-- The identity. -/
def identity : Transform :=
  ofFn fun i => if i.val % 5 == 0 then 1.0 else 0.0

/-- The move by `(x, y, z)`. -/
def offset (x y z : Float) : Transform :=
  ofFn fun i => match i.val with
    | 0 | 5 | 10 | 15 => 1.0
    | 3 => x | 7 => y | 11 => z
    | _ => 0.0

/-- The scaling by `x`, `y` and `z` along the axes. -/
def scale (x y z : Float) : Transform :=
  ofFn fun i => match i.val with
    | 0 => x | 5 => y | 10 => z | 15 => 1.0
    | _ => 0.0

/-- The cosine and sine of `θ` radians. An infinite angle has neither; a NaN angle gives
NaN for both. -/
def turn (θ : Float) : Except Fault (Float × Float) :=
  if θ.isInf then .error .infiniteAngle else .ok (Float.cos θ, Float.sin θ)

/-- The rotation by `θ` radians about the x axis. -/
def rotationX (θ : Float) : Except Fault Transform := do
  let (c, s) ← turn θ
  return ofFn fun i => match i.val with
    | 0 | 15 => 1.0
    | 5 => c | 6 => -s | 9 => s | 10 => c
    | _ => 0.0

/-- The rotation by `θ` radians about the y axis. -/
def rotationY (θ : Float) : Except Fault Transform := do
  let (c, s) ← turn θ
  return ofFn fun i => match i.val with
    | 5 | 15 => 1.0
    | 0 => c | 2 => s | 8 => -s | 10 => c
    | _ => 0.0

/-- The rotation by `θ` radians about the z axis. -/
def rotationZ (θ : Float) : Except Fault Transform := do
  let (c, s) ← turn θ
  return ofFn fun i => match i.val with
    | 10 | 15 => 1.0
    | 0 => c | 1 => -s | 4 => s | 5 => c
    | _ => 0.0

/-- The linear map with the 3×3 block `m`, given row by row, and no offset. -/
def linear (m : Fin 9 → Float) : Transform :=
  ofFn fun i =>
    let r := i.val / 4
    let c := i.val % 4
    if r < 3 && c < 3 then m ⟨(3 * r + c) % 9, Nat.mod_lt _ (by decide)⟩
    else if i.val == 15 then 1.0 else 0.0

/-- The linear map with the 3×3 block given row by row as a list; there must be nine
entries. -/
def ofBlock (xs : List Float) : Except Fault Transform := do
  let xs ← Fault.exactly 9 xs
  return linear fun i => xs.getD i.val 0.0

/-- Entry `i` of the product of two row-major 4×4 matrices given by their entries: row
`i / 4` of `a` against column `i % 4` of `b`, the four products added left to right. The
formula is stated for any numbers, so that it can also be read in exact arithmetic. -/
def productEntry {α : Type} [Add α] [Mul α] (a b : Nat → α) (i : Nat) : α :=
  let r := i / 4
  let c := i % 4
  a (4 * r) * b c + a (4 * r + 1) * b (4 + c)
    + a (4 * r + 2) * b (8 + c) + a (4 * r + 3) * b (12 + c)

/-- The determinant of the upper-left 3×3 block of row-major 4×4 entries, expanded along
the first row; stated for any numbers, as `productEntry` is. -/
def blockDet {α : Type} [Add α] [Sub α] [Mul α] (e : Nat → α) : α :=
  e 0 * (e 5 * e 10 - e 6 * e 9)
    - e 1 * (e 4 * e 10 - e 6 * e 8)
    + e 2 * (e 4 * e 9 - e 5 * e 8)

/-- The product `a * b`: `b` is applied first. -/
def mul (a b : Transform) : Transform :=
  ofFn fun i => productEntry a.get b.get i.val

instance : Mul Transform := ⟨mul⟩

/-- Each entry of a product is the product formula on the entries of the factors. -/
theorem get_mul (a b : Transform) (i : Nat) :
    (a * b).get i = productEntry a.get b.get (i % 16) :=
  Vector.getElem_ofFn (Nat.mod_lt i (by decide))

/-- The determinant of the upper-left 3×3 block, expanded along the first row. -/
def signedDet3 (t : Transform) : Float := blockDet t.get

/-- The volume factor of the transform: the absolute value of `signedDet3`. -/
def det3 (t : Transform) : Float := t.signedDet3.abs

/-- The offset column: where the transform takes the origin. -/
def offsetPart (t : Transform) : Float × Float × Float := (t.get 3, t.get 7, t.get 11)

/-- The homogeneous weight of a point under the transform. -/
def weight (t : Transform) (x y z : Float) : Float :=
  t.get 12 * x + t.get 13 * y + t.get 14 * z + t.get 15

/-- The image of a point, divided by its weight; a zero weight is a division by zero. -/
def applyToPoint (t : Transform) (x y z : Float) : Except Fault (Float × Float × Float) :=
  let w := t.weight x y z
  if w == 0 then .error .divisionByZero
  else
    let row (r : Nat) := t.get (4 * r) * x + t.get (4 * r + 1) * y + t.get (4 * r + 2) * z
      + t.get (4 * r + 3)
    .ok (row 0 / w, row 1 / w, row 2 / w)

/-- The four rows. -/
def rows (t : Transform) : List (List Float) :=
  (List.range 4).map fun r => (List.range 4).map fun c => t.get (4 * r + c)

/-- The entries column by column. -/
def columnMajor (t : Transform) : List Float :=
  (List.range 4).flatMap fun c => (List.range 4).map fun r => t.get (4 * r + c)

/-- Two doubles are close when equal, or, both finite, when their distance is at most
`tol` times the larger magnitude or at most `tol` itself. -/
def close (tol a b : Float) : Bool :=
  if a == b then true
  else if a.isInf || b.isInf then false
  else
    let d := (b - a).abs
    d <= (tol * b).abs || d <= (tol * a).abs || d <= tol

/-- Entry by entry, the two transforms are close; a negative tolerance is refused. -/
def isClose (tol : Float) (a b : Transform) : Except Fault Bool :=
  if tol < 0 then .error .negativeTolerance
  else .ok ((a.toList.zip b.toList).all fun (x, y) => close tol x y)

/-- Entry by entry equality of stored doubles. Where `shared i` holds, both sides store one
and the same double as entry `i`, and a stored double is equal to itself even when it is
NaN; elsewhere the doubles are compared, so a NaN entry is equal to nothing. -/
def sameEntries (shared : Nat → Bool) (a b : Transform) : Bool :=
  (List.range 16).all fun i => shared i || a.get i == b.get i

end Transform

end ShapeGrammar
