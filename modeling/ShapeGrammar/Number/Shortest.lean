import ShapeGrammar.Number.Binary
/-!
# Decimal digits of a double

Two ways of choosing the digits that stand for a double.

* `Binary.shortest` takes the fewest significant digits that read back as the same
  double, and of two such candidates the nearer one (an exact tie goes to the even
  digit string). A decimal reads back when it lies in the interval of reals that round
  to the double: from the midpoint with the neighbour below to the midpoint with the
  neighbour above, ends included exactly when the mantissa is even (`Binary.readsBack`).
* `Binary.rounded` rounds the exact value to a fixed number of significant digits,
  ties to even.

Both return a `Decimal`, `digits * 10 ^ exp`, with trailing zeros moved into the
exponent; `Decimal.leading` is the exponent of its leading digit.
-/

namespace ShapeGrammar

/-- `digits * 10 ^ exp`. -/
structure Decimal where
  digits : Nat
  exp : Int
deriving Repr, DecidableEq

namespace Decimal

/-- The digit string of the digits, without sign. -/
def digitText (d : Decimal) : String := toString d.digits

/-- Trailing zeros of the digits move into the exponent; at most `fuel` of them. -/
def stripZeros : Nat → Decimal → Decimal
  | 0, d => d
  | fuel + 1, d =>
    if d.digits != 0 && d.digits % 10 == 0 then stripZeros fuel ⟨d.digits / 10, d.exp + 1⟩
    else d

/-- All trailing zeros of the digits moved into the exponent (there are fewer of them than
digits). -/
def normalize (d : Decimal) : Decimal := stripZeros d.digitText.length d

/-- Exponent of the leading digit: the value lies in `[10 ^ leading, 10 ^ (leading + 1))`. -/
def leading (d : Decimal) : Int := d.exp + (d.digitText.length : Int) - 1

end Decimal

namespace Binary

/-- The decimal `d` lies among the reals that round to `x` (to nearest, ties to even). -/
def readsBack (x : Binary) (d : Decimal) : Bool :=
  let lo := if x.narrowBelow then 4 * x.mantissa - 1 else 4 * x.mantissa - 2
  let hi := 4 * x.mantissa + 2
  let incl := x.mantissa % 2 == 0
  let cl := Binary.cmpScaled d.digits d.exp lo (x.exponent - 2)
  let ch := Binary.cmpScaled d.digits d.exp hi (x.exponent - 2)
  (cl == .gt || (incl && cl == .eq)) && (ch == .lt || (incl && ch == .eq))

/-- The least `k` with value `< 10 ^ k`, searched upward from a lower estimate taken from
the binary logarithm. The estimate is never more than two too small, and the search is
given more room than that. -/
def decimalScale (x : Binary) : Int :=
  let est : Int := ((Nat.log2 x.mantissa : Int) + x.exponent) * 30103 / 100000 - 2
  let ks := (List.range 8).map (fun i : Nat => est + (i : Int))
  (ks.find? fun k => x.cmpDecimal 1 k == .lt).getD (est + 8)

/-- `⌊value / 10 ^ g⌋`, exactly. -/
def divPow10 (x : Binary) (g : Int) : Nat :=
  let num := x.mantissa * Nat.pow 2 x.exponent.toNat * Nat.pow 10 (-g).toNat
  let den := Nat.pow 2 (-x.exponent).toNat * Nat.pow 10 g.toNat
  num / den

/-- Compare the value with the midpoint of `lo * 10 ^ g` and `(lo + 1) * 10 ^ g`: twice the
value against `(2 lo + 1) * 10 ^ g`. -/
def cmpMidpoint (x : Binary) (lo : Nat) (g : Int) : Ordering :=
  (Binary.cmpScaled (2 * lo + 1) g (2 * x.mantissa) x.exponent).swap

/-- The nearer of the two neighbours on the grid `10 ^ g`; an exact tie goes to the
even one. -/
def nearestOnGrid (x : Binary) (g : Int) : Nat :=
  let lo := x.divPow10 g
  match x.cmpMidpoint lo g with
  | .lt => lo
  | .gt => lo + 1
  | .eq => if lo % 2 == 0 then lo else lo + 1

/-- The readable candidate with `n` significant digits, if any: one of the two neighbours
of the value on the grid of `n` digits, the nearer one when both read back. -/
def candidate (x : Binary) (k : Int) (n : Nat) : Option Decimal :=
  let g := k - n
  let lo := x.divPow10 g
  let a : Decimal := ⟨lo, g⟩
  let b : Decimal := ⟨lo + 1, g⟩
  match x.readsBack a, x.readsBack b with
  | true, true => some ⟨x.nearestOnGrid g, g⟩
  | true, false => some a
  | false, true => some b
  | false, false => none

/-- The exact decimal value `mantissa * 2 ^ exponent`, a fallback that is never reached for
a double: seventeen digits always read back. -/
def exactDecimal (x : Binary) : Decimal :=
  if 0 ≤ x.exponent then ⟨x.mantissa * Nat.pow 2 x.exponent.toNat, 0⟩
  else ⟨x.mantissa * Nat.pow 5 (-x.exponent).toNat, x.exponent⟩

/-- The shortest decimal that reads back as the non-zero value `x`, the nearest of
those, with trailing zeros stripped. Zero gives `0 * 10 ^ 0`. -/
def shortest (x : Binary) : Decimal :=
  if x.isZero then ⟨0, 0⟩
  else
    let k := x.decimalScale
    let d := ((List.range 17).findSome? fun i => x.candidate k (i + 1)).getD x.exactDecimal
    d.normalize

/-- The value rounded to `n` significant digits (`n ≥ 1`), ties to even, with trailing
zeros stripped. Zero gives `0 * 10 ^ 0`. -/
def rounded (x : Binary) (n : Nat) : Decimal :=
  if x.isZero then ⟨0, 0⟩
  else
    let k := x.decimalScale
    let g := k - n
    Decimal.normalize ⟨x.nearestOnGrid g, g⟩

end Binary

end ShapeGrammar
