/-!
# Doubles as exact binary numbers

A finite double is `± mantissa * 2 ^ exponent` with a mantissa below `2 ^ 53`.
`Binary.ofFloat` reads that form off the bits, so that every operation that
must be exact — truncation to an integer, the floor, the remainder of a
division, the choice of printed digits — is done in `Nat` and `Int`
arithmetic and never through a rounded float operation.
-/

namespace ShapeGrammar

/-- A finite non-negative double, `mantissa * 2 ^ exponent`. -/
structure Binary where
  mantissa : Nat
  exponent : Int
  /-- The gap to the double below is half the gap to the double above. -/
  narrowBelow : Bool
deriving Repr, DecidableEq

namespace Binary

/-- The magnitude of a double read from its bits; meaningful for finite values only. -/
def ofBits (b : UInt64) : Binary :=
  let e := ((b >>> 52) &&& 0x7FF).toNat
  let f := (b &&& 0xFFFFFFFFFFFFF).toNat
  if e == 0 then ⟨f, -1074, false⟩ else ⟨Nat.pow 2 52 + f, (e : Int) - 1075, f == 0 && e > 1⟩

/-- The magnitude of a finite double. -/
def ofFloat (x : Float) : Binary := ofBits x.toBits

/-- The value is zero. -/
def isZero (x : Binary) : Bool := x.mantissa == 0

/-- Compare `a * 10 ^ i` with `n * 2 ^ j`, exactly. -/
def cmpScaled (a : Nat) (i : Int) (n : Nat) (j : Int) : Ordering :=
  compare (a * Nat.pow 10 i.toNat * Nat.pow 2 (-j).toNat) (n * Nat.pow 2 j.toNat * Nat.pow 10 (-i).toNat)

/-- Compare the value with `a * 10 ^ i`. -/
def cmpDecimal (x : Binary) (a : Nat) (i : Int) : Ordering :=
  (cmpScaled a i x.mantissa x.exponent).swap

/-- The integer part of the value (rounded toward zero). -/
def floorNat (x : Binary) : Nat :=
  if 0 ≤ x.exponent then x.mantissa * Nat.pow 2 x.exponent.toNat
  else x.mantissa / Nat.pow 2 (-x.exponent).toNat

/-- The value is a whole number. -/
def isWhole (x : Binary) : Bool :=
  0 ≤ x.exponent || x.mantissa % Nat.pow 2 (-x.exponent).toNat == 0

end Binary

namespace Number

/-- The sign bit of a double: set for negative numbers and for `-0.0`. -/
def signBit (x : Float) : Bool := x.toBits >>> 63 == 1

/-- The value is neither infinite nor NaN. -/
def isFinite (x : Float) : Bool := !x.isNaN && !x.isInf

/-- Whole numbers given as doubles read back without rounding below `2 ^ 53`; beyond
that `Float.ofInt` rounds to the nearest double, ties to even. -/
def ofInt (n : Int) : Float := Float.ofInt n

/-- Truncation toward zero of a finite double, exactly; `none` for NaN and the infinities. -/
def truncate? (x : Float) : Option Int :=
  if isFinite x then
    let n : Int := (Binary.ofFloat x).floorNat
    some (if signBit x then -n else n)
  else none

/-- The floor of a finite double as an exact integer; `none` for NaN and the infinities. -/
def floor? (x : Float) : Option Int :=
  if isFinite x then
    let b := Binary.ofFloat x
    let n : Int := b.floorNat
    some (if signBit x then (if b.isWhole then -n else -n - 1) else n)
  else none

/-- The double `n * 2 ^ e` for `n < 2 ^ 53` (every such value is exactly a double while
it is in range, so no rounding happens). -/
def scaled (n : Nat) (e : Int) : Float := Float.scaleB (Float.ofNat n) e

/-- The truncated remainder `x - n * y` for the whole `n` that makes it smaller than `y`
in magnitude, with the sign of `x`. It is always exact. NaN for an infinite `x`, a NaN
operand or a zero `y`; `x` itself for an infinite `y`. -/
def truncRem (x y : Float) : Float :=
  if x.isNaN || y.isNaN || x.isInf || y == 0 then 0.0 / 0.0
  else if y.isInf || x == 0 then x
  else
    let a := Binary.ofFloat x
    let b := Binary.ofFloat y
    let e := min a.exponent b.exponent
    let xa := a.mantissa * Nat.pow 2 (a.exponent - e).toNat
    let yb := b.mantissa * Nat.pow 2 (b.exponent - e).toNat
    let r := scaled (xa % yb) e
    if signBit x then -r else r

/-- The floored remainder: `x - n * y` for the integer `n = ⌊x / y⌋`, so that a non-zero
result has the sign of `y`; a zero result is a zero with the sign of `y`. -/
def floorRem (x y : Float) : Float :=
  let r := truncRem x y
  if r != 0 then
    if (y < 0) != (r < 0) then r + y else r
  else if y < 0 then -0.0 else 0.0

end Number

end ShapeGrammar
