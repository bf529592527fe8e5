import ShapeGrammar.Number.Shortest
/-!
# Writing a decimal

A `Layout` is the set of decisions that turn chosen digits into text: which leading
exponents are written positionally, whether a whole number keeps a `.0`, how the
exponent of scientific notation is written, and the words for NaN and infinity.

Two layouts are used by the program: `Layout.exact`, for the shortest digits that
read back (all floats in data and messages), and `Layout.compact`, for six
significant digits in summaries.
-/

namespace ShapeGrammar

/-- How digits become text. -/
structure Layout where
  /-- Leading exponents `e` with `plainFrom ≤ e < plainBelow` are written positionally. -/
  plainFrom : Int
  plainBelow : Int
  /-- A positional whole number ends in `.0`. -/
  pointZero : Bool
  /-- The exponent of scientific notation has at least this many digits. -/
  expDigits : Nat
  nanText : String
  infText : String
  /-- The digits: the shortest that read back, or this many significant digits. -/
  precision : Option Nat

namespace Layout

/-- Shortest digits that read back; positional from `1e-4` up to below `1e16`, where a whole
number keeps `.0`; otherwise `d.ddde±XX` with at least two exponent digits. -/
def exact : Layout := ⟨-4, 16, true, 2, "nan", "inf", none⟩

/-- Six significant digits, trailing zeros dropped; positional from `1e-4` up to below
`1e6`, with no `.0`; otherwise `d.ddde±XX`. -/
def compact : Layout := ⟨-4, 6, false, 2, "nan", "inf", some 6⟩

/-- `n` zeros. -/
def zeros (n : Nat) : String := String.ofList (List.replicate n '0')

/-- Positional text of `d`: digits with a point placed by the exponent. -/
def positional (L : Layout) (d : Decimal) : String :=
  let s := d.digitText
  if 0 ≤ d.exp then
    s ++ zeros d.exp.toNat ++ (if L.pointZero then ".0" else "")
  else
    let e := d.leading
    if 0 ≤ e then
      let whole := s.take (e.toNat + 1)
      let frac := s.drop (e.toNat + 1)
      whole.toString ++ "." ++ frac.toString
    else "0." ++ zeros ((-e).toNat - 1) ++ s

/-- Scientific text of `d`: one digit, the rest after a point, and a signed exponent. -/
def scientific (L : Layout) (d : Decimal) : String :=
  let s := d.digitText
  let e := d.leading
  let first := (s.take 1).toString
  let rest := (s.drop 1).toString
  let mant := if rest.isEmpty then first else first ++ "." ++ rest
  let en := toString e.natAbs
  let pad := zeros (L.expDigits - en.length)
  mant ++ "e" ++ (if e < 0 then "-" else "+") ++ pad ++ en

/-- The text of a non-negative decimal: positional inside the layout's range of
exponents, scientific outside it. Zero is positional. -/
def decimalText (L : Layout) (d : Decimal) : String :=
  let e := d.leading
  if d.digits == 0 || (L.plainFrom ≤ e && e < L.plainBelow) then L.positional d
  else L.scientific d

/-- The text of a double. -/
def render (L : Layout) (x : Float) : String :=
  if x.isNaN then L.nanText
  else
    let sign := if Number.signBit x then "-" else ""
    if x.isInf then sign ++ L.infText
    else
      let b := Binary.ofFloat x
      let d := match L.precision with
        | none => b.shortest
        | some n => b.rounded n
      sign ++ L.decimalText d

end Layout

namespace Number

/-- The shortest text that reads back as `x`: `0.1`, `1.0`, `1e-07`, `1e+16`, `-0.0`. -/
def toText (x : Float) : String := Layout.exact.render x

/-- Six significant digits: `0.5`, `10000`, `1e+06`, `-0`. -/
def toCompactText (x : Float) : String := Layout.compact.render x

end Number

end ShapeGrammar
