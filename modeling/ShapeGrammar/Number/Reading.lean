import ShapeGrammar.Text.Blank
import ShapeGrammar.Text.Digit
/-!
# Reading decimal numbers

`Number.readFloat?` reads the text of a number: blanks around it, an optional sign,
then `inf`, `infinity` or `nan` in any case, or a decimal mantissa with an optional
exponent. Digits may be those of any script, and a single underscore may stand
between two digits. The value is the decimal rounded to the nearest double, ties to
even, so that reading is exact in the sense of `Binary.readsBack`.

`Number.ofDecimal` is the rounding step alone, for callers that have already split
their text into digits and exponent.
-/

namespace ShapeGrammar

namespace Number

/-- The digits of a natural number in base ten, most significant first. -/
def digitsOf (ds : List Nat) : Nat := ds.foldl (fun acc d => 10 * acc + d) 0

/-- The double nearest to `m * 10 ^ e`, ties to even. Exponents far outside the range of
doubles are settled without computing the power: the value is then zero or infinite. -/
def ofDecimal (m : Nat) (e : Int) : Float :=
  if m == 0 then 0.0
  else
    let size : Int := (toString m).length
    if size + e > 310 then 1.0 / 0.0
    else if size + e < -330 then 0.0
    else Float.ofScientific m (e < 0) e.natAbs

/-- The blanks that surround a number: space, tab, line feed, vertical tab, form feed
and carriage return (every other blank has already become a space). -/
def isEdgeBlank (c : Char) : Bool :=
  c == ' ' || c == '\t' || c == '\n' || c == '\x0b' || c == '\x0c' || c == '\r'

/-- Characters beyond ASCII are read as a space when blank, as their ASCII digit when a
digit, and as a character no number contains otherwise. -/
def asciiForm (c : Char) : Char :=
  if c.toNat < 127 then c
  else if Text.isBlank c then ' '
  else match Text.digitValue? c with
    | some d => Char.ofNat (48 + d)
    | none => '?'

/-- Every underscore stands between two ASCII digits. -/
def underscoresValid : List Char → Bool
  | a :: '_' :: b :: rest => (Text.isAsciiDigit a && Text.isAsciiDigit b && underscoresValid (b :: rest))
  | '_' :: _ => false
  | _ :: rest => underscoresValid rest
  | [] => true

/-- A run of ASCII digits at the front, as values, and the rest. -/
def spanDigits (cs : List Char) : List Nat × List Char :=
  let ds := cs.takeWhile Text.isAsciiDigit
  (ds.map fun c => c.toNat - 48, cs.dropWhile Text.isAsciiDigit)

/-- A sign at the front: `true` for minus. -/
def spanSign : List Char → Bool × List Char
  | '-' :: rest => (true, rest)
  | '+' :: rest => (false, rest)
  | cs => (false, cs)

/-- The exponent part `e±ddd`, if the whole rest is one. -/
def readExponent : List Char → Option Int
  | [] => some 0
  | c :: rest =>
    if c == 'e' || c == 'E' then
      let (neg, rest) := spanSign rest
      let (ds, rest) := spanDigits rest
      if ds.isEmpty || !rest.isEmpty then none
      else
        let n : Int := digitsOf ds
        some (if neg then -n else n)
    else none

/-- An unsigned decimal: digits, an optional point and fraction (at least one digit in
all), an optional exponent; the value as digits and a power of ten. -/
def readUnsigned (cs : List Char) : Option (Nat × Int) :=
  let (whole, rest) := spanDigits cs
  let (frac, rest) := match rest with
    | '.' :: r => spanDigits r
    | r => ([], r)
  if whole.isEmpty && frac.isEmpty then none
  else
    (readExponent rest).map fun e => (digitsOf (whole ++ frac), e - frac.length)

/-- The lower-case ASCII form of a character. -/
def lowerAscii (c : Char) : Char := if 'A' ≤ c && c ≤ 'Z' then Char.ofNat (c.toNat + 32) else c

/-- The value of `nan`, `inf` and `infinity` in any case. -/
def readSpecial (cs : List Char) : Option Float :=
  let w := String.ofList (cs.map lowerAscii)
  if w == "nan" then some (0.0 / 0.0)
  else if w == "inf" || w == "infinity" then some (1.0 / 0.0)
  else none

/-- The number written by a text, or `none` when the text is not one. -/
def readFloat? (s : String) : Option Float :=
  let cs := s.toList.map asciiForm
  if !underscoresValid cs then none
  else
    let cs := cs.filter (· != '_')
    let cs := ((cs.dropWhile isEdgeBlank).reverse.dropWhile isEdgeBlank).reverse
    let (neg, body) := spanSign cs
    let value := match readSpecial body with
      | some x => some x
      | none => (readUnsigned body).map fun (m, e) => ofDecimal m e
    value.map fun x => if neg then -x else x

/-- The natural number written by a string of decimal digits of any script (`none` for
the empty string or any other character). -/
def readNat? (s : String) : Option Nat :=
  let ds := s.toList.map Text.digitValue?
  if s.isEmpty || ds.any Option.isNone then none
  else some (digitsOf (ds.map fun d => d.getD 0))

end Number

end ShapeGrammar
