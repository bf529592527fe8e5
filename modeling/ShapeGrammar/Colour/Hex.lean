import ShapeGrammar.Colour.Hsb
import ShapeGrammar.Colour.Names
import ShapeGrammar.Text.Blank
import ShapeGrammar.Text.Digit
/-!
# Hexadecimal colours

A hexadecimal colour is `#rgb`, each digit a channel in fifteenths, or `#rrggbb`, each
pair a channel in two-hundred-and-fifty-fifths, with blanks allowed around it.
`Colour.resolve` accepts a colour name as well and gives the `#rrggbb` value of a name,
or the text itself when it is already a hexadecimal colour.
-/

namespace ShapeGrammar

namespace Colour

/-- The channels of a hexadecimal colour, each in `[0, 1]`. -/
def hexChannels? {α : Type} [Div α] [OfScientific α] [HueArith α] (text : String) :
    Option (α × α × α) :=
  match (Text.trim text).toList with
  | ['#', r, g, b] =>
    if [r, g, b].all Text.isHexDigit then
      let v (c : Char) : α := HueArith.ofNat (Text.hexValue c) / 15.0
      some (v r, v g, v b)
    else none
  | ['#', r1, r2, g1, g2, b1, b2] =>
    if [r1, r2, g1, g2, b1, b2].all Text.isHexDigit then
      let v (x y : Char) : α := HueArith.ofNat (16 * Text.hexValue x + Text.hexValue y) / 255.0
      some (v r1 r2, v g1 g2, v b1 b2)
    else none
  | _ => none

/-- The channels of a hexadecimal colour; anything else is refused. -/
def parseHex (text : String) : Except Fault (Float × Float × Float) :=
  match hexChannels? text with
  | some c => .ok c
  | none => .error (.badHex text)

/-- The `#rrggbb` value of a colour name, or the text itself when it is a hexadecimal
colour (blanks and all). -/
def resolve (text : String) : Except Fault String :=
  match named? text with
  | some v => .ok v
  | none => (parseHex text).map fun _ => text

end Colour

namespace Hsba

/-- The colour with the channels of a colour name or hexadecimal colour; alpha is kept. -/
def withHex (c : Hsba) (text : String) : Except Fault Hsba := do
  let v ← Colour.resolve text
  let (r, g, b) ← Colour.parseHex v
  return c.withRgb r g b

end Hsba

end ShapeGrammar
