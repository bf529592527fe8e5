import ShapeGrammar.Fault
import ShapeGrammar.Number.Binary
/-!
# Colours in hue, saturation and brightness

Colours are kept as hue (in degrees), saturation, brightness and alpha, so that a
script can turn the hue and scale saturation and brightness step by step; they are
turned into red, green, blue and alpha only when an object is emitted.

* `Hsba.rgbOfHsb` places the hue in one of six sectors of sixty degrees and mixes the
  chroma `b * s` into the channels of that sector.
* `Hsba.hsbOfRgb` is its inverse direction: the largest channel is the brightness, the
  spread of the channels over it the saturation, and the hue is read from the sector
  of the largest channel.

Both formulas are written over any number type with the operations of `HueArith`; doubles
run them (`Hsba.toRgba`, `Hsba.withRgb`).
* `Hsba.shift` turns the hue and scales the other channels; `Hsba.blend` moves a
  colour toward a target, turning the hue the short way round the wheel.

Hues are reduced with the floored remainder (`Number.floorRem`), which is never
negative for the positive modulus 360.
-/

namespace ShapeGrammar

/-- Red, green, blue and alpha. -/
structure Rgba where
  r : Float
  g : Float
  b : Float
  a : Float

namespace Rgba

/-- The channels in order. -/
def toList (c : Rgba) : List Float := [c.r, c.g, c.b, c.a]

end Rgba

/-- Hue in degrees, saturation, brightness and alpha. -/
structure Hsba where
  h : Float
  s : Float
  b : Float
  a : Float

namespace Hsba

/-- The channels in order. -/
def toList (c : Hsba) : List Float := [c.h, c.s, c.b, c.a]

/-- Black with full alpha: the colour that `withHex` starts from. -/
def black : Hsba := ⟨0.0, 0.0, 0.0, 1.0⟩

/-- The integer part of `x / 360` rounded down, as a double, for a finite `x`. -/
def turns (x : Float) : Except Fault Float :=
  if x.isNaN then .error .nanToInteger
  else if x.isInf then .error .infiniteToInteger
  else .ok (Float.floor (x / 360.0))

end Hsba

/-- What the conversions between the two colour spaces ask of a number type beyond its four
operations, order, equality and decimal literals: whole numbers, rounding down, the absolute
value and the floored remainder. Doubles are the instance that runs; over the real numbers the
same formulas are the exact arithmetic that doubles round. -/
class HueArith (α : Type) where
  ofNat : Nat → α
  floor : α → α
  abs : α → α
  floorRem : α → α → α

instance : HueArith Float := ⟨Float.ofNat, Float.floor, Float.abs, Number.floorRem⟩

namespace Hsba

section Formulas

variable {α : Type} [Add α] [Sub α] [Mul α] [Div α] [LT α] [LE α] [DecidableLT α] [DecidableLE α]
  [BEq α] [OfScientific α] [HueArith α]

/-- The larger of two numbers, the first one unless the second is greater. -/
def larger (x y : α) : α := if y > x then y else x

/-- The smaller of two numbers, the first one unless the second is less. -/
def smaller (x y : α) : α := if y < x then y else x

/-- Red, green and blue of hue `h` in degrees, saturation `s` and brightness `b`. -/
def rgbOfHsb (h s b : α) : α × α × α :=
  let hp := (h - HueArith.floor (h / 360.0) * 360.0) / 60.0
  let c := b * s
  let x := c * (1.0 - HueArith.abs (HueArith.floorRem hp 2.0 - 1.0))
  let m := b - c
  if hp < 1.0 then (c + m, x + m, m)
  else if hp < 2.0 then (x + m, c + m, m)
  else if hp < 3.0 then (m, c + m, x + m)
  else if hp < 4.0 then (m, x + m, c + m)
  else if hp < 5.0 then (x + m, m, c + m)
  else (c + m, m, x + m)

/-- Hue, saturation and brightness of red `r`, green `g` and blue `b`. -/
def hsbOfRgb (r g b : α) : α × α × α :=
  let hi := larger (larger r g) b
  let lo := smaller (smaller r g) b
  let chroma := hi - lo
  let s := if hi != 0.0 then chroma / hi else 0.0
  let h :=
    if chroma <= 0.0 then 0.0
    else if hi == r then HueArith.floorRem (60.0 * (g - b) / chroma) 360.0
    else if hi == g then 60.0 * (b - r) / chroma + 120.0
    else 60.0 * (r - g) / chroma + 240.0
  (h, s, hi)

end Formulas

/-- Red, green, blue and alpha of a colour given by hue, saturation, brightness and
alpha. The hue must be finite. -/
def rgbaOf (h s b a : Float) : Except Fault Rgba := do
  let _ ← turns h
  let v := rgbOfHsb h s b
  return ⟨v.1, v.2.1, v.2.2, a⟩

/-- The colour as red, green, blue and alpha. -/
def toRgba (c : Hsba) : Except Fault Rgba := rgbaOf c.h c.s c.b c.a

/-- The colour with the given red, green and blue; alpha is kept. -/
def withRgb (c : Hsba) (r g b : Float) : Hsba :=
  let v := hsbOfRgb r g b
  ⟨v.1, v.2.1, v.2.2, c.a⟩

/-- The colour with the hue turned by `d.h` and the other channels scaled by `d`. -/
def shift (c d : Hsba) : Hsba :=
  ⟨Number.floorRem (c.h + d.h) 360.0, c.s * d.s, c.b * d.b, c.a * d.a⟩

/-- The colour moved toward `target` by `ratio`, channel by channel, weighted by the
target's alpha; alpha itself is kept. The hue turns the short way round; a colour
without saturation takes the target's hue, and a target without saturation keeps the
hue where it is. -/
def blend (c target ratio : Hsba) : Hsba :=
  let h :=
    if c.s > 0.0 then
      let d := if target.s == 0.0 then 0.0 else target.h - c.h
      let d := if d <= -180.0 then d + 360.0 else if d > 180.0 then d - 360.0 else d
      Number.floorRem (c.h + d * ratio.h * target.a) 360.0
    else target.h
  let s := c.s + (target.s - c.s) * ratio.s * target.a
  let b := c.b + (target.b - c.b) * ratio.b * target.a
  ⟨h, s, b, c.a⟩

end Hsba

end ShapeGrammar
