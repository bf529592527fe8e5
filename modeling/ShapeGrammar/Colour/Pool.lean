import ShapeGrammar.Colour.Hex
import ShapeGrammar.Number.Reading
import ShapeGrammar.Random.Twister
/-!
# Colour pools

A colour pool hands out a colour for every object whose colour is drawn from it. Its
scheme says how:

* `randomrgb`: three independent draws for red, green and blue;
* `randomhue`: one draw for a hue at full saturation and brightness;
* `grayscale`: one draw used as the grey level;
* `randomhue:N` and `grayscale:N`: one draw picks one of `N` evenly spaced hues or greys;
* `[c1, c2, ...]` or `list:c1,c2,...`: one draw picks one of the listed colours.

A pool is its scheme text, the kind of scheme it follows, and its palette of colours to
pick from, if it has one. Assigning a scheme (`Pool.assign`) clears the palette first;
when the assignment fails, the pool keeps its scheme text and kind but has no palette.
-/

namespace ShapeGrammar

/-- The colours a pool picks from. Ramps are given by their number of steps. -/
inductive Palette where
  /-- Colours given one by one. -/
  | listed (colours : List Rgba)
  /-- `n` hues evenly spaced round the wheel, from red. -/
  | hues (n : Nat)
  /-- `n` greys evenly spaced from black to white. -/
  | greys (n : Nat)

namespace Palette

/-- The number of colours. -/
def size : Palette → Nat
  | .listed cs => cs.length
  | .hues n => n
  | .greys n => n

/-- The `i`-th colour (`i` below the size). -/
def get (p : Palette) (i : Nat) : Rgba :=
  match p with
  | .listed cs => cs.getD i ⟨0.0, 0.0, 0.0, 0.0⟩
  | .hues n =>
    let h := Float.ofNat i / Float.ofNat n * 360.0
    match Hsba.rgbaOf h 1.0 1.0 1.0 with
    | .ok c => c
    | .error _ => ⟨0.0, 0.0, 0.0, 1.0⟩
  | .greys n =>
    let v := Float.ofNat i / Float.ofNat (max (n - 1) 1)
    ⟨v, v, v, 1.0⟩

/-- All colours in order. -/
def toList (p : Palette) : List Rgba := (List.range p.size).map p.get

end Palette

/-- The kind of scheme a pool follows. -/
inductive PoolKind where
  | randomRgb
  | randomHue
  | grayscale
  | listed
deriving DecidableEq, Repr

/-- A colour pool. -/
structure Pool where
  palette : Option Palette
  kind : PoolKind
  scheme : String

namespace Pool

/-- The scheme text of a listed palette: `[...]` on one line. -/
def bracketed? (text : String) : Option String :=
  match text.toList with
  | '[' :: rest =>
    match rest.reverse with
    | ']' :: inner =>
      let inner := inner.reverse
      if inner.contains '\n' then none else some (String.ofList inner)
    | _ => none
  | _ => none

/-- The kind name and option of a scheme text, split at its first colon. -/
def splitScheme (text : String) : String × String :=
  let cs := text.toList
  let kind := cs.takeWhile (· != ':')
  (String.ofList kind, String.ofList ((cs.dropWhile (· != ':')).drop 1))

/-- The colours of a listed palette: the option split at commas, each part trimmed and
read as a colour name or hexadecimal colour, then shown at full alpha. -/
def listColours (option : String) : Except Fault (List Rgba) :=
  let parts := ((Text.trim option).splitOn ",").map Text.trim
  parts.mapM fun part => do
    let c ← Hsba.black.withHex part
    c.toRgba

/-- The number of steps of a ramp: the option read as a number and truncated, at least
zero; an option that is empty, not a number, or NaN gives zero, and an infinite one
cannot be counted. -/
def rampSteps (option : String) : Except Fault Nat :=
  if option.isEmpty then .ok 0
  else match Number.readFloat? option with
    | none => .ok 0
    | some x =>
      if x.isNaN then .ok 0
      else match Number.truncate? x with
        | some n => .ok n.toNat
        | none => .error .infiniteToInteger

/-- The pool after assigning a scheme. The text is trimmed first. A listed palette whose
colour cannot be read is refused with the reason; an unknown kind is a `randomrgb` pool
with a notice. On failure the pool keeps its scheme text and kind and loses its
palette. -/
def assign (p : Pool) (text : String) : Outcome Pool :=
  let text := Text.trim text
  let cleared : Pool := { p with palette := none }
  let (kind, option) := match bracketed? text with
    | some inner => ("list", inner)
    | none => splitScheme text
  if kind == "list" then
    match listColours option with
    | .ok cs => .done ⟨some (.listed cs), .listed, text⟩
    | .error e => .failed cleared (.badColourList text e)
  else if kind == "randomhue" || kind == "grayscale" then
    match rampSteps option with
    | .error e => .failed cleared e
    | .ok n =>
      let palette := if n == 0 then none
        else if kind == "randomhue" then some (Palette.hues n) else some (Palette.greys n)
      .done ⟨palette, if kind == "randomhue" then .randomHue else .grayscale, text⟩
  else if kind == "randomrgb" then .done ⟨none, .randomRgb, text⟩
  else ⟨⟨none, .randomRgb, text⟩, [.unknownScheme text], none⟩

/-- A pool of random RGB colours with an empty scheme text, before any assignment. -/
def blank : Pool := ⟨none, .randomRgb, ""⟩

/-- A new pool with a scheme. -/
def ofScheme (text : String) : Outcome Pool := blank.assign text

/-- The colours of the palette, if there is one. -/
def colours (p : Pool) : Option (List Rgba) := p.palette.map Palette.toList

/-- Draw a colour. -/
def draw (p : Pool) (g : Twister) : Rgba × Twister :=
  let (x, g) := g.next
  match p.palette with
  | some pal =>
    let i := (Number.truncate? (x * Float.ofNat pal.size)).getD 0
    (pal.get i.toNat, g)
  | none =>
    match p.kind with
    | .randomHue =>
      match Hsba.rgbaOf (x * 360.0) 1.0 1.0 1.0 with
      | .ok c => (c, g)
      | .error _ => (⟨x, x, x, 1.0⟩, g)
    | .grayscale => (⟨x, x, x, 1.0⟩, g)
    | _ =>
      let (y, g) := g.next
      let (z, g) := g.next
      (⟨x, y, z, 1.0⟩, g)

/-- Consume the draws that `draw` would make, without making a colour. -/
def skip (p : Pool) (g : Twister) : Twister :=
  let g := g.next.2
  if p.palette.isNone && p.kind == .randomRgb then g.next.2.next.2 else g

end Pool

end ShapeGrammar
