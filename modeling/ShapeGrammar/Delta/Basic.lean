import ShapeGrammar.Geometry.Transform
import ShapeGrammar.Colour.Paint
/-!
# Deltas

A `Delta` is what one transform block of a script does to the state of a build each
time it is applied: it composes a transform onto the current one, may replace the
paint, may turn and scale its channels, and may blend it toward a target.

`Delta.apply` does these in that order. The blend happens only when the target's alpha,
which is the blend's strength, is not zero.
-/

namespace ShapeGrammar

/-- Everything one transform block does to the state of a build. -/
structure Delta where
  /-- Composed onto the current transform, on the right. -/
  transform : Transform
  /-- Replaces the paint, pool binding included. -/
  paint : Option Paint
  /-- Turns the hue and scales saturation, brightness and alpha. -/
  shift : Option Hsba
  /-- The colour blended toward; its alpha is the strength of the blend. -/
  target : Hsba
  /-- How far each channel moves toward the target. -/
  ratio : Hsba
  /-- Some number or colour came from a variable. -/
  usesVariables : Bool

namespace Delta

/-- The delta that changes nothing. -/
def neutral : Delta :=
  ⟨Transform.identity, none, none, ⟨0.0, 1.0, 1.0, 0.0⟩, ⟨0.0, 0.0, 0.0, 0.0⟩, false⟩

/-- The delta blends: its target's alpha is not zero. -/
def blends (d : Delta) : Bool := d.target.a != 0.0

/-- The paint after one application. -/
def applyToPaint (d : Delta) (c : Paint) : Paint :=
  let c := d.paint.getD c
  let c := match d.shift with
    | some s => c.shift s
    | none => c
  if d.blends then c.blend d.target d.ratio else c

/-- The transform and paint after one application. -/
def apply (d : Delta) (t : Transform) (c : Paint) : Transform × Paint :=
  (t * d.transform, d.applyToPaint c)

end Delta

end ShapeGrammar
