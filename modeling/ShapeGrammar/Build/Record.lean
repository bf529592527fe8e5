import ShapeGrammar.Build.Walk
/-!
# Recording a build

A `Recorder` is an observer that keeps every object it is shown, in order. It may take
each object's colour (drawing from the pool when the paint is bound), only consume the
draws the colour would take, or leave the generator alone; it may ask the build to stop
once a number of objects is reached; and it may answer with the count of objects, in
which case the answer of the build is the count at the last object.
-/

namespace ShapeGrammar

/-- What a recorder does with the colour of each object. -/
inductive ColourUse where
  /-- Take the colour, drawing from the pool when the paint is bound. -/
  | draw
  /-- Consume the draws the colour would take, and keep no colour. -/
  | skip
  /-- Neither. -/
  | ignore
deriving DecidableEq, Repr

/-- One object as recorded. -/
structure Placement where
  label : String
  param : Option String
  option : Option String
  transform : Transform
  colour : Option Rgba
  /-- The number of objects placed, this one included. -/
  count : Nat

/-- How to record a build. -/
structure Recorder where
  use : ColourUse
  /-- Ask the build to stop once this many objects are placed. -/
  stopAt : Option Nat
  /-- Answer each object with the count. -/
  answers : Bool

/-- A recording: the objects, newest first, and the last answer given. -/
structure Record where
  placements : List Placement
  answer : Option Nat

namespace Recorder

/-- The recorder of a build without observer of its own: every colour is taken. -/
def snapshots : Recorder := ⟨.draw, none, false⟩

/-- The colour of a sighting as the recorder uses it, and the generator after. -/
def colourOf (r : Recorder) (s : Sighting) (tw : Twister) : Except Fault (Option Rgba × Twister) :=
  match r.use with
  | .draw => (s.paint.toRgba tw).map fun (c, tw) => (some c, tw)
  | .skip => .ok (none, s.paint.skip tw)
  | .ignore => .ok (none, tw)

/-- The recorder as an observer. -/
def observer (r : Recorder) : Observer Record where
  see rec s tw := do
    let (colour, tw) ← r.colourOf s tw
    let placement : Placement := ⟨s.label, s.param, s.option, s.transform, colour, s.count⟩
    let stop := match r.stopAt with
      | some n => s.count ≥ n
      | none => false
    return (⟨placement :: rec.placements, if r.answers then some s.count else rec.answer⟩, tw, stop)

end Recorder

/-- An empty recording. -/
def Record.empty : Record := ⟨[], none⟩

end ShapeGrammar
