import ShapeGrammar.Number.Layout
import ShapeGrammar.Random.Twister
import ShapeGrammar.Geometry.Transform
import ShapeGrammar.Text.Blank
import ShapeGrammar.Text.Digit
import ShapeGrammar.Text.Word
import ShapeGrammar.Text.Printable
import ShapeGrammar.Text.Span
import ShapeGrammar.Text.LineEnds
import ShapeGrammar.Number.Reading
import ShapeGrammar.Number.Whole
import ShapeGrammar.Fault
import ShapeGrammar.Json
import ShapeGrammar.Colour.Paint
import ShapeGrammar.Settings.Basic
import ShapeGrammar.Script.Comment
import ShapeGrammar.Script.Token
import ShapeGrammar.Script.Statement
import ShapeGrammar.Script.Options
import ShapeGrammar.Script.Parse
import ShapeGrammar.Delta.Basic
import ShapeGrammar.Delta.Word
import ShapeGrammar.Delta.Read
import ShapeGrammar.Variables
import ShapeGrammar.Grammar.Basic
import ShapeGrammar.Grammar.Compile
import ShapeGrammar.Build.Walk
import ShapeGrammar.Build.InPlace
import ShapeGrammar.Build.Record
import ShapeGrammar.Build.Driver
import ShapeGrammar.Structure
import ShapeGrammar.Command
import ShapeGrammar.Main
import ShapeGrammar.Proofs.Frames
import ShapeGrammar.Proofs.Depths
import ShapeGrammar.Proofs.Fuel
import ShapeGrammar.Proofs.Pools
import ShapeGrammar.Proofs.Lockstep
import ShapeGrammar.Proofs.Truncation
import ShapeGrammar.Proofs.Arena
import ShapeGrammar.Proofs.Rereading
import ShapeGrammar.Proofs.Parsing
import ShapeGrammar.Proofs.Slots
import ShapeGrammar.Proofs.Skeleton
import ShapeGrammar.Proofs.Placement
import ShapeGrammar.Proofs.Expansion
import ShapeGrammar.Proofs.Outline
import ShapeGrammar.Proofs.Recompiling
import ShapeGrammar.Proofs.Rejection
import ShapeGrammar.Proofs.Syntax
import ShapeGrammar.Proofs.FaultKinds
import ShapeGrammar.Proofs.Lookup
import ShapeGrammar.Proofs.Variants
import ShapeGrammar.Proofs.Edits
import ShapeGrammar.Proofs.Concatenation
import ShapeGrammar.Proofs.Comments
import ShapeGrammar.Proofs.ColourSpaces
import ShapeGrammar.Proofs.Tiling
import ShapeGrammar.Proofs.OperatorArguments
import ShapeGrammar.Proofs.OperatorGrammar
import ShapeGrammar.Proofs.Volume
import ShapeGrammar.Proofs.OptionReading
import ShapeGrammar.Proofs.SingleWrite
import ShapeGrammar.Proofs.Driving
