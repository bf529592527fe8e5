import ShapeGrammar.Structure
import ShapeGrammar.Number.Reading
import ShapeGrammar.Text.LineEnds
/-!
# The commands of the program

Two commands work on a script, the text of a file read with its line ends made uniform:

* `validate` compiles the script, prints a summary of its rules, variables and
  settings, runs a build of at most ten thousand objects that takes no colours, and
  prints how many objects of each label it placed. A script that places none fails.
* `build` compiles the script, builds it, and gives the settings and every object with
  its colour and transform as a JSON document.

A fault of the script or of the build ends a command with exit status 2 and the message
`Script error: ...` on the error stream; what was printed before stays printed. Any
other fault is not a failure of the script and is given back as it is.
-/

namespace ShapeGrammar

namespace Command

/-- What a command printed and returned. -/
structure Report where
  exit : Nat
  stdout : String
  stderr : String
  notices : List Notice
  /-- The document `build` writes. -/
  document : Option Json
  /-- A fault that is no failure of the script. -/
  crash : Option Fault

/-- A command ended by a fault, after printing `stdout`. -/
def failed (stdout : String) (notices : List Notice) (f : Fault) : Report :=
  if f.kind == .script || f.kind == .build then
    ⟨2, stdout, "Script error: " ++ f.message ++ "\n", notices, none, none⟩
  else ⟨1, stdout, "", notices, none, some f⟩

/-- The number of objects at which `validate` stops its build. -/
def sampleLimit : Nat := 10000

/-- Counts by label, labels in the order first seen. -/
def tally (counts : List (String × Nat)) (label : String) : List (String × Nat) :=
  if counts.any (·.1 == label) then
    counts.map fun e => if e.1 == label then (label, e.2 + 1) else e
  else counts ++ [(label, 1)]

/-- The observer of `validate`: counts labels, consumes the draws of each colour, and
asks to stop at the sample limit. -/
def counter : Observer (List (String × Nat)) where
  see counts s tw := .ok (tally counts s.label, s.paint.skip tw, s.count ≥ sampleLimit)

/-- The summary lines of a compiled structure. -/
def summary (st : Structure) : String :=
  let s := st.settings
  "rules: " ++ toString st.ruleCount ++ "\n"
    ++ "variables: " ++ toString st.vars.entries.length ++ "\n"
    ++ "criteria: maxdepth=" ++ toString s.maxDepth ++ " maxobjects=" ++ toString s.maxObjects
    ++ " minsize=" ++ Number.toCompactText s.minSize ++ " maxsize=" ++ Number.toCompactText s.maxSize
    ++ " colorpool=" ++ s.pool.scheme ++ "\n"

/-- The lines of the label counts, labels sorted. -/
def countLines (counts : List (String × Nat)) : String :=
  let sorted := counts.mergeSort fun a b => !(b.1 < a.1)
  String.join (sorted.map fun (l, n) => "  " ++ l ++ ": " ++ toString n ++ "\n")

/-- Compile a script, print its summary, and count the objects of a bounded build. -/
def validate (script : String) (seed : Int) : Report :=
  let o := Structure.ofScript [] (Text.withUniformLineEnds script) seed
  match o.fault with
  | some f => failed "" o.notices f
  | none =>
    let st := o.state
    let head := summary st
    match st.build counter [] with
    | .error f => failed head o.notices f
    | .ok p =>
      let counts := p.watch
      let total := counts.foldl (fun acc e => acc + e.2) 0
      let truncated := total ≥ sampleLimit
      let objects := if truncated then "objects (sampled): " ++ toString total ++ "+\n"
        else "objects: " ++ toString total ++ "\n"
      let warning := if truncated then
          "warning: build exceeds " ++ toString sampleLimit
            ++ " objects; counts are based on the first portion only\n"
        else ""
      let out := head ++ objects ++ countLines counts ++ warning
      if total == 0 then failed out o.notices .noObjects
      else ⟨0, out, "", o.notices, none, none⟩

/-- The document of one placed object. -/
def Placement.toJson (p : Placement) : Json :=
  .obj [("label", .str p.label), ("option", Json.ofOption Json.str p.option),
    ("param", Json.ofOption Json.str p.param),
    ("color", Json.ofOption (fun c => .arr (c.toList.map Json.num)) p.colour),
    ("matrix", .arr (p.transform.toList.map Json.num))]

/-- Compile and build a script: the settings and the objects. -/
def build (script : String) (seed : Int) : Report :=
  let o := Structure.ofScript [] (Text.withUniformLineEnds script) seed
  match o.fault with
  | some f => failed "" o.notices f
  | none =>
    match o.state.record Recorder.snapshots with
    | .error f => failed "" o.notices f
    | .ok p =>
      let doc : Json := .obj [("criteria", o.state.settings.toJson),
        ("objects", .arr (p.watch.placements.reverse.map Placement.toJson))]
      ⟨0, "", "", o.notices, some doc, none⟩

/-- The message of a file that could not be read or written: the system's error number,
its description and the path. -/
def fileError (errno : Nat) (description path : String) : String :=
  "File error: [Errno " ++ toString errno ++ "] " ++ description ++ ": " ++ Text.quote path ++ "\n"

/-- A command as given on the command line. -/
inductive Invocation where
  | validate (script : String) (seed : Option Int)
  | build (script output : String) (seed : Option Int)
deriving DecidableEq, Repr

/-- The usage line of the command line. -/
def usage : String :=
  "usage: shapegrammar [-v] \x7bbuild,validate\x7d ...\n"
    ++ "  shapegrammar build SCRIPT OUTPUT [--seed N]\n"
    ++ "  shapegrammar validate SCRIPT [--seed N]\n"

/-- An integer argument: an optional sign and decimal digits, blanks around allowed. -/
def readInt? (text : String) : Option Int :=
  match (Text.trim text).toList with
  | '-' :: rest => (Number.readNat? (String.ofList rest)).map fun n => -(n : Int)
  | '+' :: rest => (Number.readNat? (String.ofList rest)).map fun n => (n : Int)
  | cs => (Number.readNat? (String.ofList cs)).map fun n => (n : Int)

/-- The positional arguments and the seed of the arguments after a command word. -/
def splitArgs : List String → Except String (List String × Option Int)
  | [] => .ok ([], none)
  | "--seed" :: n :: rest => do
    let (ps, _) ← splitArgs rest
    match readInt? n with
    | some k => return (ps, some k)
    | none => throw ("argument --seed: invalid int value: " ++ Text.quote n)
  | ["--seed"] => .error "argument --seed: expected one argument"
  | a :: rest => do
    let (ps, seed) ← splitArgs rest
    return (a :: ps, seed)

/-- The command that arguments ask for, or what is wrong with them. A `-v` before the
command word asks for more logging, which changes no result. -/
def parseArgs : List String → Except String Invocation
  | "-v" :: rest => parseArgs rest
  | "--verbose" :: rest => parseArgs rest
  | "build" :: rest => do
    match ← splitArgs rest with
    | ([script, output], seed) => return .build script output seed
    | _ => throw "build needs a script and an output path"
  | "validate" :: rest => do
    match ← splitArgs rest with
    | ([script], seed) => return .validate script seed
    | _ => throw "validate needs a script path"
  | _ => .error "the command must be build or validate"

end Command

end ShapeGrammar
