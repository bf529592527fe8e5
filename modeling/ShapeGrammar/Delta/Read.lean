import ShapeGrammar.Delta.Basic
import ShapeGrammar.Delta.Word
import ShapeGrammar.Colour.Hex
import ShapeGrammar.Number.Reading
/-!
# Reading an operator text into a delta

The words of an operator text are read from left to right as commands with their
arguments:

* geometry: `x`, `y`, `z` and a distance; `rx`, `ry`, `rz` and an angle in degrees;
  `s` and one factor, or three when a number follows the first; `fx`, `fy`, `fz`
  reflect an axis; `m` and nine entries of a 3×3 block, row by row. Their transforms
  are composed in the order written.
* colour: a colour name, `#hex` or `color` and a colour set the paint; `random`, `#?`
  or `color random` bind it to the pool; `hue`/`h`, `sat`, `brightness`/`b` and
  `alpha`/`a` set a channel of the shift; `blend` and `*` with a colour and a strength,
  or `*h`, `*s`, `*b` with a value and a ratio, set the blend.

A number may be a variable, `$name`, or the bare name of a variable that is no command;
its value is read as a decimal. A colour may be a variable too, and a colour name wins
over a variable of the same name where a command is expected. `Delta.read` gives the
delta, or the fault that names the problem and the text.
-/

namespace ShapeGrammar

namespace Delta

/-- The commands of operator texts. -/
def commands : List String :=
  ["x", "y", "z", "rx", "ry", "rz", "s", "m", "fx", "fy", "fz", "hue", "h", "sat",
    "brightness", "b", "alpha", "a", "blend", "color", "random", "#?"]

/-- The word is a command. -/
def isCommand (w : String) : Bool := commands.contains w

/-- Radians per degree: the double nearest to π/180. -/
def radiansPerDegree : Float := Float.ofBits 0x3F91DF46A2529D39

/-- What reading an operator text needs besides its words: the text, for messages; the
variables; and the pool that `random` binds the paint to. -/
structure Source where
  text : String
  lookup : String → Option String
  pool : Pool

/-- The words still to read, and whether a variable has been used. -/
structure Cursor where
  words : List OpWord
  usedVariables : Bool

/-- Reading words of an operator text. -/
abbrev Reading := StateT Cursor (Except Fault)

namespace Source

/-- A problem in the operator text. -/
def fault (src : Source) (p : OperatorProblem) : Fault := .inOperator src.text p

/-- The value of the variable a word stands for: `$name` must be defined; a bare name
stands for a variable when one is defined and the name is no command. -/
def variableOf (src : Source) : OpWord → Except Fault (Option String)
  | .variable n =>
    match src.lookup n with
    | some v => .ok (some v)
    | none => .error (src.fault (.undefinedVariable n))
  | .name w => .ok (if isCommand w then none else src.lookup w)
  | _ => .ok none

/-- The channels of a colour name or hexadecimal colour, the alpha of `c` kept. -/
def recolour (src : Source) (c : Hsba) (text : String) : Except Fault Hsba :=
  match c.withHex text with
  | .ok c => .ok c
  | .error _ => .error (src.fault (.badHex text))

end Source

/-- The next word, not taken. -/
def peek : Reading (Option OpWord) := return (← get).words.head?

/-- Take the next word; `fromVariable` says whether it was read as a variable. -/
def advance (fromVariable : Bool) : Reading Unit :=
  modify fun c => ⟨c.words.drop 1, c.usedVariables || fromVariable⟩

/-- Take the next word, if there is one. -/
def take : Reading (Option OpWord) := do
  let w ← peek
  if w.isSome then advance false
  return w

/-- A number, if the next word is one or a variable. -/
def numberOpt (src : Source) : Reading (Option Float) := do
  match ← peek with
  | some (.number t) =>
    advance false
    return some ((Number.readFloat? t).getD 0.0)
  | some w =>
    match ← (src.variableOf w : Except Fault (Option String)) with
    | some v =>
      advance true
      match Number.readFloat? v with
      | some x => return some x
      | none => throw (src.fault (.variableNotNumber w.shown v))
    | none => return none
  | none => return none

/-- The number that `command` needs. -/
def number (src : Source) (command : String) : Reading Float := do
  match ← numberOpt src with
  | some x => return x
  | none => throw (src.fault (.expectsNumber command))

/-- `n` numbers that `command` needs. -/
def numbers (src : Source) (command : String) : Nat → Reading (List Float)
  | 0 => return []
  | n + 1 => do
    let x ← number src command
    return x :: (← numbers src command n)

/-- A colour, as `#hex` text, if the next word is a variable, a hexadecimal colour or a
colour name. -/
def colourOpt (src : Source) : Reading (Option String) := do
  match ← peek with
  | none => return none
  | some w =>
    let v ← (src.variableOf w : Except Fault (Option String))
    let text : Option String := match v, w with
      | some t, _ => some t
      | none, .hex h => some h
      | none, .name n => if Colour.isNamed n then some n else none
      | none, _ => none
    match text with
    | none => return none
    | some t =>
      advance v.isSome
      match Colour.resolve t with
      | .ok r => return some r
      | .error _ => throw (src.fault (.badHex t))

/-- The colour that `command` needs. -/
def colour (src : Source) (command : String) : Reading String := do
  match ← colourOpt src with
  | some t => return t
  | none => throw (src.fault (.expectsColour command))

/-- Paint of the channels of a colour name or hexadecimal colour. -/
def absolute (src : Source) (text : String) : Reading Paint := do
  let c ← (src.recolour Hsba.black text : Except Fault Hsba)
  return Paint.ofHsba c

/-- The colour with one channel, named `h`, `s` or `b`, replaced. -/
def Hsba.withChannel (c : Hsba) (channel : String) (x : Float) : Hsba :=
  if channel == "h" then { c with h := x }
  else if channel == "s" then { c with s := x }
  else { c with b := x }

/-- The delta after a geometry or colour command named `w`. -/
def named (src : Source) (d : Delta) (w : String) : Reading Delta := do
  let compose (t : Transform) : Delta := { d with transform := d.transform * t }
  let shifted (f : Hsba → Hsba) : Delta := { d with shift := some (f (d.shift.getD ⟨0.0, 1.0, 1.0, 1.0⟩)) }
  if w == "x" then return compose (.offset (← number src w) 0.0 0.0)
  else if w == "y" then return compose (.offset 0.0 (← number src w) 0.0)
  else if w == "z" then return compose (.offset 0.0 0.0 (← number src w))
  else if w == "rx" then return compose (← Transform.rotationX ((← number src w) * radiansPerDegree))
  else if w == "ry" then return compose (← Transform.rotationY ((← number src w) * radiansPerDegree))
  else if w == "rz" then return compose (← Transform.rotationZ ((← number src w) * radiansPerDegree))
  else if w == "s" then
    let x ← number src "s"
    match ← numberOpt src with
    | none => return compose (.scale x x x)
    | some y => return compose (.scale x y (← number src "s"))
  else if w == "fx" then return compose (.scale (-1.0) 1.0 1.0)
  else if w == "fy" then return compose (.scale 1.0 (-1.0) 1.0)
  else if w == "fz" then return compose (.scale 1.0 1.0 (-1.0))
  else if w == "m" then
    let xs ← numbers src "m" 9
    return compose (.linear fun i => xs.getD i.val 0.0)
  else if w == "hue" || w == "h" then
    let x ← number src w
    return shifted fun c => { c with h := x }
  else if w == "sat" then
    let x ← number src w
    return shifted fun c => { c with s := x }
  else if w == "brightness" || w == "b" then
    let x ← number src w
    return shifted fun c => { c with b := x }
  else if w == "alpha" || w == "a" then
    let x ← number src w
    return shifted fun c => { c with a := x }
  else if w == "blend" then
    let target ← (src.recolour d.target (← colour src "blend") : Except Fault Hsba)
    let strength ← number src "blend"
    return { d with target := { target with a := strength }, ratio := ⟨1.0, 1.0, 1.0, 1.0⟩ }
  else if w == "color" then
    match ← colourOpt src with
    | some t => return { d with paint := some (← absolute src t) }
    | none =>
      match ← take with
      | some next =>
        if next.shown == "random" || next.shown == "#?" then
          return { d with paint := some (Paint.ofPool src.pool) }
        else throw (src.fault .colourExpects)
      | none => throw (src.fault .colourExpects)
  else if w == "random" || w == "#?" then return { d with paint := some (Paint.ofPool src.pool) }
  else throw (src.fault (.unknownCommand w))

/-- The delta after the command that starts with the word `w`. -/
def command (src : Source) (d : Delta) (w : OpWord) : Reading Delta := do
  match w with
  | .hex h => return { d with paint := some (← absolute src h) }
  | .star =>
    match ← colourOpt src with
    | some t =>
      let target ← (src.recolour d.target t : Except Fault Hsba)
      let strength ← number src "*"
      return { d with target := { target with a := strength }, ratio := ⟨1.0, 1.0, 1.0, 1.0⟩ }
    | none =>
      match ← take with
      | some next =>
        let ch := next.shown
        if ch == "h" || ch == "s" || ch == "b" then
          let value ← number src ("*" ++ ch)
          let ratio ← number src ("*" ++ ch)
          return { d with target := Hsba.withChannel { d.target with a := 1.0 } ch value,
                          ratio := Hsba.withChannel d.ratio ch ratio }
        else throw (src.fault .starExpects)
      | none => throw (src.fault .starExpects)
  | .name n =>
    if !isCommand n && Colour.isNamed n then return { d with paint := some (← absolute src n) }
    else named src d n
  | w => throw (src.fault (.unexpected w.shown))

/-- Read commands onto `d` until the words run out; every command takes at least its own
word, so `fuel` at least the number of words is enough. -/
def commandsFrom (src : Source) (fuel : Nat) (d : Delta) : Reading Delta :=
  match fuel with
  | 0 => return d
  | fuel + 1 => do
    match ← take with
    | none => return d
    | some w => commandsFrom src fuel (← command src d w)

/-- The delta of an operator text, with variables looked up by `lookup` and `random`
bound to `pool`. -/
def read (text : String) (lookup : String → Option String) (pool : Pool) : Except Fault Delta := do
  let words ← OpWord.split text
  let (d, c) ← (commandsFrom ⟨text, lookup, pool⟩ words.length neutral).run ⟨words, false⟩
  return { d with usesVariables := c.usedVariables }

end Delta

end ShapeGrammar
