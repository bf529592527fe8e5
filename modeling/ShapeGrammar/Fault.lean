import ShapeGrammar.Text.Quoted
/-!
# Faults and notices

A `Fault` is the cause of a failed operation, with the data its message needs;
`Fault.message` is the one place where causes become text, and `Fault.kind` sorts
them into the classes that callers tell apart (a script that cannot be compiled, a
build that cannot go on, bad settings from the caller, a bad value, a number out of
range, a division by zero).

A `Notice` is a warning that does not stop the operation, such as a setting that was
lowered to its ceiling. `Outcome` carries the state an operation leaves behind, the
notices it gave and the fault that ended it, if one did: several operations change
part of their state before they fail, and the state they leave is observable.
-/

namespace ShapeGrammar

/-- The classes of faults. -/
inductive FaultKind where
  | script
  | build
  | config
  | value
  | overflow
  | zeroDivision
  /-- A name that a table does not hold. -/
  | key
deriving DecidableEq, Repr

/-- A position in a script: line and column, both counted from one. -/
structure Spot where
  line : Nat
  column : Nat
deriving DecidableEq, Repr

namespace Spot

/-- The line and column of the character at offset `pos`: lines are counted by the line
feeds before it, columns from the last line feed before it. -/
def locate (source : List Char) (pos : Nat) : Spot :=
  let before := source.take pos
  let line := before.count '\n' + 1
  let column := (before.reverse.takeWhile (· != '\n')).length + 1
  ⟨line, column⟩

end Spot

/-- What is wrong with a script's syntax. -/
inductive SyntaxProblem where
  /-- No token starts at this word. -/
  | noToken (word : String)
  | malformedSetting
  | malformedRule
  /-- A token that cannot stand where it stands. -/
  | unexpected (text : String)
  | unclosedRule (name : String)
  | groupOutsideRule
  | unclosedGroup
  /-- A setting, definition or rule inside an alternatives group. -/
  | notInGroup (text : String)
  /-- Text between rule options that is no option. -/
  | unrecognisedOption (text : String)
  /-- An option key that is not known. -/
  | unknownOption (key : String)
deriving DecidableEq, Repr

/-- What is wrong inside an operator text. -/
inductive OperatorProblem where
  | undefinedVariable (name : String)
  | variableNotNumber (name value : String)
  | expectsNumber (command : String)
  | expectsColour (command : String)
  | badHex (text : String)
  | starExpects
  | unexpected (word : String)
  | colourExpects
  | unknownCommand (word : String)
deriving DecidableEq, Repr

/-- The cause of a failed operation. -/
inductive Fault where
  /-- An infinite double has no integer part. -/
  | infiniteToInteger
  /-- NaN has no integer part. -/
  | nanToInteger
  /-- A power of a finite double overflowed. -/
  | powerOutOfRange
  | divisionByZero
  /-- An infinite angle has no sine or cosine. -/
  | infiniteAngle
  /-- A transform needs sixteen entries. -/
  | entryCount (n : Nat)
  /-- `expected` values were needed and only `got` were given. -/
  | tooFewValues (expected got : Nat)
  /-- `expected` values were needed and more were given. -/
  | tooManyValues (expected : Nat)
  /-- An integer too large in magnitude to have a nearest double. -/
  | intTooLarge
  /-- A name that is not in the table it was looked up in. -/
  | missingKey (name : String)
  | negativeTolerance
  /-- Neither a colour name nor `#rgb` nor `#rrggbb`. -/
  | badHex (text : String)
  /-- A colour of a listed palette is bad. -/
  | badColourList (scheme : String) (cause : Fault)
  /-- A numeric setting was given no number. -/
  | expectedNumber (key : String)
  /-- A colour pool setting was refused. -/
  | badScheme (key : String) (cause : Fault)
  /-- A colour setting was given no colour. -/
  | unrecognisedColour (key : String)
  /-- Settings from the caller: a count must be a natural number. -/
  | configCount (path : String)
  /-- Settings from the caller: a size must be a non-negative number. -/
  | configSize (path : String)
  /-- Settings from the caller: not a colour; `shown` is the value as written. -/
  | configColour (path shown : String)
  /-- Settings from the caller: a colour pool scheme must be text. -/
  | configText (path : String)
  /-- Settings from the caller: the colour pool scheme was refused. -/
  | configScheme (path : String) (cause : Fault)
  /-- No operator token starts at `rest`. -/
  | operatorText (text rest : String)
  | inOperator (text : String) (problem : OperatorProblem)
  | malformed (problem : SyntaxProblem) (spot : Option Spot)
  /-- A rule too deep for its fallback names a label that no rule in scope has. -/
  | missingFallback (label rule : String)
  | notCompiled
  | noObjects
deriving Repr

namespace SyntaxProblem

/-- The text of a syntax problem. -/
def message : SyntaxProblem → String
  | .noToken w => "syntax error at " ++ Text.quote w
  | .malformedSetting => "malformed set command"
  | .malformedRule => "malformed rule definition"
  | .unexpected t => "unexpected " ++ Text.quote t
  | .unclosedRule n => "missing '\x7d' for rule " ++ Text.quote n
  | .groupOutsideRule => "alternatives are only allowed inside a rule"
  | .unclosedGroup => "missing ')'"
  | .notInGroup t => Text.quote t ++ " is not allowed inside ( ... )"
  | .unrecognisedOption t => "unrecognised rule option " ++ Text.quote t
  | .unknownOption k => "unknown rule option " ++ Text.quote k

end SyntaxProblem

namespace OperatorProblem

/-- The text of an operator problem. -/
def message : OperatorProblem → String
  | .undefinedVariable n => "undefined variable $" ++ n
  | .variableNotNumber n v => "variable " ++ Text.quote n ++ " is not a number (" ++ Text.quote v ++ ")"
  | .expectsNumber c => "'" ++ c ++ "' expects a number"
  | .expectsColour c => "'" ++ c ++ "' expects a colour"
  | .badHex t => "invalid hex colour " ++ Text.quote t
  | .starExpects => "'*' expects a colour or one of h, s, b"
  | .unexpected w => "unexpected " ++ Text.quote w
  | .colourExpects => "'color' expects a colour or 'random'"
  | .unknownCommand w => "unknown command " ++ Text.quote w

end OperatorProblem

namespace Fault

/-- The class of a fault. -/
def kind : Fault → FaultKind
  | .infiniteToInteger | .powerOutOfRange | .intTooLarge => .overflow
  | .missingKey _ => .key
  | .nanToInteger | .infiniteAngle | .entryCount _ | .tooFewValues _ _ | .tooManyValues _
  | .negativeTolerance | .badHex _ | .badColourList _ _ => .value
  | .divisionByZero => .zeroDivision
  | .configCount _ | .configSize _ | .configColour _ _ | .configText _ | .configScheme _ _ => .config
  | .missingFallback _ _ | .notCompiled => .build
  | .expectedNumber _ | .badScheme _ _ | .unrecognisedColour _ | .operatorText _ _
  | .inOperator _ _ | .malformed _ _ | .noObjects => .script

/-- The text of a fault. -/
def message : Fault → String
  | .infiniteToInteger => "cannot convert float infinity to integer"
  | .nanToInteger => "cannot convert float NaN to integer"
  | .powerOutOfRange => "(34, 'Numerical result out of range')"
  | .divisionByZero => "float division by zero"
  | .infiniteAngle => "math domain error"
  | .entryCount n => "AffineMatrix needs 16 elements, got " ++ toString n
  | .tooFewValues e n =>
    "not enough values to unpack (expected " ++ toString e ++ ", got " ++ toString n ++ ")"
  | .tooManyValues e => "too many values to unpack (expected " ++ toString e ++ ")"
  | .intTooLarge => "int too large to convert to float"
  | .missingKey n => Text.quote n
  | .negativeTolerance => "tolerances must be non-negative"
  | .badHex t => "invalid hex colour " ++ Text.quote t
  | .badColourList s c => "invalid colour list " ++ Text.quote s ++ ": " ++ c.message
  | .expectedNumber k => "set " ++ k ++ ": expected a number"
  | .badScheme k c => "set " ++ k ++ ": " ++ c.message
  | .unrecognisedColour k => "set " ++ k ++ ": unrecognised colour"
  | .configCount p => p ++ " must be a non-negative integer"
  | .configSize p => p ++ " must be a non-negative number"
  | .configColour p v => p ++ " must be a colour, got " ++ v
  | .configText p => p ++ " must be a string"
  | .configScheme p c => p ++ ": " ++ c.message
  | .operatorText t r => "cannot parse operator " ++ Text.quote t ++ " at " ++ Text.quote r
  | .inOperator t p => p.message ++ " in operator " ++ Text.quote t
  | .malformed p none => p.message
  | .malformed p (some s) =>
    p.message ++ " (line " ++ toString s.line ++ ", column " ++ toString s.column ++ ")"
  | .missingFallback l r => "label [" ++ l ++ "] not found in rule " ++ r
  | .notCompiled => "compile() must be called before build()"
  | .noObjects => "Script produces no objects"

/-- The values when there are exactly `n` of them; fewer or more is the fault that says
how many were needed. -/
def exactly {α : Type} (n : Nat) (xs : List α) : Except Fault (List α) :=
  if xs.length < n then .error (.tooFewValues n xs.length)
  else if xs.length > n then .error (.tooManyValues n)
  else .ok xs

end Fault

/-- A warning that does not stop the operation. -/
inductive Notice where
  /-- A count setting above its ceiling was lowered to it. -/
  | capped (setting : String) (asked ceiling : Int)
  /-- A colour pool scheme that is not known; the pool draws random RGB colours. -/
  | unknownScheme (scheme : String)
deriving DecidableEq, Repr

namespace Notice

/-- The text of a notice. -/
def message : Notice → String
  | .capped s n c => "set " ++ s ++ " " ++ toString n ++ " exceeds the limit, using " ++ toString c
  | .unknownScheme s => "unknown colorpool scheme " ++ Text.quote s ++ ", using randomrgb"

/-- The part of the program that gives the notice, as its log lines name it. -/
def origin : Notice → String
  | .capped _ _ _ => "eisen.criteria"
  | .unknownScheme _ => "eisen.color"

/-- The log line of a notice. -/
def line (n : Notice) : String := "WARNING " ++ n.origin ++ ": " ++ n.message

end Notice

/-- The state an operation leaves, the notices it gave, and the fault that stopped it. -/
structure Outcome (α : Type) where
  state : α
  notices : List Notice := []
  fault : Option Fault := none

namespace Outcome

/-- A finished operation. -/
def done {α : Type} (a : α) : Outcome α := ⟨a, [], none⟩

/-- An operation that failed, leaving `a`. -/
def failed {α : Type} (a : α) (f : Fault) : Outcome α := ⟨a, [], some f⟩

/-- Go on from the state of `o` unless it failed; notices accumulate in order. -/
def andThen {α β : Type} (o : Outcome α) (lift : α → β) (k : α → Outcome β) : Outcome β :=
  match o.fault with
  | some f => ⟨lift o.state, o.notices, some f⟩
  | none =>
    let r := k o.state
    { r with notices := o.notices ++ r.notices }

/-- The state changed by `f`, notices and fault kept. -/
def map {α β : Type} (f : α → β) (o : Outcome α) : Outcome β := ⟨f o.state, o.notices, o.fault⟩

/-- The result as an `Except`: the state when no fault stopped the operation. -/
def toExcept {α : Type} (o : Outcome α) : Except Fault α :=
  match o.fault with
  | some f => .error f
  | none => .ok o.state

end Outcome

end ShapeGrammar
