import ShapeGrammar.Fault
import ShapeGrammar.Text.Span
/-!
# Words of an operator text

The text of a transform block is a sequence of words separated by blanks and commas: a
name of ASCII letters and underscores (or `#?`), a number (an optional minus, then digits
with an optional point and more digits, or a point and digits), a hexadecimal colour
`#...`, a star, or a variable `$name`. `OpWord.split` gives them in order, or the
fault that names the text from the first place where none fits.
-/

namespace ShapeGrammar

/-- A word of an operator text. -/
inductive OpWord where
  | name (w : String)
  | number (text : String)
  | hex (text : String)
  | star
  | variable (name : String)
deriving DecidableEq, Repr

namespace OpWord

/-- The word as its messages show it: a variable by its name alone. -/
def shown : OpWord → String
  | .name w => w
  | .number t => t
  | .hex t => t
  | .star => "*"
  | .variable n => n

/-- The length of an unsigned number at the front: digits with an optional point and
more digits, or a point and at least one digit. -/
def unsignedLength (cs : List Char) : Option Nat :=
  let whole := Text.span Text.isDigit cs
  if whole > 0 then
    match cs.drop whole with
    | '.' :: rest => some (whole + 1 + Text.span Text.isDigit rest)
    | _ => some whole
  else
    match cs with
    | '.' :: rest =>
      let frac := Text.span Text.isDigit rest
      if frac > 0 then some (1 + frac) else none
    | _ => none

/-- A character of a name word. -/
def isLetter (c : Char) : Bool := Text.isAsciiLetter c || c == '_'

/-- The word at the front of a text that starts with no separator, and its length. -/
def atFront (cs : List Char) : Option (OpWord × Nat) :=
  let letters := Text.span isLetter cs
  if letters > 0 then some (.name (Text.slice cs 0 letters), letters) else
  match cs with
  | '#' :: '?' :: _ => some (.name "#?", 2)
  | '-' :: rest => (unsignedLength rest).map fun n => (.number (Text.slice cs 0 (n + 1)), n + 1)
  | '#' :: rest =>
    let n := Text.span Text.isHexDigit rest
    if n > 0 then some (.hex (Text.slice cs 0 (n + 1)), n + 1) else none
  | '*' :: _ => some (.star, 1)
  | '$' :: rest =>
    let n := Text.nameLength rest
    if n > 0 then some (.variable (Text.slice rest 0 n), n + 1) else none
  | _ => (unsignedLength cs).map fun n => (.number (Text.slice cs 0 n), n)

/-- A separator between words. -/
def isSeparator (c : Char) : Bool := Text.isBlank c || c == ','

/-- The words of `cs`, a part of the operator text `text`. A word is at least one
character long. -/
def splitFrom (text : String) (cs : List Char) : Except Fault (List OpWord) :=
  match cs with
  | [] => .ok []
  | c :: rest =>
    if isSeparator c then splitFrom text rest
    else match atFront (c :: rest) with
      | some (w, n) => (splitFrom text (rest.drop (n - 1))).map (w :: ·)
      | none => .error (.operatorText text (String.ofList (c :: rest)))
termination_by cs.length
decreasing_by
  all_goals simp only [List.length_cons, List.length_drop]
  all_goals omega

/-- The words of an operator text. -/
def split (text : String) : Except Fault (List OpWord) := splitFrom text text.toList

end OpWord

end ShapeGrammar
