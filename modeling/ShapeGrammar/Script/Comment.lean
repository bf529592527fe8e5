/-!
# Comments in scripts

A script may hold line comments, from `//` to the end of the line, and block comments,
from `/*` to the first `*/` after it; a `/*` that is never closed opens no comment.
Comments are found from left to right, so a comment mark inside a comment is just
text. `Script.stripComments` replaces every character of a comment by a space and keeps
its line feeds, so that every offset and every line of the script is the same after.
-/

namespace ShapeGrammar

namespace Script

/-- Where the scan for comments stands. -/
inductive CommentMode where
  | code
  | line
  | block
deriving DecidableEq, Repr

/-- The text holds `*/`. -/
def closesBlock : List Char → Bool
  | '*' :: '/' :: _ => true
  | _ :: rest => closesBlock rest
  | [] => false

/-- A character inside a comment: a line feed stays, anything else becomes a space. -/
def blankOut (c : Char) : Char := if c == '\n' then '\n' else ' '

/-- The text with its comments blanked out, scanning from the given mode. -/
def stripFrom : CommentMode → List Char → List Char
  | _, [] => []
  | .code, '/' :: '/' :: rest => ' ' :: ' ' :: stripFrom .line rest
  | .code, '/' :: '*' :: rest =>
    if closesBlock rest then ' ' :: ' ' :: stripFrom .block rest
    else '/' :: stripFrom .code ('*' :: rest)
  | .code, c :: rest => c :: stripFrom .code rest
  | .line, c :: rest => if c == '\n' then '\n' :: stripFrom .code rest else ' ' :: stripFrom .line rest
  | .block, '*' :: '/' :: rest => ' ' :: ' ' :: stripFrom .code rest
  | .block, c :: rest => blankOut c :: stripFrom .block rest

/-- The script with every comment blanked out. -/
def stripComments (s : String) : String := String.ofList (stripFrom .code s.toList)

end Script

end ShapeGrammar
