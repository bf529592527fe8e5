import ShapeGrammar.Json
import ShapeGrammar.Text.Quoted
/-!
# Values as settings show them

Settings given by a caller arrive as JSON values. The settings store keeps a value it
does not interpret as text (`Json.plainText`), and messages show a value as a literal
(`Json.literal`): text between quotes, `None` for null, `True` and `False`, numbers in
their shortest form, lists in brackets and objects in braces, with `, ` between items
and `: ` after keys.
-/

namespace ShapeGrammar

namespace Json

mutual

/-- The value written as a literal. -/
def literal : Json → String
  | .null => "None"
  | .bool b => if b then "True" else "False"
  | .int n => toString n
  | .num x => Number.toText x
  | .str s => Text.quote s
  | .arr xs => "[" ++ literalItems xs ++ "]"
  | .obj ms => "\x7b" ++ literalMembers ms ++ "\x7d"

/-- Items written as literals, separated by commas. -/
def literalItems : List Json → String
  | [] => ""
  | [x] => literal x
  | x :: xs => literal x ++ ", " ++ literalItems xs

/-- Members written as literals, separated by commas. -/
def literalMembers : List (String × Json) → String
  | [] => ""
  | [(k, v)] => Text.quote k ++ ": " ++ literal v
  | (k, v) :: ms => Text.quote k ++ ": " ++ literal v ++ ", " ++ literalMembers ms

end

/-- The value as text: a string as it is, anything else as its literal. -/
def plainText : Json → String
  | .str s => s
  | j => literal j

end Json

end ShapeGrammar
