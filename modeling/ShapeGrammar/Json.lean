import ShapeGrammar.Number.Layout
import ShapeGrammar.Number.Reading
import ShapeGrammar.Text.Quoted
/-!
# JSON documents

The program writes its objects as JSON, and reads settings given as JSON. A `Json`
value keeps what those need: integers of any size apart from doubles, and the members
of an object in the order they were written.

`Json.write` writes compact text; doubles take the shortest digits that read back,
and NaN and the infinities are written as the bare words `NaN`, `Infinity` and
`-Infinity` or, with `NonFinite.quoted`, as strings holding those words.
`Json.read?` reads text; a number with a fraction or an exponent is a double, any
other number an integer.
-/

namespace ShapeGrammar

/-- A JSON value. -/
inductive Json where
  | null
  | bool (b : Bool)
  | int (n : Int)
  | num (x : Float)
  | str (s : String)
  | arr (xs : List Json)
  | obj (members : List (String × Json))
deriving Inhabited

namespace Json

/-- How NaN and the infinities are written. -/
inductive NonFinite where
  | bare
  | quoted

/-- The escaped form of a string, between double quotes. -/
def escape (s : String) : String :=
  let body := s.toList.foldl (fun acc c =>
    acc ++ (if c == '"' then "\\\""
      else if c == '\\' then "\\\\"
      else if c == '\n' then "\\n"
      else if c == '\r' then "\\r"
      else if c == '\t' then "\\t"
      else if c == '\x08' then "\\b"
      else if c == '\x0c' then "\\f"
      else if c.toNat < 32 then "\\u" ++ Text.hexPadded 4 c.toNat
      else String.singleton c)) ""
  "\"" ++ body ++ "\""

/-- The text of a double. -/
def numberText (nf : NonFinite) (x : Float) : String :=
  let word := if x.isNaN then "NaN" else if x > 0 then "Infinity" else "-Infinity"
  if Number.isFinite x then Number.toText x
  else match nf with
    | .bare => word
    | .quoted => "\"" ++ word ++ "\""

mutual

/-- Compact text of a value. -/
def write (nf : NonFinite) : Json → String
  | .null => "null"
  | .bool b => if b then "true" else "false"
  | .int n => toString n
  | .num x => numberText nf x
  | .str s => escape s
  | .arr xs => "[" ++ writeItems nf xs ++ "]"
  | .obj ms => "\x7b" ++ writeMembers nf ms ++ "\x7d"

/-- The items of an array, separated by commas. -/
def writeItems (nf : NonFinite) : List Json → String
  | [] => ""
  | [x] => write nf x
  | x :: xs => write nf x ++ ", " ++ writeItems nf xs

/-- The members of an object, separated by commas. -/
def writeMembers (nf : NonFinite) : List (String × Json) → String
  | [] => ""
  | [(k, v)] => escape k ++ ": " ++ write nf v
  | (k, v) :: ms => escape k ++ ": " ++ write nf v ++ ", " ++ writeMembers nf ms

end

/-- Blanks that indent a line to a depth, two per level. -/
def pad (depth : Nat) : String := String.ofList (List.replicate (2 * depth) ' ')

mutual

/-- Text of a value laid out over lines: every item and member of a non-empty array or
object on a line of its own, indented two blanks per level, `depth` levels in. -/
def pretty (nf : NonFinite) (depth : Nat) : Json → String
  | .arr [] => "[]"
  | .arr xs => "[\n" ++ prettyItems nf (depth + 1) xs ++ "\n" ++ pad depth ++ "]"
  | .obj [] => "\x7b\x7d"
  | .obj ms => "\x7b\n" ++ prettyMembers nf (depth + 1) ms ++ "\n" ++ pad depth ++ "\x7d"
  | j => write nf j

/-- The items of an array, one per line. -/
def prettyItems (nf : NonFinite) (depth : Nat) : List Json → String
  | [] => ""
  | [x] => pad depth ++ pretty nf depth x
  | x :: xs => pad depth ++ pretty nf depth x ++ ",\n" ++ prettyItems nf depth xs

/-- The members of an object, one per line. -/
def prettyMembers (nf : NonFinite) (depth : Nat) : List (String × Json) → String
  | [] => ""
  | [(k, v)] => pad depth ++ escape k ++ ": " ++ pretty nf depth v
  | (k, v) :: ms => pad depth ++ escape k ++ ": " ++ pretty nf depth v ++ ",\n" ++ prettyMembers nf depth ms

end

/-- An optional text, `null` when absent. -/
def ofOption {α : Type} (f : α → Json) : Option α → Json
  | none => .null
  | some a => f a

/-- The member `k` of an object (the last one of that key). -/
def get? (j : Json) (k : String) : Option Json :=
  match j with
  | .obj ms => (ms.reverse.find? (·.1 == k)).map (·.2)
  | _ => none

/-- Members with later duplicates folded into the first position of their key, keeping the
last value, as a dictionary does. -/
def dedupe (ms : List (String × Json)) : List (String × Json) :=
  ms.foldl (fun acc (k, v) =>
    if acc.any (·.1 == k) then acc.map fun (k', v') => if k' == k then (k, v) else (k', v')
    else acc ++ [(k, v)]) []

/-- JSON blanks. -/
def isJsonBlank (c : Char) : Bool := c == ' ' || c == '\t' || c == '\n' || c == '\r'

/-- The rest of the input after blanks. -/
def skipBlank (cs : List Char) : List Char := cs.dropWhile isJsonBlank

/-- A number at the front: its text and the rest. -/
def spanNumber (cs : List Char) : List Char × List Char :=
  let ok (c : Char) := Text.isAsciiDigit c || c == '-' || c == '+' || c == '.' || c == 'e' || c == 'E'
  (cs.takeWhile ok, cs.dropWhile ok)

/-- The value of four hexadecimal digits. -/
def hex4 (cs : List Char) : Option Nat :=
  if cs.length == 4 && cs.all Text.isHexDigit then
    some (cs.foldl (fun acc c => 16 * acc + Text.hexValue c) 0)
  else none

/-- A string body after its opening quote: the characters and the rest after the closing
quote. A pair of escaped surrogates stands for one character. -/
def readString : Nat → List Char → List Char → Option (String × List Char)
  | 0, _, _ => none
  | _, [], _ => none
  | _ + 1, '"' :: rest, acc => some (String.ofList acc.reverse, rest)
  | fuel + 1, '\\' :: c :: rest, acc =>
    match c with
    | '"' => readString fuel rest ('"' :: acc)
    | '\\' => readString fuel rest ('\\' :: acc)
    | '/' => readString fuel rest ('/' :: acc)
    | 'b' => readString fuel rest ('\x08' :: acc)
    | 'f' => readString fuel rest ('\x0c' :: acc)
    | 'n' => readString fuel rest ('\n' :: acc)
    | 'r' => readString fuel rest ('\r' :: acc)
    | 't' => readString fuel rest ('\t' :: acc)
    | 'u' =>
      match hex4 (rest.take 4) with
      | none => none
      | some hi =>
        let rest := rest.drop 4
        if 0xD800 ≤ hi && hi < 0xDC00 then
          match rest with
          | '\\' :: 'u' :: more =>
            match hex4 (more.take 4) with
            | some lo =>
              if 0xDC00 ≤ lo && lo < 0xE000 then
                readString fuel (more.drop 4)
                  (Char.ofNat (0x10000 + (hi - 0xD800) * 0x400 + (lo - 0xDC00)) :: acc)
              else readString fuel rest (Char.ofNat 0xFFFD :: acc)
            | none => none
          | _ => readString fuel rest (Char.ofNat 0xFFFD :: acc)
        else readString fuel rest (Char.ofNat hi :: acc)
    | _ => none
  | fuel + 1, c :: rest, acc => readString fuel rest (c :: acc)

mutual

/-- A value at the front of the input and the rest; `fuel` bounds the nesting. -/
def readValue : Nat → List Char → Option (Json × List Char)
  | 0, _ => none
  | fuel + 1, cs =>
    match skipBlank cs with
    | 'n' :: 'u' :: 'l' :: 'l' :: rest => some (.null, rest)
    | 't' :: 'r' :: 'u' :: 'e' :: rest => some (.bool true, rest)
    | 'f' :: 'a' :: 'l' :: 's' :: 'e' :: rest => some (.bool false, rest)
    | 'N' :: 'a' :: 'N' :: rest => some (.num (0.0 / 0.0), rest)
    | 'I' :: 'n' :: 'f' :: 'i' :: 'n' :: 'i' :: 't' :: 'y' :: rest => some (.num (1.0 / 0.0), rest)
    | '-' :: 'I' :: 'n' :: 'f' :: 'i' :: 'n' :: 'i' :: 't' :: 'y' :: rest =>
      some (.num (-(1.0 / 0.0)), rest)
    | '"' :: rest => (readString (cs.length + 1) rest []).map fun (s, r) => (.str s, r)
    | '[' :: rest =>
      match skipBlank rest with
      | ']' :: r => some (.arr [], r)
      | _ => (readItems fuel rest []).map fun (xs, r) => (.arr xs, r)
    | '{' :: rest =>
      match skipBlank rest with
      | '}' :: r => some (.obj [], r)
      | _ => (readMembers fuel rest []).map fun (ms, r) => (.obj (dedupe ms), r)
    | cs =>
      let (t, rest) := spanNumber cs
      let text := String.ofList t
      if t.isEmpty then none
      else if t.any (fun c => c == '.' || c == 'e' || c == 'E') then
        (Number.readFloat? text).map fun x => (.num x, rest)
      else
        let (neg, digits) := match t with
          | '-' :: ds => (true, ds)
          | ds => (false, ds)
        if digits.isEmpty || !digits.all Text.isAsciiDigit then none
        else
          let n : Int := Number.digitsOf (digits.map fun c => c.toNat - 48)
          some (.int (if neg then -n else n), rest)

/-- The items of an array after its opening bracket, up to the closing one. -/
def readItems : Nat → List Char → List Json → Option (List Json × List Char)
  | 0, _, _ => none
  | fuel + 1, cs, acc =>
    match readValue fuel cs with
    | none => none
    | some (v, rest) =>
      match skipBlank rest with
      | ',' :: r => readItems fuel r (v :: acc)
      | ']' :: r => some ((v :: acc).reverse, r)
      | _ => none

/-- The members of an object after its opening brace, up to the closing one. -/
def readMembers : Nat → List Char → List (String × Json) → Option (List (String × Json) × List Char)
  | 0, _, _ => none
  | fuel + 1, cs, acc =>
    match skipBlank cs with
    | '"' :: rest =>
      match readString (cs.length + 1) rest [] with
      | none => none
      | some (k, rest) =>
        match skipBlank rest with
        | ':' :: rest =>
          match readValue fuel rest with
          | none => none
          | some (v, rest) =>
            match skipBlank rest with
            | ',' :: r => readMembers fuel r ((k, v) :: acc)
            | '}' :: r => some (((k, v) :: acc).reverse, r)
            | _ => none
        | _ => none
    | _ => none

end

/-- The value written by a whole text (blanks around it allowed). -/
def read? (s : String) : Option Json :=
  let cs := s.toList
  match readValue (2 * cs.length + 2) cs with
  | some (v, rest) => if (skipBlank rest).isEmpty then some v else none
  | none => none

end Json

end ShapeGrammar
