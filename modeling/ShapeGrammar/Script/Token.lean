import ShapeGrammar.Fault
import ShapeGrammar.Text.Span
/-!
# Tokens of the script language

A script, with its comments blanked out, is read as a sequence of tokens separated by
blanks. At each place the kinds are tried in a fixed order and the first that fits
wins:

* a definition `#define name value` or `$name value` (`=` and blanks may separate them);
* a setting `set key value` or `@key value`;
* a rule head `rule name options {` or `#name options {`;
* a transform `{ operators }`, maybe preceded by a repeat count and `*`;
* a reference `name`, `name:option`, `name[param]` or `name:option[param]`;
* the brackets `(`, `|`, `)` of a group of alternatives and the `}` that ends a rule.

Inside a group a weight `w 2`, `weight 2` or `@w 2` is tried before all of these.

A `set`, `@`, `rule` or `#` that does not start a whole setting or rule head is an
error, as is a place where no kind fits. Where a pattern could take more or fewer
characters it takes the most with which the rest of its kind still fits, as
`Text.firstDown` tries them. `Script.scan` gives the tokens in order and, if it had to
stop, the problem and its offset; everything before the problem was read as tokens.
-/

namespace ShapeGrammar

namespace Script

/-- What a token is, with the parts of its text that the parser reads. -/
inductive Lexeme where
  | define (name value : String)
  | setting (key value : String)
  /-- A rule head; `options` is the text between the name and the brace. -/
  | rule (name options : String)
  /-- A transform; `count` is its repeat count as written. -/
  | transform (count : Option String) (ops : String)
  | reference (name : String) (option param : Option String)
  | openGroup
  | bar
  | closeGroup
  | closeRule
  | weight (value : String)
deriving DecidableEq, Repr

/-- A token: what it is, its text, and the offset of its first character. -/
structure Token where
  lexeme : Lexeme
  text : String
  position : Nat
deriving DecidableEq, Repr

/-- The result of matching at one place: a token of some length, or a problem. -/
inductive Match where
  | token (l : Lexeme) (length : Nat)
  | problem (p : SyntaxProblem)

/-- The keyword `w` at the front, as a whole word after `prev`. -/
def keywordAt (prev : Option Char) (cs : List Char) (w : String) : Bool :=
  Text.wordStartsAfter prev && Text.startsWith cs w && Text.wordEndsBefore (cs.drop w.length)

/-- A character that may stand in the value of a definition. -/
def isValueChar (c : Char) : Bool := !Text.isBlank c && !"{}()|".contains c

/-- A definition at the front: its name, value and length. The name gives back
characters to the separator and value when nothing else fits. -/
def defineAt (cs : List Char) : Option Match :=
  let head : Option Nat :=
    if Text.startsWith cs "#define" && Text.wordEndsBefore (cs.drop 7) then some 7
    else if cs.head? == some '$' then some 1 else none
  head.bind fun h =>
    let gap := Text.span Text.isBlank (cs.drop h)
    let start := h + gap
    let name := Text.nameLength (cs.drop start)
    Text.firstDown name fun n =>
      if n == 0 then none else
      let after := start + n
      let seps := Text.span (fun c => Text.isBlank c || c == '=') (cs.drop after)
      Text.firstDown seps fun s =>
        let v := Text.span isValueChar (cs.drop (after + s))
        if v == 0 then none
        else some (.token (.define (Text.slice cs start n) (Text.slice cs (after + s) v)) (after + s + v))

/-- The length of a setting's value at the front: `[...]`, `#` and hexadecimal digits, an
ASCII letter and word characters or any of `:,.#-`, or digits and points after an
optional minus. -/
def settingValueLength : List Char → Option Nat
  | '[' :: rest =>
    let inner := Text.span (· != ']') rest
    if (rest.drop inner).head? == some ']' then some (inner + 2) else none
  | '#' :: rest =>
    let n := Text.span Text.isHexDigit rest
    if n > 0 then some (n + 1) else none
  | '-' :: rest =>
    let n := Text.span (fun c => Text.isDigit c || c == '.') rest
    if n > 0 then some (n + 1) else none
  | c :: rest =>
    if Text.isAsciiLetter c then
      some (1 + Text.span (fun d => Text.isWordChar d || ":,.#-".contains d) rest)
    else if Text.isDigit c || c == '.' then
      some (1 + Text.span (fun d => Text.isDigit d || d == '.') rest)
    else none
  | [] => none

/-- The word that starts a setting, `set` or `@`, and its length. -/
def settingHead (prev : Option Char) (cs : List Char) : Option Nat :=
  if keywordAt prev cs "set" then some 3 else if cs.head? == some '@' then some 1 else none

/-- A setting at the front. The key, small letters and colons, gives back characters to
the value when the value does not fit after it. -/
def settingAt (prev : Option Char) (cs : List Char) : Option Match :=
  (settingHead prev cs).bind fun h =>
    let start := h + Text.span Text.isBlank (cs.drop h)
    let keyMax := Text.span (fun c => ('a' ≤ c && c ≤ 'z') || c == ':') (cs.drop start)
    Text.firstDown keyMax fun k =>
      let valueStart := start + k + Text.span Text.isBlank (cs.drop (start + k))
      (settingValueLength (cs.drop valueStart)).map fun v =>
        .token (.setting (Text.slice cs start k) (Text.slice cs valueStart v)) (valueStart + v)

/-- The word that starts a rule head, `rule` or `#`, and its length. -/
def ruleHead (prev : Option Char) (cs : List Char) : Option Nat :=
  if keywordAt prev cs "rule" then some 4 else if cs.head? == some '#' then some 1 else none

/-- A rule head at the front: a name, then options up to the first brace, which must
open. -/
def ruleAt (prev : Option Char) (cs : List Char) : Option Match :=
  (ruleHead prev cs).bind fun h =>
    let start := h + Text.span Text.isBlank (cs.drop h)
    let name := Text.nameLength (cs.drop start)
    let optionsStart := start + name
    let options := Text.span (fun c => c != '{' && c != '}') (cs.drop optionsStart)
    if name > 0 && (cs.drop (optionsStart + options)).head? == some '{' then
      some (.token (.rule (Text.slice cs start name) (Text.slice cs optionsStart options))
        (optionsStart + options + 1))
    else none

/-- The length of `{ ... }` at the front, with no brace inside. -/
def bracedLength (cs : List Char) : Option Nat :=
  match cs with
  | '{' :: rest =>
    let inner := Text.span (fun c => c != '{' && c != '}') rest
    if (rest.drop inner).head? == some '}' then some (inner + 2) else none
  | _ => none

/-- A transform at the front, with the digits of its repeat count if it has one. -/
def transformAt (cs : List Char) : Option Match :=
  let digits := Text.span Text.isDigit cs
  if digits > 0 then
    let start := digits + Text.span (fun c => Text.isBlank c || c == '*') (cs.drop digits)
    (bracedLength (cs.drop start)).map fun n =>
      .token (.transform (some (Text.slice cs 0 digits)) (Text.slice cs (start + 1) (n - 2))) (start + n)
  else (bracedLength cs).map fun n => .token (.transform none (Text.slice cs 1 (n - 2))) n

/-- A reference at the front: a name, then `:option` and `[param]` when present. -/
def referenceAt (cs : List Char) : Option Match :=
  let name := Text.nameLength cs
  if name == 0 then none else
  let option : Nat :=
    match cs.drop name with
    | ':' :: rest => Text.span (fun c => Text.isWordChar c || ".:-".contains c) rest
    | _ => 0
  let afterOption := if option > 0 then name + 1 + option else name
  let param : Option Nat :=
    match cs.drop afterOption with
    | '[' :: rest =>
      let inner := Text.span (· != ']') rest
      if (rest.drop inner).head? == some ']' then some inner else none
    | _ => none
  some (.token
    (.reference (Text.slice cs 0 name) (if option > 0 then some (Text.slice cs (name + 1) option) else none)
      (param.map fun n => Text.slice cs (afterOption + 1) n))
    (afterOption + (param.map (· + 2)).getD 0))

/-- A group's weight at the front: `@w`, `weight` or `w`, blanks, and a number that no
word character or point follows. -/
def weightAt (prev : Option Char) (cs : List Char) : Option Match :=
  let heads : List Nat :=
    (if Text.startsWith cs "@w" then [2] else [])
    ++ (if Text.wordStartsAfter prev && Text.startsWith cs "weight" then [6] else [])
    ++ (if Text.wordStartsAfter prev && Text.startsWith cs "w" then [1] else [])
  heads.findSome? fun h =>
    let start := h + Text.span Text.isBlank (cs.drop h)
    (Text.decimalLength (cs.drop start)).bind fun n =>
      match cs.drop (start + n) with
      | c :: _ => if Text.isWordChar c || c == '.' then none
        else some (.token (.weight (Text.slice cs start n)) (start + n))
      | [] => some (.token (.weight (Text.slice cs start n)) (start + n))

/-- The token or problem at a place that is not blank. `prev` is the character before
it, which decides whether a keyword starts a word; `inGroup` admits weights. -/
def matchAt (prev : Option Char) (inGroup : Bool) (cs : List Char) : Match :=
  let weight := if inGroup then weightAt prev cs else none
  let found := weight
    |>.orElse (fun _ => defineAt cs)
    |>.orElse (fun _ => settingAt prev cs)
    |>.orElse (fun _ => (settingHead prev cs).map fun _ => .problem .malformedSetting)
    |>.orElse (fun _ => ruleAt prev cs)
    |>.orElse (fun _ => (ruleHead prev cs).map fun _ => .problem .malformedRule)
    |>.orElse (fun _ => transformAt cs)
    |>.orElse (fun _ => referenceAt cs)
  match found with
  | some m => m
  | none =>
    match cs with
    | '(' :: _ => .token .openGroup 1
    | '|' :: _ => .token .bar 1
    | ')' :: _ => .token .closeGroup 1
    | '}' :: _ => .token .closeRule 1
    | _ => .problem (.noToken (String.ofList (cs.takeWhile (fun c => !Text.isBlank c))))

/-- The tokens of a script, and where the reading stopped on a problem, if it did. -/
structure Scan where
  tokens : List Token
  stop : Option (SyntaxProblem × Nat)

/-- The depth of groups after a token: an opening bracket adds one, a closing one takes
one away, never below zero. -/
def Lexeme.depthAfter (l : Lexeme) (depth : Nat) : Nat :=
  match l with
  | .openGroup => depth + 1
  | .closeGroup => depth - 1
  | _ => depth

/-- Read tokens from `cs`, which starts at offset `pos` after the character `prev`,
inside `depth` groups. A token is never empty; taking at least one character makes
that visible to the termination argument. -/
def scanFrom (prev : Option Char) (pos depth : Nat) (cs : List Char) : Scan :=
  match cs with
  | [] => ⟨[], none⟩
  | c :: rest =>
    if Text.isBlank c then scanFrom (some c) (pos + 1) depth rest
    else
      match matchAt prev (depth > 0) (c :: rest) with
      | .problem p => ⟨[], some (p, pos)⟩
      | .token l n =>
        let n := max n 1
        let taken := (c :: rest).take n
        let after := scanFrom (taken.getLast?) (pos + n) (l.depthAfter depth) (rest.drop (n - 1))
        ⟨⟨l, String.ofList taken, pos⟩ :: after.tokens, after.stop⟩
termination_by cs.length
decreasing_by
  all_goals simp only [List.length_cons, List.length_drop]
  all_goals omega

/-- The tokens of a script whose comments are blanked out. -/
def scan (source : String) : Scan := scanFrom none 0 0 source.toList

/-- A syntax problem at offset `pos` of `source`, with its line and column. -/
def problemAt (source : String) (p : SyntaxProblem) (pos : Nat) : Fault :=
  .malformed p (some (Spot.locate source.toList pos))

/-- The tokens of a script whose comments are blanked out, or the problem that stopped
the reading. -/
def tokens (source : String) : Except Fault (List Token) :=
  let s := scan source
  match s.stop with
  | some (p, pos) => .error (problemAt source p pos)
  | none => .ok s.tokens

end Script

end ShapeGrammar
