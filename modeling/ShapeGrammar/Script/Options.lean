import ShapeGrammar.Fault
import ShapeGrammar.Number.Reading
import ShapeGrammar.Number.Binary
import ShapeGrammar.Text.Span
import ShapeGrammar.Script.Statement
/-!
# Rule options

The text between a rule's name and its brace holds options: `weight 2` (also `w 2` and
`@w 2`) sets the rule's weight, `maxdepth 5` (also `md 5` and `@ 5`) its depth limit,
and `> label` the rule to walk instead when the limit is passed. A key is a run of small
letters and `@`; its number is an optional minus and a decimal without exponent. Later
options win over earlier ones. The options are found from left to right, each at the
first place where one fits; the text between two of them, before the first and after
the last must be blank.
-/

namespace ShapeGrammar

namespace Script

/-- One option as written. -/
inductive OptionItem where
  /-- A key and its number. -/
  | keyed (key number : String)
  /-- The label of the rule to walk instead. -/
  | fallback (label : String)
deriving DecidableEq, Repr

/-- The length of a number of an option at the front: an optional minus, then a decimal. -/
def signedLength (cs : List Char) : Option Nat :=
  match cs with
  | '-' :: rest => (Text.decimalLength rest).map (· + 1)
  | _ => Text.decimalLength cs

/-- The option at the front and its length, if one starts there. -/
def optionAt (cs : List Char) : Option (OptionItem × Nat) :=
  let key := Text.span (fun c => ('a' ≤ c && c ≤ 'z') || c == '@') cs
  let keyed : Option (OptionItem × Nat) :=
    if key == 0 then none else
    let start := key + Text.span Text.isBlank (cs.drop key)
    (signedLength (cs.drop start)).map fun n => (.keyed (Text.slice cs 0 key) (Text.slice cs start n), start + n)
  keyed.orElse fun _ =>
    match cs with
    | '>' :: rest =>
      let start := 1 + Text.span Text.isBlank rest
      let n := Text.nameLength (cs.drop start)
      if n > 0 then some (.fallback (Text.slice cs start n), start + n) else none
    | _ => none

namespace RuleOptions

/-- The options with one more option applied. -/
def apply (o : RuleOptions) : OptionItem → Except Fault RuleOptions
  | .fallback label => .ok { o with fallback := some label }
  | .keyed key number =>
    let x := (Number.readFloat? number).getD 0.0
    if key == "weight" || key == "w" || key == "@w" then .ok { o with weight := x }
    else if key == "maxdepth" || key == "md" || key == "@" then
      match Number.truncate? x with
      | some n => .ok { o with maxDepth := some n }
      | none => .error .infiniteToInteger
    else .error (.malformed (.unknownOption key) none)

/-- Text that stands between options and is not blank. -/
def stray (gap : List Char) : Fault :=
  .malformed (.unrecognisedOption (String.ofList (Text.trimList gap))) none

/-- Read the options in `cs` onto `o`; `gap` is the text since the last option. An
option is at least one character long. -/
def readFrom (o : RuleOptions) (gap : List Char) (cs : List Char) : Except Fault RuleOptions :=
  match cs with
  | [] => if gap.all Text.isBlank then .ok o else .error (stray gap)
  | c :: rest =>
    match optionAt (c :: rest) with
    | some (item, n) =>
      if gap.all Text.isBlank then
        match o.apply item with
        | .ok o => readFrom o [] (rest.drop (n - 1))
        | .error f => .error f
      else .error (stray gap)
    | none => readFrom o (gap ++ [c]) rest
termination_by cs.length
decreasing_by
  all_goals simp only [List.length_cons, List.length_drop]
  all_goals omega

/-- The options written in a text. -/
def read (text : String) : Except Fault RuleOptions := readFrom plain [] text.toList

end RuleOptions

end Script

end ShapeGrammar
