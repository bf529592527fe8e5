import ShapeGrammar.Number.Reading
import ShapeGrammar.Script.Comment
import ShapeGrammar.Script.Token
import ShapeGrammar.Script.Options
/-!
# Reading a script into statements

`Script.parse` blanks out the comments of a script, reads its tokens and builds its
statements by the grammar

    script ::= (define | setting | rule | term)*
    rule   ::= ruleHead (define | setting | rule | term | group)* "}"
    group  ::= "(" item* ("|" item*)* ")"
    item   ::= term | weight

where a term is a transform or a reference. A group is allowed only inside a rule, and
a weight only inside a group, where the last weight of a branch counts. The tokens are
read in order and the first one that does not fit stops the reading with a fault at its
line and column; when the tokens run out because the scan stopped at a problem, that
problem is the fault. Each reading function returns what is left of the tokens, which
is never longer than what it was given, and so the reading ends.
-/

namespace ShapeGrammar

namespace Script

/-- What is left of a token list after reading from it: never longer than the list. -/
def Rest (ts : List Token) : Type := {r : List Token // r.length ≤ ts.length}

/-- What is left after reading from the tail is what is left after reading from the list. -/
def Rest.widen {t : Token} {ts : List Token} (r : Rest ts) : Rest (t :: ts) :=
  ⟨r.1, by have := r.2; simp only [List.length_cons]; omega⟩

/-- What the reading needs besides the tokens: the script, for lines and columns, and
the fault that ended the tokens early, if one did. -/
structure Reader where
  source : List Char
  stop : Option Fault

namespace Reader

/-- A problem at a token. -/
def fault (rd : Reader) (p : SyntaxProblem) (tok : Token) : Fault :=
  .malformed p (some (Spot.locate rd.source tok.position))

/-- A fault of rule options, placed at the rule's token; a fault that is no syntax
problem stays as it is. -/
def placed (rd : Reader) (f : Fault) (tok : Token) : Fault :=
  match f with
  | .malformed p none => rd.fault p tok
  | f => f

end Reader

/-- The term that a token stands for, if it is a transform or a reference. A transform
without repeat count is applied once. -/
def Token.term? (tok : Token) : Option Term :=
  match tok.lexeme with
  | .transform count ops =>
    some (.transform ((count.bind Number.readNat?).getD 1) ops tok.position)
  | .reference name option param => some (.reference name option param)
  | _ => none

/-- Read the rest of a group opened by `opening`: the branches so far, and the weight
and terms of the branch being read. -/
def readGroup (rd : Reader) (opening : Token) (branches : List Branch) (weight : Float)
    (items : List Term) (ts : List Token) : Except Fault (List Branch × Rest ts) :=
  match ts with
  | [] => .error (rd.stop.getD (rd.fault .unclosedGroup opening))
  | tok :: rest =>
    match tok.lexeme with
    | .closeRule => .error (rd.fault .unclosedGroup opening)
    | .closeGroup => .ok (branches ++ [⟨weight, items⟩], ⟨rest, by simp⟩)
    | .bar =>
      (readGroup rd opening (branches ++ [⟨weight, items⟩]) 1.0 [] rest).map
        fun (bs, r) => (bs, r.widen)
    | .weight w =>
      (readGroup rd opening branches ((Number.readFloat? w).getD 0.0) items rest).map
        fun (bs, r) => (bs, r.widen)
    | _ =>
      match tok.term? with
      | some t => (readGroup rd opening branches weight (items ++ [t]) rest).map
        fun (bs, r) => (bs, r.widen)
      | none => .error (rd.fault (.notInGroup tok.text) tok)

/-- Read statements after `acc` until the end of the body: the `}` of the rule whose head
and name are `rule`, or the end of the tokens at the top. -/
def readBody (rd : Reader) (rule : Option (Token × String)) (acc : List Statement)
    (ts : List Token) : Except Fault (List Statement × Rest ts) :=
  match ts with
  | [] =>
    match rd.stop, rule with
    | some f, _ => .error f
    | none, some (head, name) => .error (rd.fault (.unclosedRule name) head)
    | none, none => .ok (acc, ⟨[], by simp⟩)
  | tok :: rest =>
    match tok.lexeme with
    | .closeRule =>
      match rule with
      | none => .error (rd.fault (.unexpected tok.text) tok)
      | some _ => .ok (acc, ⟨rest, by simp⟩)
    | .define name value =>
      (readBody rd rule (acc ++ [.define name value]) rest).map fun (b, r) => (b, r.widen)
    | .setting key value =>
      (readBody rd rule (acc ++ [.setting key value]) rest).map fun (b, r) => (b, r.widen)
    | .rule name options =>
      match RuleOptions.read options with
      | .error f => .error (rd.placed f tok)
      | .ok o =>
        match readBody rd (some (tok, name)) [] rest with
        | .error f => .error f
        | .ok (inner, r) =>
          (readBody rd rule (acc ++ [.rule name o inner]) r.1).map
            fun (b, r') => (b, ⟨r'.1, by have := r.2; have := r'.2; simp only [List.length_cons]; omega⟩)
    | .openGroup =>
      match rule with
      | none => .error (rd.fault .groupOutsideRule tok)
      | some _ =>
        match readGroup rd tok [] 1.0 [] rest with
        | .error f => .error f
        | .ok (branches, r) =>
          (readBody rd rule (acc ++ [.group branches]) r.1).map
            fun (b, r') => (b, ⟨r'.1, by have := r.2; have := r'.2; simp only [List.length_cons]; omega⟩)
    | _ =>
      match tok.term? with
      | some t => (readBody rd rule (acc ++ [.term t]) rest).map fun (b, r) => (b, r.widen)
      | none => .error (rd.fault (.unexpected tok.text) tok)
termination_by ts.length
decreasing_by
  all_goals simp only [List.length_cons]
  all_goals first
    | omega
    | (have hr := r.2; omega)

/-- The statements of a script. -/
def parse (script : String) : Except Fault (List Statement) :=
  let source := stripComments script
  let s := scan source
  let rd : Reader := ⟨source.toList, s.stop.map fun (p, pos) => problemAt source p pos⟩
  (readBody rd none [] s.tokens).map Prod.fst

end Script

end ShapeGrammar
