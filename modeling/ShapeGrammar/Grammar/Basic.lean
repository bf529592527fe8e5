import ShapeGrammar.Delta.Basic
import ShapeGrammar.Random.Twister
/-!
# Grammars

A compiled script is a `Grammar`: an arena of rules in which a rule's index is its
position. Rule 0 is the root scope, `$root`, which holds the top level of the script;
every other rule has a parent of smaller index, the rule whose body defined it, and
every rule lists its children by name in the order they were defined.

A rule's body is a list of chains. A chain is a list of transform blocks followed by the
reference they apply to: each block is applied its count of times, and after each
application the rest of the chain is walked. A chain without reference can only end a
body.

`Grammar.find` resolves a label from a scope outward: the first scope on the way to the
root with children of that name decides. One child is taken as it is; among several, one
draw of the generator picks a child with chance proportional to its weight.
-/

namespace ShapeGrammar

/-- A transform block of a rule body: its delta, applied `count` times, and its text. -/
structure Block where
  count : Nat
  source : String
  delta : Delta

/-- A reference to a rule, or to a shape when no rule in scope has the label. -/
structure Reference where
  label : String
  param : Option String
  option : Option String
deriving DecidableEq, Repr

/-- A node of a rule body as written. -/
inductive Node where
  | block (b : Block)
  | reference (r : Reference)

/-- Transform blocks and the reference they apply to, if the body has one after them. -/
structure Chain where
  blocks : List Block
  target : Option Reference

namespace Chain

/-- The chains of a body as written: each reference ends a chain, and blocks after the
last reference make a chain without target. -/
def ofNodes (nodes : List Node) : List Chain :=
  let (chains, pending) := nodes.foldl
    (fun (acc : List Chain × List Block) n =>
      match n with
      | .block b => (acc.1, acc.2 ++ [b])
      | .reference r => (acc.1 ++ [⟨acc.2, some r⟩], []))
    ([], [])
  if pending.isEmpty then chains else chains ++ [⟨pending, none⟩]

/-- The nodes of a chain in order. -/
def nodes (c : Chain) : List Node :=
  c.blocks.map .block ++ (c.target.map fun r => [Node.reference r]).getD []

end Chain

/-- A rule of a grammar. -/
structure Rule where
  name : String
  parent : Option Nat
  weight : Float
  maxDepth : Option Int
  fallback : Option String
  /-- The indices of the rules it defines, by name, names in the order first defined. -/
  children : List (String × List Nat)
  body : List Chain

namespace Rule

/-- The name of the root scope. -/
def rootName : String := "$root"

/-- The root scope, before the script's top level is compiled into it. -/
def root : Rule := ⟨rootName, none, 1.0, none, none, [], []⟩

@[simp] theorem name_root : root.name = rootName := rfl

@[simp] theorem parent_root : root.parent = none := rfl

@[simp] theorem maxDepth_root : root.maxDepth = none := rfl

/-- The indices of the children of a name. -/
def childrenNamed (r : Rule) (name : String) : List Nat :=
  ((r.children.find? (·.1 == name)).map (·.2)).getD []

/-- The children with one more index under a name. -/
def addChild (r : Rule) (name : String) (i : Nat) : Rule :=
  if r.children.any (·.1 == name) then
    { r with children := r.children.map fun e => if e.1 == name then (name, e.2 ++ [i]) else e }
  else { r with children := r.children ++ [(name, [i])] }

end Rule

namespace Weighted

/-- The weights of candidates added one after another to `acc`, from the first. -/
def sumFrom {α : Type} [Add α] (w : Nat → α) (acc : α) (cs : List Nat) : α :=
  cs.foldl (fun acc i => acc + w i) acc

/-- The first candidate whose running total of weights, from `acc` on, passes `draw`. -/
def firstPast {α : Type} [Add α] [LT α] [DecidableLT α] (w : Nat → α) (draw acc : α) :
    List Nat → Option Nat
  | [] => none
  | i :: rest =>
    let acc := acc + w i
    if draw < acc then some i else firstPast w draw acc rest

/-- The candidate that a draw `u` from `[0, 1)` picks: the first whose running total of
weights exceeds `u` times the total, or else the last. -/
def pick {α : Type} [Zero α] [Add α] [Mul α] [LT α] [DecidableLT α] (w : Nat → α) (u : α)
    (cs : List Nat) : Option Nat :=
  (firstPast w (u * sumFrom w 0 cs) 0 cs).or cs.getLast?

end Weighted

/-- An arena of rules; rule 0 is the root scope. -/
structure Grammar where
  rules : Array Rule

namespace Grammar

/-- The grammar with only the root scope. -/
def empty : Grammar := ⟨#[Rule.root]⟩

/-- The rule at an index. -/
def rule? (g : Grammar) (i : Nat) : Option Rule := g.rules[i]?

/-- The number of rules, the root scope included. -/
def size (g : Grammar) : Nat := g.rules.size

/-- The grammar with a new rule defined in `parent`, and the new rule's index. -/
def addRule (g : Grammar) (parent : Nat) (name : String) (weight : Float)
    (maxDepth : Option Int) (fallback : Option String) : Grammar × Nat :=
  let i := g.rules.size
  let rules := g.rules.push ⟨name, some parent, weight, maxDepth, fallback, [], []⟩
  (⟨rules.modify parent fun r => r.addChild name i⟩, i)

/-- The grammar with the body of rule `i` set. -/
def setBody (g : Grammar) (i : Nat) (body : List Chain) : Grammar :=
  ⟨g.rules.modify i fun r => { r with body := body }⟩

/-- The scopes from `s` to the root, `s` first. A parent has a smaller index than its
child, so `fuel` at least `s + 1` reaches the root. -/
def scopesFrom (g : Grammar) (fuel s : Nat) : List Nat :=
  match fuel with
  | 0 => []
  | fuel + 1 =>
    match g.rule? s with
    | none => []
    | some r =>
      match r.parent with
      | none => [s]
      | some p => s :: g.scopesFrom fuel p

/-- The scopes from `s` to the root, `s` first. -/
def scopes (g : Grammar) (s : Nat) : List Nat := g.scopesFrom (s + 1) s

/-- The children named `label` of the first scope from `s` outward that has any. -/
def candidates (g : Grammar) (s : Nat) (label : String) : List Nat :=
  ((g.scopes s).findSome? fun t =>
    match g.rule? t with
    | some r => if (r.childrenNamed label).isEmpty then none else some (r.childrenNamed label)
    | none => none).getD []

/-- The weight of the rule at an index. -/
def weightOf (g : Grammar) (i : Nat) : Float := ((g.rule? i).map (·.weight)).getD 0.0

/-- The rule a label names from scope `s`, and the generator after the draw, if one was
needed: one candidate is taken as it is, and among several one draw picks by weight. -/
def find (g : Grammar) (s : Nat) (label : String) (tw : Twister) : Option Nat × Twister :=
  match g.candidates s label with
  | [] => (none, tw)
  | [i] => (some i, tw)
  | cs =>
    let (u, tw) := tw.next
    (Weighted.pick g.weightOf u cs, tw)

end Grammar

end ShapeGrammar
