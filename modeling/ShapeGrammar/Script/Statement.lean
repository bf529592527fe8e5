/-!
# The statements of a script

A script is a list of statements: definitions of variables, settings, rules, and the
terms of a body. A term is a transform, applied to whatever follows it in the body, or
a reference to a rule or a shape. Inside a rule a group `( a | b w 2 )` offers
alternatives, each a list of terms with a weight.

`Statement.variants` removes the groups of a rule body: there is one variant for every
choice of a branch in each group (`Statement.choices`), in the order in which a counter with the first group
as its most significant digit runs through them, and each variant weighs the rule's
weight times the weights of the branches it took.
-/

namespace ShapeGrammar

namespace Script

/-- A term of a body: a transform, applied `count` times to what follows it, with the
offset of its token; or a reference. -/
inductive Term where
  | transform (count : Nat) (ops : String) (position : Nat)
  | reference (name : String) (option param : Option String)
deriving DecidableEq, Repr

/-- One alternative of a group: its weight and its terms. -/
structure Branch where
  weight : Float
  body : List Term

/-- The options of a rule: its weight among rules of the same name, the depth beyond
which it is not walked, and the label of the rule to walk instead. -/
structure RuleOptions where
  weight : Float
  maxDepth : Option Int
  fallback : Option String

/-- The options of a rule that gives none. -/
def RuleOptions.plain : RuleOptions := ⟨1.0, none, none⟩

/-- A statement of a script or of a rule body. -/
inductive Statement where
  | define (name value : String)
  | setting (key value : String)
  | rule (name : String) (options : RuleOptions) (body : List Statement)
  | term (t : Term)
  | group (branches : List Branch)

namespace Statement

/-- The choices of one branch for each group of a body, in the order of a counter whose
most significant digit is the first group, each with its weight: `weight` times the
weights of the branches taken, multiplied from left to right. -/
def choices (weight : Float) : List Statement → List (Float × List Branch)
  | [] => [(weight, [])]
  | .group branches :: rest =>
    branches.flatMap fun b => (choices (weight * b.weight) rest).map fun (w, bs) => (w, b :: bs)
  | _ :: rest => choices weight rest

/-- The body with its groups replaced, in order, by the terms of the chosen branches. -/
def substitute : List Statement → List Branch → List Statement
  | [], _ => []
  | .group _ :: rest, b :: bs => b.body.map .term ++ substitute rest bs
  | .group _ :: rest, [] => substitute rest []
  | s :: rest, bs => s :: substitute rest bs

/-- The bodies without groups that a body stands for, each with its weight. -/
def variants (weight : Float) (body : List Statement) : List (Float × List Statement) :=
  (choices weight body).map fun (w, bs) => (w, substitute body bs)

/-- The rules without groups that a rule stands for; a statement that is no rule stands
for none. -/
def expand : Statement → List Statement
  | .rule name options body =>
    (variants options.weight body).map fun (w, b) => .rule name { options with weight := w } b
  | _ => []

end Statement

end Script

end ShapeGrammar
