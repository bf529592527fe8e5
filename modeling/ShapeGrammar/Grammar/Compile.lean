import ShapeGrammar.Grammar.Basic
import ShapeGrammar.Variables
import ShapeGrammar.Settings.Basic
import ShapeGrammar.Script.Statement
import ShapeGrammar.Delta.Read
/-!
# Compiling statements into a grammar

The statements of a script are compiled in order into the root scope. A setting changes
the settings at once, so that later blocks and settings see it. A rule adds one rule to
the current scope for each of its variants (`Script.Statement.choices`), in order, and
compiles the variant's body into it before the next statement. A transform block's
operator text is read when it is compiled, with the variables of the whole script and
the settings' colour pool; a reference is kept as it is written.

Variables are collected from the definitions before anything is compiled, in the order
of the script with the bodies of rules at their places, so a definition anywhere in the
script is seen everywhere and the last one of a name wins.

Compiling stops at the first fault, leaving the settings as the statements before it
made them.
-/

namespace ShapeGrammar

open Script

/-- The definitions of statements, rule bodies at their places. -/
def definitions : List Statement → List (String × String)
  | [] => []
  | .define n v :: rest => (n, v) :: definitions rest
  | .rule _ _ body :: rest => definitions body ++ definitions rest
  | _ :: rest => definitions rest

/-- The variables that statements define: the last value of a name wins, its place is
that of its first definition. -/
def Variables.ofStatements (ss : List Statement) : Variables :=
  (definitions ss).foldl (fun v (n, x) => v.put n x) Variables.empty

/-- A grammar being compiled, and the settings so far. -/
structure Draft where
  grammar : Grammar
  settings : Settings

/-- The node of a term: a reference as written, or a block whose operator text is read
now, with the variables and the colour pool of the settings. A block is applied at
least once. -/
def Draft.node (d : Draft) (vars : Variables) : Term → Except Fault Node
  | .transform count ops _ =>
    (Delta.read ops vars.get? d.settings.pool).map fun delta => .block ⟨max count 1, ops, delta⟩
  | .reference name option param => .ok (.reference ⟨name, param, option⟩)

/-- Compile statements into the body of rule `rule`, after the nodes `nodes` already
compiled; `picks` are the branches chosen for the groups still to come. -/
def Draft.compileBody (vars : Variables) (rule : Nat) (picks : List Branch) (nodes : List Node)
    (ss : List Statement) (d : Draft) : Outcome Draft :=
  match ss with
  | [] => .done { d with grammar := d.grammar.setBody rule (Chain.ofNodes nodes) }
  | .define _ _ :: rest => compileBody vars rule picks nodes rest d
  | .setting key value :: rest =>
    (d.settings.set key value).andThen (fun s => { d with settings := s }) fun s =>
      compileBody vars rule picks nodes rest { d with settings := s }
  | .rule name options body :: rest =>
    let defined := (Statement.choices options.weight body).foldl
      (fun (acc : Outcome Draft) (w, bs) =>
        acc.andThen id fun d =>
          let (g, i) := d.grammar.addRule rule name w options.maxDepth options.fallback
          compileBody vars i bs [] body { d with grammar := g })
      (.done d)
    defined.andThen id fun d => compileBody vars rule picks nodes rest d
  | .term t :: rest =>
    match d.node vars t with
    | .ok n => compileBody vars rule picks (nodes ++ [n]) rest d
    | .error f => .failed d f
  | .group _ :: rest =>
    match picks with
    | b :: bs =>
      match b.body.mapM (d.node vars) with
      | .ok ns => compileBody vars rule bs (nodes ++ ns) rest d
      | .error f => .failed d f
    | [] => compileBody vars rule [] nodes rest d
termination_by sizeOf ss

/-- Paint bound to a pool is bound to `pool` instead. -/
def Paint.rebind (pool : Pool) (c : Paint) : Paint :=
  match c.pool with
  | some _ => { c with pool := some pool }
  | none => c

/-- The grammar with every block's pool-bound paint bound to `pool`: all the blocks of
one compilation draw from the one pool that the settings have at its end. -/
def Grammar.rebind (g : Grammar) (pool : Pool) : Grammar :=
  let block (b : Block) : Block :=
    { b with delta := { b.delta with paint := b.delta.paint.map (Paint.rebind pool) } }
  ⟨g.rules.map fun r => { r with body := r.body.map fun c => { c with blocks := c.blocks.map block } }⟩

end ShapeGrammar
