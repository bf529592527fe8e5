import ShapeGrammar.Build.Record
import ShapeGrammar.Build.InPlace
import ShapeGrammar.Grammar.Compile
import ShapeGrammar.Script.Parse
/-!
# Structures

A `Structure` is a script compiled under settings given by its caller: the overrides
from which every compilation starts, the settings and variables the last compilation
left, its grammar and its seed.

`Structure.compile` reads a script, starts from fresh settings, collects the variables
and compiles the statements. A script that cannot be read changes nothing. A script that
fails while compiling leaves the settings and variables it had reached, and keeps the
grammar and seed of the last compilation that succeeded.

`Structure.build` walks the grammar with the generator seeded by the settings' seed, or
by the structure's own seed when the script set none. Builds of one structure with the
same variables place the same objects.
-/

namespace ShapeGrammar

/-- A compiled script and what it was compiled under. -/
structure Structure where
  overrides : List (String × Json)
  settings : Settings
  vars : Variables
  grammar : Option Grammar
  seed : Int

namespace Structure

/-- A structure with nothing compiled yet, under the caller's overrides. -/
def create (overrides : List (String × Json)) : Outcome Structure :=
  (Settings.ofOverrides overrides).map fun s => ⟨overrides, s, Variables.empty, none, 0⟩

/-- The number of rules, the root scope not counted. -/
def ruleCount (st : Structure) : Nat :=
  match st.grammar with
  | some g => g.size - 1
  | none => 0

/-- Compile a script with a seed. -/
def compile (st : Structure) (script : String) (seed : Int) : Outcome Structure :=
  match Script.parse script with
  | .error f => .failed st f
  | .ok ss =>
    (Settings.ofOverrides st.overrides).andThen (fun _ => st) fun s =>
      let vars := Variables.ofStatements ss
      let o := Draft.compileBody vars 0 [] [] ss ⟨Grammar.empty, s⟩
      let reached := { st with settings := o.state.settings, vars := vars }
      match o.fault with
      | some f => ⟨reached, o.notices, some f⟩
      | none =>
        let g := o.state.grammar.rebind o.state.settings.pool
        ⟨{ reached with grammar := some g, seed := seed }, o.notices, none⟩

/-- A structure made from overrides and compiled from a script. -/
def ofScript (overrides : List (String × Json)) (script : String) (seed : Int) : Outcome Structure :=
  (create overrides).andThen id fun st => st.compile script seed

/-- Give a variable a value. -/
def setVariable (st : Structure) (name value : String) : Structure :=
  { st with vars := st.vars.put name value }

/-- Remove a variable; removing one that is not set is a fault. -/
def eraseVariable (st : Structure) (name : String) : Except Fault Structure :=
  match st.vars.get? name with
  | some _ => .ok { st with vars := st.vars.erase name }
  | none => .error (.missingKey name)

/-- The seed a build starts from. -/
def buildSeed (st : Structure) : Int := st.settings.seed.getD st.seed

/-- Build with an observer, from its initial state. -/
def build {σ : Type} (st : Structure) (obs : Observer σ) (init : σ) : Except Fault (Progress σ) :=
  match st.grammar with
  | none => .error .notCompiled
  | some g => InPlace.run (Scene.of g st.settings st.vars) obs init st.buildSeed

/-- Build with a recorder. -/
def record (st : Structure) (r : Recorder) : Except Fault (Progress Record) :=
  st.build r.observer Record.empty

end Structure

end ShapeGrammar
