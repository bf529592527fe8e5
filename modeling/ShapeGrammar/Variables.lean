/-!
# Variables

The variables of a compiled script: names with text values, in the order in which each
name was first given a value. Giving a name a new value keeps its place; removing a
name removes its place.
-/

namespace ShapeGrammar

/-- Names with text values, in the order first set. -/
structure Variables where
  entries : List (String × String)
deriving DecidableEq, Repr

namespace Variables

/-- No variables. -/
def empty : Variables := ⟨[]⟩

/-- The value of a name. -/
def get? (v : Variables) (name : String) : Option String :=
  (v.entries.find? (·.1 == name)).map (·.2)

/-- Give a name a value: in place when it has one, at the end otherwise. -/
def put (v : Variables) (name value : String) : Variables :=
  if v.entries.any (·.1 == name) then
    ⟨v.entries.map fun e => if e.1 == name then (name, value) else e⟩
  else ⟨v.entries ++ [(name, value)]⟩

/-- Remove a name. -/
def erase (v : Variables) (name : String) : Variables :=
  ⟨v.entries.filter (·.1 != name)⟩

end Variables

end ShapeGrammar
