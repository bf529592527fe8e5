/-!
# Line ends

A script file may end its lines with a line feed, a carriage return and line feed pair,
or a lone carriage return. Reading a script makes them uniform: every line end becomes
one line feed, so that lines and columns of messages count the same in all three.
-/

namespace ShapeGrammar

namespace Text

/-- The characters with every carriage return and line feed pair, and every lone carriage
return, replaced by a line feed. -/
def unifyLineEnds : List Char → List Char
  | '\r' :: '\n' :: rest => '\n' :: unifyLineEnds rest
  | '\r' :: rest => '\n' :: unifyLineEnds rest
  | c :: rest => c :: unifyLineEnds rest
  | [] => []

/-- The text of a file with its line ends made uniform. -/
def withUniformLineEnds (s : String) : String := String.ofList (unifyLineEnds s.toList)

/-- No carriage return is left. -/
theorem cr_not_mem_unifyLineEnds (cs : List Char) : '\r' ∉ unifyLineEnds cs := by
  induction cs using unifyLineEnds.induct <;> simp_all [unifyLineEnds, eq_comm]

end Text

end ShapeGrammar
