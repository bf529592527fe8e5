import ShapeGrammar.Fault
/-!
# Whole numbers as doubles

An integer becomes the double nearest to it, a tie going to the even neighbour. The
largest double is `(2 ^ 53 - 1) * 2 ^ 971`; half a unit above it lies `2 ^ 1024 - 2 ^ 970`,
from where rounding gives `2 ^ 1024`, which is no double. So an integer of that magnitude
or more has no nearest double, and converting it is a fault rather than an infinity.
-/

namespace ShapeGrammar

namespace Number

/-- The smallest magnitude of an integer that has no nearest double. -/
def wholeLimit : Nat := Nat.pow 2 1024 - Nat.pow 2 970

/-- The integer has a nearest double: its magnitude is below `wholeLimit`. -/
def fitsDouble (n : Int) : Bool := n.natAbs < wholeLimit

/-- The double nearest to an integer, ties to even; an integer too large in magnitude has
none. -/
def doubleOfInt? (n : Int) : Except Fault Float :=
  if fitsDouble n then .ok (Float.ofInt n) else .error .intTooLarge

theorem doubleOfInt?_of_fits {n : Int} (h : fitsDouble n = true) :
    doubleOfInt? n = .ok (Float.ofInt n) := by
  simp [doubleOfInt?, h]

theorem doubleOfInt?_of_not_fits {n : Int} (h : fitsDouble n = false) :
    doubleOfInt? n = .error .intTooLarge := by
  simp [doubleOfInt?, h]

end Number

end ShapeGrammar
