/-!
# Character classes as tables of ranges

A class of characters is a sorted array of disjoint closed ranges of code points.
Membership is a binary search, which is total by the shrinking width of the window.
-/

namespace ShapeGrammar

/-- Sorted, disjoint, closed ranges of code points. -/
structure RangeTable where
  ranges : Array (Nat × Nat)

namespace RangeTable

/-- `n` lies in one of the ranges at positions `lo ≤ i < hi`. -/
def containsIn (t : RangeTable) (n lo hi : Nat) : Bool :=
  if lo < hi then
    let mid := (lo + hi) / 2
    let r := t.ranges.getD mid (0, 0)
    if n < r.1 then t.containsIn n lo mid
    else if r.2 < n then t.containsIn n (mid + 1) hi
    else true
  else false
termination_by hi - lo

/-- The code point of `c` lies in one of the ranges. -/
def contains (t : RangeTable) (c : Char) : Bool := t.containsIn c.toNat 0 t.ranges.size

end RangeTable

end ShapeGrammar
