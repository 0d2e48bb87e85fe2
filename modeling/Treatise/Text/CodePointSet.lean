/-!
# Sets of code points

A set of code points is given by the places, in ascending order, at which membership changes:
the first place opens a range, the second closes it, and so on. A code point is in the set when
the number of places up to it is odd, which a binary search finds.
-/

namespace Treatise.Text

/-- A set of code points, as the ascending places at which membership changes. -/
structure CodePointSet where
  places : Array Nat

namespace CodePointSet

/-- The number of places among those with index in `[lo, hi)` that are at most `n`, plus `lo`. -/
def rank (places : Array Nat) (n lo hi : Nat) : Nat :=
  if lo < hi then
    let mid := (lo + hi) / 2
    if places.getD mid 0 ≤ n then rank places n (mid + 1) hi else rank places n lo mid
  else lo
termination_by hi - lo

def contains (s : CodePointSet) (c : Char) : Bool :=
  rank s.places c.toNat 0 s.places.size % 2 == 1

end CodePointSet

end Treatise.Text
