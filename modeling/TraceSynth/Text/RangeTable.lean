/-!
# Tables of code point ranges

A character property is kept as a sorted array of disjoint closed ranges of code points.
Membership is decided by binary search over the ranges.
-/

namespace TraceSynth

/-- A character property as sorted, disjoint, closed ranges `(lo, hi)` of code points. -/
structure RangeTable where
  /-- The ranges, in increasing order. -/
  ranges : Array (Nat × Nat)

namespace RangeTable

/-- Whether a code point lies in one of the ranges `lo ..< hi` of the table's array. -/
def search (t : Array (Nat × Nat)) (c : Nat) (lo hi : Nat) (hhi : hi ≤ t.size) : Bool :=
  if h : lo < hi then
    let mid := lo + (hi - lo) / 2
    have hmid : mid < t.size := by omega
    let r := t[mid]
    if c < r.1 then search t c lo mid (by omega)
    else if r.2 < c then search t c (mid + 1) hi hhi
    else true
  else false
termination_by hi - lo

/-- Whether the property holds of a code point. -/
def contains (t : RangeTable) (c : Nat) : Bool := search t.ranges c 0 t.ranges.size (Nat.le_refl _)

end RangeTable

end TraceSynth
