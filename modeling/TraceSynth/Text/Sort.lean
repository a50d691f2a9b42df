/-!
# Stable sorting

Keys, places, positions and proposals are sorted stably: elements that compare equal keep the
order they came in. The sort here inserts each element into the sorted rest, by structural
recursion, so that it also runs when a statement about a whole search is checked by evaluation;
it puts out the same list as a stable merge sort.
-/

namespace TraceSynth

/-- Insert `a` into a list sorted by `le`, before the first element it may precede, so before
the elements equal to it. -/
def insertStable {α : Type} (le : α → α → Bool) (a : α) : List α → List α
  | [] => [a]
  | b :: l => if le a b then a :: b :: l else b :: insertStable le a l

/-- The list sorted by `le`, elements that compare equal in their order: each element inserted
into the sorted rest. -/
def sortStable {α : Type} (le : α → α → Bool) : List α → List α
  | [] => []
  | a :: l => insertStable le a (sortStable le l)

end TraceSynth
