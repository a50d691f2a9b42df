import TraceSynth.Heap.Basic

/-!
# Structural equality across heaps

Two values, each in its own heap, are structurally equal when they are primitives with the same
value (NaN equal to NaN, the zeros equal), or references to objects of the same kind, name,
length and key list whose values under each key are structurally equal; two references that
name no object are equal too. A pair of references met again while comparing counts as equal,
so cyclic structures compare.
-/

namespace TraceSynth

namespace Heap

/-- Structural equality of `a` in `ha` and `b` in `hb`, given the reference pairs already met,
returning the pairs met afterwards. Each nested comparison meets a new pair of objects, so
fuel of one more than the number of object pairs always suffices. -/
def structEqWith (ha hb : Heap) :
    Nat → List (Nat × Nat) → Value → Value → Bool × List (Nat × Nat)
  | 0, seen, _, _ => (true, seen)
  | fuel + 1, seen, a, b =>
    match a, b with
    | .ref x, .ref y =>
      if seen.contains (x, y) then (true, seen)
      else
        let seen := (x, y) :: seen
        match ha.obj? a, hb.obj? b with
        | none, none => (true, seen)
        | some oa, some ob =>
          if oa.kind != ob.kind || oa.length != ob.length || oa.name != ob.name then (false, seen)
          else
            let ka := oa.keys
            if ka != ob.keys then (false, seen)
            else
              ka.foldl (fun (acc : Bool × List (Nat × Nat)) k =>
                if acc.1 then structEqWith ha hb fuel acc.2 (oa.get k) (ob.get k) else acc)
                (true, seen)
        | _, _ => (false, seen)
    | .ref _, _ | _, .ref _ => (false, seen)
    | _, _ => (a.sameValue b, seen)

/-- The fuel that structural comparison between two heaps never exhausts. -/
def pairFuel (ha hb : Heap) : Nat := (ha.size + 1) * (hb.size + 1) + 1

/-- Structural equality of two values in their heaps. -/
def structEq (ha : Heap) (a : Value) (hb : Heap) (b : Value) : Bool :=
  (structEqWith ha hb (pairFuel ha hb) [] a b).1

end Heap

end TraceSynth
