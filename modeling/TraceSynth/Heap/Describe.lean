import TraceSynth.Heap.Basic

/-!
# Describing values with their heap

The text of a value together with the objects it reaches:

* a primitive or a reference that names no object is its literal (`"s"`, `1`, `#9`);
* a function is `function NAME`;
* an array lists the values at indices `0 ..< length`, a missing index left empty: `[1, , 3]`;
* a plain object lists `key: value` in key order: `{a: 1, b: 2}`;
* an object already being described further up shows as `<cycle>`.

Keys are written as their bytes, so a description is a byte string.
-/

namespace TraceSynth

namespace Heap

/-- Join byte strings with a separator. -/
def joinBytes (sep : List UInt8) : List (List UInt8) → List UInt8
  | [] => []
  | [x] => x
  | x :: rest => x ++ sep ++ joinBytes sep rest

/-- The description of a value, with `visiting` the objects on the path to it. Each nested
object is a new entry of `visiting`, so `fuel` of one more than the heap size always
suffices. -/
def describeWith (h : Heap) : Nat → List Nat → Value → List UInt8
  | 0, _, v => (Bytes.ofString v.render).toList
  | fuel + 1, visiting, v =>
    match v, h.obj? v with
    | .ref id, some o =>
      if visiting.contains id then (Bytes.ofString "<cycle>").toList
      else
        let inner := describeWith h fuel (id :: visiting)
        match o.kind with
        | .function f => (Bytes.ofString ("function " ++ f.name)).toList
        | .array =>
          let items := (List.range o.length).map fun i =>
            match o.lookup (Bytes.ofString (toString i)) with
            | some e => inner e
            | none => []
          [0x5B] ++ joinBytes [0x2C, 0x20] items ++ [0x5D]
        | .plain =>
          let items := o.keys.map fun k => k.toList ++ [0x3A, 0x20] ++ inner (o.get k)
          [0x7B] ++ joinBytes [0x2C, 0x20] items ++ [0x7D]
    | _, _ => (Bytes.ofString v.render).toList

/-- The description of a value with the objects it reaches. -/
def describe (h : Heap) (v : Value) : Bytes := ⟨h.describeWith (h.size + 1) [] v⟩

end Heap

end TraceSynth
