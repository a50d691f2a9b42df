import TraceSynth.Value.Convert
import TraceSynth.Heap.Native

/-!
# Heaps of objects

A heap holds the objects that references name: plain objects, arrays and native functions.
An object keeps its own properties by key, the keys that are no array index in insertion
order, and, for an array, its length.

Arrays follow these rules:

* `length` is always an own property of an array and reads as its length;
* writing an index key at or past the length grows the length to one past it;
* writing `length` takes any primitive whose number is an integer in `0 ..= 2^31 - 1`, deletes
  every index property at or past it, and fails on anything else;
* `length` cannot be deleted.

The keys of an object list its index keys first, ascending and written as plain decimals, then
its other keys in insertion order; a key deleted and written again counts as new.
-/

namespace TraceSynth

/-- What kind of object a heap cell holds. -/
inductive ObjKind where
  /-- A plain object. -/
  | plain
  /-- An array. -/
  | array
  /-- A native function. -/
  | function (f : Native)
  deriving DecidableEq, Inhabited

/-- A heap object. -/
structure Obj where
  /-- The kind of object. -/
  kind : ObjKind
  /-- The own properties, one entry per key, in no particular order. -/
  props : List (Bytes × Value) := []
  /-- The own keys that are no array index, in insertion order. -/
  order : List Bytes := []
  /-- The length of an array; zero for other objects. -/
  length : Nat := 0
  deriving Inhabited

/-- Writing an array's length with a value that is no valid length. -/
structure InvalidLength where
  deriving DecidableEq, Inhabited

namespace InvalidLength

/-- The message of the failure. -/
def message (_ : InvalidLength) : String := "Invalid array length"

end InvalidLength

/-- The key `length`. -/
def lengthKey : Bytes := "length"

namespace Obj

/-- The name of a function object, empty for others. -/
def name (o : Obj) : String :=
  match o.kind with
  | .function f => f.name
  | _ => ""

/-- Whether the object is an array. -/
def isArray (o : Obj) : Bool := o.kind == .array

/-- The stored value of a key, if the key is an own property (arrays' `length` aside). -/
def lookup (o : Obj) (key : Bytes) : Option Value :=
  (o.props.find? (·.1 == key)).map (·.2)

/-- Whether a key is an own property. -/
def has (o : Obj) (key : Bytes) : Bool :=
  (o.isArray && key == lengthKey) || (o.lookup key).isSome

/-- The value of an own property, undefined when absent. -/
def get (o : Obj) (key : Bytes) : Value :=
  if o.isArray && key == lengthKey then Value.nat o.length
  else (o.lookup key).getD .undefined

/-- The properties with a key's entry written. -/
def store (props : List (Bytes × Value)) (key : Bytes) (v : Value) : List (Bytes × Value) :=
  if props.any (·.1 == key) then props.map fun p => if p.1 == key then (key, v) else p
  else props ++ [(key, v)]

/-- Write an array's length. -/
def setLength (o : Obj) (v : Value) : Except InvalidLength Obj :=
  let n := v.toNumber
  if v.isRef || n < 0 || !Binary64.isWhole n || n > 2147483647 then .error {}
  else
    let newLen := n.toUInt64.toNat
    .ok { o with
      props := o.props.filter fun p => match Value.arrayIndex p.1 with
        | some i => i < newLen
        | none => true
      length := newLen }

/-- Write an own property. -/
def set (o : Obj) (key : Bytes) (v : Value) : Except InvalidLength Obj :=
  if o.isArray && key == lengthKey then o.setLength v
  else
    match o.isArray, Value.arrayIndex key with
    | true, some i => .ok { o with props := store o.props key v, length := max o.length (i + 1) }
    | _, idx =>
      let fresh := (o.lookup key).isNone && idx.isNone
      .ok { o with props := store o.props key v,
                   order := if fresh then o.order ++ [key] else o.order }

/-- Delete an own property: false for an array's `length`, which stays. -/
def delete (o : Obj) (key : Bytes) : Bool × Obj :=
  if o.isArray && key == lengthKey then (false, o)
  else if (o.lookup key).isNone then (true, o)
  else (true, { o with props := o.props.filter (·.1 != key), order := o.order.erase key })

/-- Insert a number into an ascending list, after equal ones. -/
def insertAscending (n : Nat) : List Nat → List Nat
  | [] => [n]
  | m :: rest => if n < m then n :: m :: rest else m :: insertAscending n rest

/-- The own keys: index keys ascending as plain decimals, then the others in insertion order. -/
def keys (o : Obj) : List Bytes :=
  let indices := o.props.filterMap fun p => Value.arrayIndex p.1
  let sorted := indices.foldl (fun acc i => insertAscending i acc) []
  sorted.map (fun i => Bytes.ofString (toString i)) ++ o.order

/-- A fresh array holding the given elements, at the keys `0`, `1`, … -/
def ofElems (elems : List Value) : Obj :=
  { kind := .array, props := elems.zipIdx.map fun (v, i) => (Bytes.ofString (toString i), v),
    length := elems.length }

end Obj

/-- The objects of one argument vector, numbered from 1 in allocation order. -/
structure Heap where
  /-- The objects; reference `i` names the entry at position `i - 1`. -/
  objects : Array Obj := #[]
  deriving Inhabited

namespace Heap

/-- The number of objects allocated. -/
def size (h : Heap) : Nat := h.objects.size

/-- Add an object; its reference is one past the previous count. -/
def alloc (h : Heap) (o : Obj) : Value × Heap :=
  (.ref (h.objects.size + 1), { objects := h.objects.push o })

/-- Allocate an empty plain object. -/
def newObject (h : Heap) : Value × Heap := h.alloc { kind := .plain }

/-- Allocate an array holding the given elements. -/
def newArray (h : Heap) (elems : List Value) : Value × Heap := h.alloc (Obj.ofElems elems)

/-- Allocate a native function object. -/
def newFunction (h : Heap) (f : Native) : Value × Heap := h.alloc { kind := .function f }

/-- The object a value references, if it references one. -/
def obj? (h : Heap) (v : Value) : Option Obj :=
  match v with
  | .ref id => if id == 0 then none else h.objects[id - 1]?
  | _ => none

/-- Replace the object a reference names. -/
def update (h : Heap) (id : Nat) (o : Obj) : Heap :=
  if id == 0 then h else { objects := h.objects.set! (id - 1) o }

/-- The type name of a value: `function` for function objects. -/
def typeOf (h : Heap) (v : Value) : String :=
  match h.obj? v with
  | some { kind := .function _, .. } => "function"
  | _ => v.typeOf

/-- Whether a value references an array. -/
def isArray (h : Heap) (v : Value) : Bool :=
  match h.obj? v with
  | some o => o.isArray
  | none => false

end Heap

end TraceSynth
