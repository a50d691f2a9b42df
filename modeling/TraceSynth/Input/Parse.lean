import TraceSynth.Input.Basic
import TraceSynth.Yaml.Parse
import TraceSynth.Text.Quoted

/-!
# Reading inputs from YAML

A literal is a YAML sequence whose items are the arguments. A sequence becomes an array,
allocated after its items; a mapping becomes a plain object, allocated before its values, with
each key's text as the property name; an alias is read again as a fresh copy of its anchored
node. Scalars keep their schema type: null, booleans, and integers and floats as numbers; the
plain untagged scalar `undefined` is undefined; every other scalar is a string.

An alias that refers to a node containing it would be copied without end; reading stops there
with a problem instead. Every copy descends one node of the document, so a depth of one more
than the document's node count is reached only through such a cycle.
-/

namespace TraceSynth

/-- Why a literal is not an input. -/
inductive InputError where
  /-- The text is not YAML. -/
  | malformed (p : Yaml.Problem)
  /-- The document is not a sequence; its root has this tag. -/
  | notSequence (tag : String)
  /-- A boolean-tagged scalar whose text is not a boolean. -/
  | invalidBoolean (text : String) (reason : String)
  /-- A number-tagged scalar whose text is not a number. -/
  | invalidNumber (text : String) (reason : String)
  /-- A property write was refused. -/
  | invalidLength
  /-- An alias refers to a node that contains it. -/
  | selfContaining (anchor : String)
  deriving Inhabited

namespace InputError

/-- The text of an input error. -/
def message : InputError → String
  | .malformed p => "failed to parse input literal: " ++ p.message
  | .notSequence tag => "input literal must be a sequence of arguments, got " ++ tag
  | .invalidBoolean text reason =>
    "invalid boolean " ++ Quoted.quote (Bytes.ofString text) ++ ": " ++ reason
  | .invalidNumber text reason =>
    "invalid number " ++ Quoted.quote (Bytes.ofString text) ++ ": " ++ reason
  | .invalidLength => InvalidLength.message {}
  | .selfContaining anchor =>
    "failed to parse input literal: yaml: anchor '" ++ anchor ++ "' value contains itself"

end InputError

namespace Yaml.Node

mutual

/-- The number of nodes of a tree. -/
def size : Node → Nat
  | .scalar _ _ _ _ => 1
  | .alias _ _ _ => 1
  | .sequence _ items _ => 1 + listSize items
  | .mapping _ entries _ => 1 + entriesSize entries

/-- The number of nodes of a list of trees. -/
def listSize : List Node → Nat
  | [] => 0
  | n :: rest => size n + listSize rest

/-- The number of nodes of a list of pairs of trees. -/
def entriesSize : List (Node × Node) → Nat
  | [] => 0
  | (k, v) :: rest => size k + size v + entriesSize rest

end

end Yaml.Node

namespace Input

open Yaml in
/-- The value of a scalar with its tag: null, a boolean or a number as the tag says (its text
must fit the tag), `undefined` when written plain and untagged, else a string. -/
def scalarValue (tag text : String) (plain : Bool) : Except InputError Value :=
  if tag == "!!null" then .ok .null
  else if tag == "!!bool" then
    match decodeAs tag text with
    | .ok (.bool b) => .ok (.bool b)
    | .ok r => .error (.invalidBoolean text ("yaml: cannot decode " ++ r.tag ++ " as a !!bool"))
    | .error e => .error (.invalidBoolean text e)
  else if tag == "!!int" || tag == "!!float" then
    match decodeAs tag text with
    | .ok (.int n) => .ok (.number (intToFloat n))
    | .ok (.float x) => .ok (.number x)
    | .ok r => .error (.invalidNumber text ("yaml: cannot decode " ++ r.tag ++ " as a " ++ tag))
    | .error e => .error (.invalidNumber text e)
  else if plain && text == "undefined" then .ok .undefined
  else .ok (.string (Bytes.ofString text))

/-- Store `v` under the text of `key` in the object `obj` that a mapping builds; a refused
write is an invalid length. -/
def storeEntry (obj : Value) (key : Yaml.Node) (v : Value) (h : Heap) :
    Except InputError Heap :=
  match obj, h.obj? obj with
  | .ref id, some o =>
    match o.set (Bytes.ofString key.keyText) v with
    | .ok o => pure (h.update id o)
    | .error _ => .error .invalidLength
  | _, _ => pure h

/-- One more item of a sequence, read with `read` after the values read so far. -/
def readItem (read : Heap → Yaml.Node → Except InputError (Value × Heap))
    (acc : Array Value × Heap) (item : Yaml.Node) : Except InputError (Array Value × Heap) := do
  let (v, h) ← read acc.2 item
  pure (acc.1.push v, h)

/-- One more entry of a mapping: its value read with `read`, then stored in `obj` under its
key. -/
def readEntry (read : Heap → Yaml.Node → Except InputError (Value × Heap)) (obj : Value)
    (h : Heap) (entry : Yaml.Node × Yaml.Node) : Except InputError Heap := do
  let (v, h) ← read h entry.2
  storeEntry obj entry.1 v h

/-- One more argument of an input, read with `read`. -/
def readArg (read : Heap → Yaml.Node → Except InputError (Value × Heap)) (i : Input)
    (item : Yaml.Node) : Except InputError Input := do
  let (v, h) ← read i.heap item
  pure { heap := h, args := i.args ++ [v] }

open Yaml in
/-- The value of a node, allocating the objects it needs in `h`. `via` is the anchor of the
last alias followed, named when the depth runs out. -/
def valueOf (doc : Document) (via : String) :
    Nat → Heap → Node → Except InputError (Value × Heap)
  | 0, _, _ => .error (.selfContaining via)
  | fuel + 1, h, .alias name id _ =>
    match doc.anchored[id]? with
    | some n => valueOf doc name fuel h n
    | none => .error (.selfContaining name)
  | fuel + 1, h, .sequence _ items _ => do
    let (vals, h) ← items.foldlM (readItem (valueOf doc via fuel)) (#[], h)
    pure (h.newArray vals.toList)
  | fuel + 1, h, .mapping _ entries _ => do
    let (obj, h) := h.newObject
    let h ← entries.foldlM (readEntry (valueOf doc via fuel) obj) h
    pure (obj, h)
  | _ + 1, h, .scalar tag text plain _ => do
    let v ← scalarValue tag text plain
    pure (v, h)

/-- Read an input from a document's node graph: each item of the top-level sequence is an
argument, and a document without a root is the empty input. -/
def ofDocument (doc : Yaml.Document) : Except InputError Input :=
  match doc.root with
  | none => .ok {}
  | some root@(.sequence _ items _) =>
    items.foldlM (readArg (valueOf doc "" (root.size + 1))) {}
  | some root => .error (.notSequence root.tag)

/-- Read an input from a YAML literal. -/
def parse (text : String) : Except InputError Input :=
  match Yaml.Document.parse text with
  | .error p => .error (.malformed p)
  | .ok doc => ofDocument doc

end Input

end TraceSynth
