import TraceSynth.Toml.Document

/-!
# Which keys a TOML document has defined

Before an expression is decoded, its keys are checked against the keys defined before it, so
that nothing is defined twice and nothing is both a value and a table. Each key path seen is
marked with what it names (a value, a table, or an array of tables), whether it is defined
explicitly, and whether a dotted key of a pair made it.

* A header `[a.b]` may pass through tables and arrays of tables, not values; the table it
  names must not be a value or array, nor be defined already.
* A table made by a dotted key counts as defined once a header follows the table that holds
  the pair.
* A header `[[a]]` names an array of tables; repeating it starts a new table, so what was
  defined under the previous one is forgotten.
* A pair defines its last key as a value; the keys before it may only pass through tables made
  by dotted keys, not values, arrays or explicit tables. An inline table's own pairs are
  checked apart, as a document of their own, and so are the inline tables inside arrays.
-/

namespace TraceSynth.Toml

/-- What a key path names. -/
inductive KeyKind where
  | value
  | table
  | arrayTable
  deriving Inhabited, BEq, Repr

/-- The name of a kind, as messages give it. -/
def KeyKind.name : KeyKind → String
  | .value => "value"
  | .table => "table"
  | .arrayTable => "array table"

/-- A key path seen. -/
structure Mark where
  path : List String
  kind : KeyKind
  /-- Whether the path is defined and may not be opened again. -/
  explicit : Bool
  /-- Whether a dotted key of a pair made the path, and no header has closed its table yet. -/
  byPair : Bool
  deriving Inhabited

/-- The key paths seen, and the path of the table that pairs go into. -/
structure Seen where
  marks : List Mark := []
  current : List String := []
  deriving Inhabited

namespace Seen

/-- The mark of a path. -/
def find? (s : Seen) (path : List String) : Option Mark := s.marks.find? (·.path == path)

/-- Change the mark of a path. -/
def update (s : Seen) (path : List String) (f : Mark → Mark) : Seen :=
  { s with marks := s.marks.map fun m => if m.path == path then f m else m }

/-- Mark a new path. -/
def create (s : Seen) (m : Mark) : Seen := { s with marks := s.marks ++ [m] }

/-- Whether `path` lies strictly below `top`. -/
def isBelow (top path : List String) : Bool := top.isPrefixOf path && top.length < path.length

/-- Count every table a pair made below `top` as defined. -/
def closePairs (s : Seen) (top : List String) : Seen :=
  { s with marks := s.marks.map fun m =>
      if isBelow top m.path && m.byPair then { m with explicit := true, byPair := false } else m }

/-- Forget what was defined below `top`. -/
def forgetBelow (s : Seen) (top : List String) : Seen :=
  { s with marks := s.marks.filter fun m => !isBelow top m.path }

/-- Walk the parts of a header before its last, which may pass through tables and arrays of
tables and make the missing ones; the path reached. -/
def headerPrefix (s : Seen) (parent : List String) :
    List String → Except String (Seen × List String)
  | [] => .ok (s, parent)
  | k :: more =>
    let path := parent ++ [k]
    match s.find? path with
    | none => headerPrefix (s.create ⟨path, .table, false, false⟩) path more
    | some m =>
      if m.kind == .value then
        .error ("toml: expected " ++ k ++ " to be a table, not a " ++ m.kind.name)
      else headerPrefix s path more

/-- Check a table header. -/
def checkTable (s : Seen) (key : List String) : Except String Seen := do
  let s := s.closePairs s.current
  let (s, parent) ← s.headerPrefix [] key.dropLast
  let k := key.getLastD ""
  let path := parent ++ [k]
  match s.find? path with
  | some m =>
    if m.kind != .table then
      throw ("toml: key " ++ k ++ " should be a table, not a " ++ m.kind.name)
    if m.explicit then throw ("toml: table " ++ k ++ " already exists")
    pure { s.update path (fun m => { m with explicit := true }) with current := path }
  | none => pure { s.create ⟨path, .table, true, false⟩ with current := path }

/-- Check an array-table header. -/
def checkArrayTable (s : Seen) (key : List String) : Except String Seen := do
  let s := s.closePairs s.current
  let (s, parent) ← s.headerPrefix [] key.dropLast
  let k := key.getLastD ""
  let path := parent ++ [k]
  match s.find? path with
  | some m =>
    if m.kind != .arrayTable then
      throw ("toml: key " ++ m.kind.name ++ " already exists as a " ++ k ++
        ",  but should be an array table")
    pure { s.forgetBelow path with current := path }
  | none => pure { s.create ⟨path, .arrayTable, true, false⟩ with current := path }

/-- Walk the parts of a pair's key from `parent`, making the missing ones; the path of the
last part. -/
def pairPath (s : Seen) (parent : List String) : List String → Except String (Seen × List String)
  | [] => .ok (s, parent)
  | k :: more =>
    let path := parent ++ [k]
    match s.find? path with
    | none => pairPath (s.create ⟨path, .table, false, true⟩) path more
    | some m =>
      if more.isEmpty then .error ("toml: key " ++ k ++ " is already defined")
      else if m.kind != .table then
        .error ("toml: expected " ++ k ++ " to be a table, not a " ++ m.kind.name)
      else if m.explicit then
        .error ("toml: cannot redefine table " ++ k ++ " that has already been explicitly defined")
      else pairPath s path more

mutual

/-- Check a pair of the table at `s.current`, and the inline tables in its value. -/
def checkPair (s : Seen) (key : List String) (v : Item) : Except String Seen := do
  let (s, path) ← s.pairPath s.current key
  let s := s.update path fun m => { m with kind := .value }
  checkItem v
  pure s

/-- Check the inline tables in a value, each as a document of its own. -/
def checkItem : Item → Except String Unit
  | .inlineTable pairs => checkPairs {} pairs
  | .array items => checkItems items
  | _ => .ok ()

/-- Check the items of an array. -/
def checkItems : List Item → Except String Unit
  | [] => .ok ()
  | v :: rest => do checkItem v; checkItems rest

/-- Check the pairs of an inline table in order. -/
def checkPairs (s : Seen) : List (List String × Item) → Except String Unit
  | [] => .ok ()
  | (k, v) :: rest => do
    let s ← s.checkPair k v
    checkPairs s rest

end

/-- Check an expression against what was defined before it. -/
def check (s : Seen) : Expression → Except String Seen
  | .pair key v => s.checkPair key v
  | .table key => s.checkTable key
  | .arrayTable key => s.checkArrayTable key

end Seen

end TraceSynth.Toml
