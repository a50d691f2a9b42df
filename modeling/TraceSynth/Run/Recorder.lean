import TraceSynth.Trace.Basic
import TraceSynth.Run.Fault
import TraceSynth.Heap.Describe

/-!
# The recording host

A function runs against a host that owns a copy of the input's heap. The host observes the
operations on tracked references, those that crossed the call boundary: the arguments, and
every object read from a tracked one through an observed operation. Each observed operation
becomes an event, and extends the alias sets of the values it produces:

* a read `o[k]` gives its result a fresh variable as current alias and, as prestates, each
  prestate of `o` with the field `k` read from it;
* a call's result, when already tracked, gets the call's variable as current alias.

Other operations run directly on the heap. Observation is off while an observed call runs its
callee. Every event and every loop iteration is charged to the budget; the first charge past it
fails, and every charge after that fails too.
-/

namespace TraceSynth

/-- The expressions known to denote one tracked reference. -/
structure Aliases where
  pre : List Expr := []
  cur : List Expr := []
  deriving Inhabited

/-- The state of one recording. -/
structure Recording where
  /-- The heap the function runs on. -/
  heap : Heap
  /-- The most events, and separately the most loop iterations, allowed. -/
  budget : Nat
  /-- The events so far. -/
  events : Array Event := #[]
  /-- The prestate expressions met so far. -/
  prestates : Array Expr := #[]
  /-- The constants used as operands so far. -/
  constants : Array Value := #[]
  /-- Whether operations are observed now. -/
  active : Bool := false
  /-- Whether a charge went past the budget. -/
  exhausted : Bool := false
  /-- Loop iterations charged. -/
  ticks : Nat := 0
  /-- The number of the next event variable. -/
  nextVar : Nat := 0
  /-- The alias sets of the tracked references, by reference number. -/
  tracked : List (Nat × Aliases) := []
  deriving Inhabited

/-- Running against the recording host: failures keep the state reached. -/
abbrev RecM := ExceptT Fault (StateM Recording)

namespace Recording

/-- The alias sets of a reference, if it is tracked. -/
def aliasesOf (r : Recording) (id : Nat) : Option Aliases := r.tracked.lookup id

/-- Change the alias sets of a reference, tracking it if it was not. -/
def modifyAliases (r : Recording) (id : Nat) (f : Aliases → Aliases) : Recording :=
  match r.aliasesOf id with
  | some a => { r with tracked := r.tracked.map fun p => if p.1 == id then (id, f a) else p }
  | none => { r with tracked := r.tracked ++ [(id, f {})] }

/-- Insert a field into a key-sorted snapshot, replacing an entry of the same key. -/
def insertField (k v : Bytes) : List (Bytes × Bytes) → List (Bytes × Bytes)
  | [] => [(k, v)]
  | (k', v') :: rest =>
    if k == k' then (k, v) :: rest
    else if k < k' then (k, v) :: (k', v') :: rest
    else (k', v') :: insertField k v rest

/-- The snapshot of an object first seen now: each field as its primitive's literal or as its
type in angle brackets, and an array's length. -/
def snapshot (r : Recording) (v : Value) : TraceExpr :=
  match r.heap.obj? v with
  | none => .alloc false []
  | some o =>
    let fields := o.keys.foldl (fun acc k =>
      let f := o.get k
      let shown := if f.isPrimitive then Bytes.ofString f.render
        else Bytes.ofString ("<" ++ r.heap.typeOf f ++ ">")
      insertField k shown acc) []
    let fields :=
      if o.isArray then insertField lengthKey (Bytes.ofString (toString o.length)) fields
      else fields
    .alloc o.isArray fields

end Recording

namespace Host

/-- Whether operations on a value are observed now. -/
def recorded (v : Value) : RecM Bool := do
  let r ← get
  match v with
  | .ref id => pure (r.active && (r.aliasesOf id).isSome)
  | _ => pure false

/-- The trace expression of a value now; a primitive joins the constant pool. -/
def texpr (v : Value) : RecM TraceExpr := do
  match v with
  | .ref id =>
    let r ← get
    match r.aliasesOf id with
    | some a =>
      if !a.pre.isEmpty && !a.cur.isEmpty then pure (.general a.pre a.cur)
      else pure (r.snapshot v)
    | none => pure (r.snapshot v)
  | _ =>
    modify fun r => { r with constants := r.constants.push v }
    pure (.const v)

/-- A fresh event variable. -/
def freshVar : RecM String := do
  let r ← get
  set { r with nextVar := r.nextVar + 1 }
  pure ("n" ++ toString r.nextVar)

/-- Append an event, charging it to the budget. -/
def emit (ev : Event) : RecM Unit := do
  let r ← get
  if r.exhausted then throw .exhausted
  let r := { r with events := r.events.push ev }
  if r.events.size > r.budget then
    set { r with exhausted := true }
    throw .exhausted
  set r

/-- Charge one loop iteration to the budget. -/
def tick : RecM Unit := do
  let r ← get
  if r.exhausted then throw .exhausted
  let r := { r with ticks := r.ticks + 1 }
  if r.ticks > r.budget then
    set { r with exhausted := true }
    throw .exhausted
  set r

/-- The constant naming a property: a number for an array index, else the key string. -/
def keyExpr (o : Obj) (k : Bytes) : RecM TraceExpr :=
  match o.isArray, Value.arrayIndex k with
  | true, some i => texpr (.nat i)
  | _, _ => texpr (.string k)

/-- Register the prestates of a read's result. -/
def addPreState (v : Value) (exprs : List Expr) : RecM Unit :=
  modify fun r =>
    let r := { r with prestates := r.prestates ++ exprs.toArray }
    match v with
    | .ref id => r.modifyAliases id fun a => { a with pre := a.pre ++ exprs }
    | _ => r

/-- Register a current alias of a value. -/
def addCurState (v : Value) (e : Expr) : RecM Unit :=
  modify fun r =>
    match v with
    | .ref id => r.modifyAliases id fun a => { a with cur := a.cur ++ [e] }
    | _ => r

/-- The object a property operation works on, with its reference number; a nullish value
fails with a type error naming the verb. -/
def objectOf (obj key : Value) (verb : String) : RecM (Option (Nat × Obj) × Bytes) := do
  let k := Value.propertyKey key
  if obj.isNullish then
    throw (.typeError (Bytes.ofString ("Cannot " ++ verb ++ " property '") ++ k ++
      Bytes.ofString "' of " ++ obj.toBytes))
  let r ← get
  match obj, r.heap.obj? obj with
  | .ref id, some o => pure (some (id, o), k)
  | _, _ => pure (none, k)

/-- A property of a primitive: a string's length and its single bytes, else undefined. -/
def primitiveGet (obj : Value) (k : Bytes) : Value :=
  match obj with
  | .string s =>
    if k == lengthKey then .nat s.size
    else match Value.arrayIndex k with
      | some i => match s.get? i with
        | some b => .string ⟨[b]⟩
        | none => .undefined
      | none => .undefined
  | _ => .undefined

/-- Read `obj[key]`. -/
def getProp (obj key : Value) : RecM Value := do
  let (o?, k) ← objectOf obj key "read"
  match o? with
  | none => pure (primitiveGet obj k)
  | some (_, o) =>
    let v := o.get k
    if !(← recorded obj) then return v
    let target ← texpr obj
    let name ← keyExpr o k
    let var ← freshVar
    emit (.get target name var)
    addPreState v (target.preState.map fun p => .field p name.expr)
    addCurState v (.var var)
    pure v

/-- Write `obj[key] = val`, observed when `obj` is; `verb` names the operation in errors. -/
def write (obj key val : Value) (verb : String) : RecM Unit := do
  let (o?, k) ← objectOf obj key verb
  match o? with
  | none => pure ()
  | some (id, o) =>
    if ← recorded obj then
      let target ← texpr obj
      let name ← keyExpr o k
      let value ← texpr val
      emit (.set target name value)
    match o.set k val with
    | .ok o' => modify fun r => { r with heap := r.heap.update id o' }
    | .error e => throw (.runtime .rangeError (Bytes.ofString e.message))

/-- Write `obj[key] = val`. -/
def setProp (obj key val : Value) : RecM Unit := write obj key val "set"

/-- Define `obj[key] = val`, observed like a write. -/
def defineProp (obj key val : Value) : RecM Unit := write obj key val "define"

/-- Delete `obj[key]`; an array's length cannot be deleted. -/
def deleteProp (obj key : Value) : RecM Unit := do
  let (o?, k) ← objectOf obj key "delete"
  match o? with
  | none => pure ()
  | some (id, o) =>
    if ← recorded obj then
      let target ← texpr obj
      let name ← keyExpr o k
      emit (.delete target name)
    let (ok, o') := o.delete k
    if !ok then
      let h := (← get).heap
      throw (.typeError (Bytes.ofString "Cannot delete property '" ++ k ++ Bytes.ofString "' of " ++
        h.describe obj))
    modify fun r => { r with heap := r.heap.update id o' }

/-- Allocate a fresh, unobserved array or object. -/
def allocate (array : Bool) : RecM Value := do
  let r ← get
  let (v, h) := if array then r.heap.newArray [] else r.heap.newObject
  set { r with heap := h }
  pure v

/-- The type name of a value. -/
def typeOf (v : Value) : RecM String := do pure ((← get).heap.typeOf v)

/-- Whether a value is an array. -/
def isArray (v : Value) : RecM Bool := do pure ((← get).heap.isArray v)

/-- Run with observation off, restoring it afterwards, also on failure. -/
def suspended (x : RecM α) : RecM α := do
  let prev := (← get).active
  modify fun r => { r with active := false }
  tryCatch
    (do
      let v ← x
      modify fun r => { r with active := prev }
      pure v)
    (fun e => do
      modify fun r => { r with active := prev }
      throw e)

end Host

end TraceSynth
