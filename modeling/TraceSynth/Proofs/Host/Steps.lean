import TraceSynth.Run.Record

/-!
# Host computations, step by step

A host computation starts from a recording state and ends with a result or a fault, and a new
state. This module gives that run as equations for the monad's own operations and for the
primitives the host operations are built from, so that later proofs rewrite with them instead of
unfolding the host.

* `RecM.exec`: the run of a computation from a state; `exec_bind` and `exec_tryCatch` take a
  composite apart.
* `Keeps I x`: `x` ends in a state satisfying `I` whenever it starts in one, returning or
  failing. It composes along `bind`, `tryCatch` and `mapM` (`Keeps.bind`, …).
* `Recording.operand`: the trace expression `texpr` gives a value in a state, with
  `texpr_exec`, `freshVar_exec`, `emit_exec` and the alias updates beside it.
-/

namespace TraceSynth

namespace RecM

variable {α β : Type}

/-- The result and the final state of a host computation started in `r`. -/
def exec (x : RecM α) (r : Recording) : Except Fault α × Recording := x.run.run r

@[simp]
theorem exec_pure (a : α) (r : Recording) : (pure a : RecM α).exec r = (.ok a, r) := rfl

theorem exec_bind (x : RecM α) (f : α → RecM β) (r : Recording) :
    (x >>= f).exec r =
      match x.exec r with
      | (.ok a, r') => (f a).exec r'
      | (.error e, r') => (.error e, r') := by
  simp only [exec, ExceptT.run_bind, StateT.run_bind]
  rcases x.run.run r with ⟨_ | _, _⟩ <;> rfl

@[simp]
theorem exec_throw (e : Fault) (r : Recording) : (throw e : RecM α).exec r = (.error e, r) := rfl

@[simp]
theorem exec_throwThe (e : Fault) (r : Recording) :
    (throwThe Fault e : RecM α).exec r = (.error e, r) := rfl

@[simp]
theorem exec_get (r : Recording) : (get : RecM Recording).exec r = (.ok r, r) := rfl

@[simp]
theorem exec_set (r' r : Recording) : (set r' : RecM PUnit).exec r = (.ok PUnit.unit, r') := rfl

@[simp]
theorem exec_modify (f : Recording → Recording) (r : Recording) :
    (modify f : RecM PUnit).exec r = (.ok PUnit.unit, f r) := rfl

theorem exec_tryCatch (x : RecM α) (h : Fault → RecM α) (r : Recording) :
    (tryCatch x h).exec r =
      match x.exec r with
      | (.ok a, r') => (.ok a, r')
      | (.error e, r') => (h e).exec r' := by
  show (ExceptT.tryCatch x h).run.run r = _
  simp only [ExceptT.tryCatch, ExceptT.run_mk, StateT.run_bind, exec]
  change (StateT.run x r >>= _) = match StateT.run x r with
    | (.ok a, r') => _
    | (.error e, r') => _
  rcases StateT.run x r with ⟨_ | _, _⟩ <;> rfl

/-- A computation that returns goes on with its continuation from the state it ends in. -/
theorem exec_bind_of_ok {x : RecM α} (f : α → RecM β) {r : Recording} {a : α}
    (hx : (x.exec r).1 = .ok a) : (x >>= f).exec r = (f a).exec (x.exec r).2 := by
  rw [exec_bind]
  rcases hres : x.exec r with ⟨_ | a', r'⟩ <;> rw [hres] at hx
  · cases hx
  · cases hx
    rfl

theorem exec_map (f : α → β) (x : RecM α) (r : Recording) :
    (f <$> x).exec r =
      match x.exec r with
      | (.ok a, r') => (.ok (f a), r')
      | (.error e, r') => (.error e, r') := by
  rw [← bind_pure_comp, exec_bind]
  rcases x.exec r with ⟨_ | _, _⟩ <;> rfl

end RecM

open RecM

/-- A host computation keeps a property of recording states: from a state that has it, the
computation ends in a state that has it, whether it returns or fails. -/
def Keeps (I : Recording → Prop) {α : Type} (x : RecM α) : Prop :=
  ∀ r, I r → I (x.exec r).2

namespace Keeps

variable {I : Recording → Prop} {α β : Type}

theorem pure (a : α) : Keeps I (Pure.pure a : RecM α) := fun _ h => h

theorem throw (e : Fault) : Keeps I (MonadExcept.throw e : RecM α) := fun _ h => h

theorem throwThe (e : Fault) : Keeps I (throwThe Fault e : RecM α) := fun _ h => h

theorem get : Keeps I (MonadState.get : RecM Recording) := fun _ h => h

theorem modify {f : Recording → Recording} (hf : ∀ r, I r → I (f r)) :
    Keeps I (modify f : RecM PUnit) := fun r h => hf r h

theorem bind {x : RecM α} {f : α → RecM β} (hx : Keeps I x) (hf : ∀ a, Keeps I (f a)) :
    Keeps I (x >>= f) := by
  intro r hr
  rw [exec_bind]
  have hmid := hx r hr
  rcases hres : x.exec r with ⟨_ | a, r'⟩
  · rw [hres] at hmid
    exact hmid
  · rw [hres] at hmid
    exact hf a r' hmid

theorem map {x : RecM α} (f : α → β) (hx : Keeps I x) : Keeps I (f <$> x) := by
  rw [← bind_pure_comp]
  exact hx.bind fun a => pure (f a)

theorem tryCatch {x : RecM α} {h : Fault → RecM α} (hx : Keeps I x) (hh : ∀ e, Keeps I (h e)) :
    Keeps I (MonadExcept.tryCatch x h) := by
  intro r hr
  rw [exec_tryCatch]
  have hmid := hx r hr
  rcases hres : x.exec r with ⟨e | a, r'⟩
  · rw [hres] at hmid
    exact hh e r' hmid
  · rw [hres] at hmid
    exact hmid

theorem ite {c : Prop} [Decidable c] {x y : RecM α} (hx : Keeps I x) (hy : Keeps I y) :
    Keeps I (if c then x else y) := by
  split
  · exact hx
  · exact hy

theorem mapM {f : α → RecM β} (hf : ∀ a, Keeps I (f a)) :
    ∀ xs : List α, Keeps I (xs.mapM f)
  | [] => pure []
  | x :: xs => by
    rw [List.mapM_cons]
    exact (hf x).bind fun b => (mapM hf xs).bind fun bs => pure (b :: bs)

end Keeps

namespace Recording

/-- The trace expression of a value in a state: a constant for a primitive, the alias sets of
a reference tracked on both sides, and a snapshot of any other reference. -/
def operand (r : Recording) : Value → TraceExpr
  | .ref id =>
    match r.aliasesOf id with
    | some a =>
      if !a.pre.isEmpty && !a.cur.isEmpty then .general a.pre a.cur else r.snapshot (.ref id)
    | none => r.snapshot (.ref id)
  | v => .const v

/-- The state once a value has been turned into an operand: a primitive joins the pool. -/
def noteOperand (r : Recording) : Value → Recording
  | .ref _ => r
  | v => { r with constants := r.constants.push v }

@[simp] theorem noteOperand_events (r : Recording) (v : Value) :
    (r.noteOperand v).events = r.events := by
  cases v <;> rfl

@[simp] theorem noteOperand_tracked (r : Recording) (v : Value) :
    (r.noteOperand v).tracked = r.tracked := by
  cases v <;> rfl

@[simp] theorem noteOperand_active (r : Recording) (v : Value) :
    (r.noteOperand v).active = r.active := by
  cases v <;> rfl

@[simp] theorem noteOperand_nextVar (r : Recording) (v : Value) :
    (r.noteOperand v).nextVar = r.nextVar := by
  cases v <;> rfl

@[simp] theorem noteOperand_heap (r : Recording) (v : Value) :
    (r.noteOperand v).heap = r.heap := by
  cases v <;> rfl

/-- Noting an operand changes only the constant pool, so later operands are the same. -/
@[simp] theorem operand_noteOperand (r : Recording) (v w : Value) :
    (r.noteOperand v).operand w = r.operand w := by
  cases v <;> rfl

@[simp] theorem foldl_noteOperand_events (vs : List Value) (r : Recording) :
    (vs.foldl noteOperand r).events = r.events := by
  induction vs generalizing r <;> simp_all

@[simp] theorem foldl_noteOperand_tracked (vs : List Value) (r : Recording) :
    (vs.foldl noteOperand r).tracked = r.tracked := by
  induction vs generalizing r <;> simp_all

@[simp] theorem foldl_noteOperand_nextVar (vs : List Value) (r : Recording) :
    (vs.foldl noteOperand r).nextVar = r.nextVar := by
  induction vs generalizing r <;> simp_all

/-- Whether operations on a value are observed in a state. -/
def observes (r : Recording) : Value → Bool
  | .ref id => r.active && (r.aliasesOf id).isSome
  | _ => false

end Recording

namespace Host

theorem texpr_exec (v : Value) (r : Recording) :
    (texpr v).exec r = (.ok (r.operand v), r.noteOperand v) := by
  cases v with
  | ref id =>
    simp only [texpr, exec_bind, exec_get, Recording.operand, Recording.noteOperand]
    rcases r.aliasesOf id with _ | a
    · rfl
    · by_cases h : (!a.pre.isEmpty && !a.cur.isEmpty) = true <;> simp [h]
  | _ => rfl

/-- The operands of a list of values, each noted in turn. -/
theorem mapM_texpr_exec (vs : List Value) (r : Recording) :
    (vs.mapM texpr).exec r = (.ok (vs.map r.operand), vs.foldl Recording.noteOperand r) := by
  induction vs generalizing r with
  | nil => rfl
  | cons v vs ih =>
    rw [List.mapM_cons, exec_bind, texpr_exec]
    dsimp only
    rw [exec_bind, ih]
    simp [List.foldl_cons]

theorem tick_exec (r : Recording) :
    tick.exec r =
      if r.exhausted then (.error .exhausted, r)
      else if r.budget < r.ticks + 1 then
        (.error .exhausted, { r with ticks := r.ticks + 1, exhausted := true })
      else (.ok (), { r with ticks := r.ticks + 1 }) := by
  simp only [tick, exec_bind, exec_get]
  by_cases hx : r.exhausted = true
  · simp [hx]
  · by_cases hb : r.budget < r.ticks + 1 <;> simp [hx, hb, exec_bind]

theorem freshVar_exec (r : Recording) :
    freshVar.exec r = (.ok ("n" ++ toString r.nextVar), { r with nextVar := r.nextVar + 1 }) :=
  rfl

theorem emit_exec (ev : Event) (r : Recording) :
    (emit ev).exec r =
      if r.exhausted then (.error .exhausted, r)
      else if r.budget < r.events.size + 1 then
        (.error .exhausted, { r with events := r.events.push ev, exhausted := true })
      else (.ok (), { r with events := r.events.push ev }) := by
  simp only [emit, exec_bind, exec_get]
  by_cases hx : r.exhausted = true
  · simp [hx]
  · by_cases hb : r.budget < r.events.size + 1 <;> simp [hx, hb, exec_bind]

theorem recorded_exec (v : Value) (r : Recording) :
    (recorded v).exec r = (.ok (r.observes v), r) := by
  cases v <;> rfl

/-- The constant naming key `k` of `o`: its index for an array index key, else the key. -/
def keyValue (o : Obj) (k : Bytes) : Value :=
  match o.isArray, Value.arrayIndex k with
  | true, some i => .nat i
  | _, _ => .string k

theorem keyExpr_exec (o : Obj) (k : Bytes) (r : Recording) :
    (keyExpr o k).exec r = (.ok (.const (keyValue o k)), r.noteOperand (keyValue o k)) := by
  unfold keyExpr keyValue
  cases o.isArray <;> cases Value.arrayIndex k <;> rw [texpr_exec] <;> rfl

theorem addPreState_exec (v : Value) (exprs : List Expr) (r : Recording) :
    (addPreState v exprs).exec r =
      (.ok (), match v with
        | .ref id => { r with prestates := r.prestates ++ exprs.toArray }.modifyAliases id
            fun a => { a with pre := a.pre ++ exprs }
        | _ => { r with prestates := r.prestates ++ exprs.toArray }) := by
  cases v <;> rfl

theorem addCurState_exec (v : Value) (e : Expr) (r : Recording) :
    (addCurState v e).exec r =
      (.ok (), match v with
        | .ref id => r.modifyAliases id fun a => { a with cur := a.cur ++ [e] }
        | _ => r) := by
  cases v <;> rfl

theorem addPreState_ok (v : Value) (exprs : List Expr) (r : Recording) :
    ((addPreState v exprs).exec r).1 = .ok () := by
  rw [addPreState_exec]

theorem addCurState_ok (v : Value) (e : Expr) (r : Recording) :
    ((addCurState v e).exec r).1 = .ok () := by
  rw [addCurState_exec]

@[simp] theorem modifyAliases_events (r : Recording) (id : Nat) (f : Aliases → Aliases) :
    (r.modifyAliases id f).events = r.events := by
  unfold Recording.modifyAliases
  split <;> rfl

theorem addPreState_events (v : Value) (exprs : List Expr) (r : Recording) :
    ((addPreState v exprs).exec r).2.events = r.events := by
  rw [addPreState_exec]
  cases v <;> simp

theorem objectOf_exec (obj key : Value) (verb : String) (r : Recording) :
    (objectOf obj key verb).exec r =
      if obj.isNullish then
        (.error (.typeError (Bytes.ofString ("Cannot " ++ verb ++ " property '") ++
          Value.propertyKey key ++ Bytes.ofString "' of " ++ obj.toBytes)), r)
      else
        (.ok ((match obj, r.heap.obj? obj with
          | .ref id, some o => some (id, o)
          | _, _ => none), Value.propertyKey key), r) := by
  unfold objectOf
  by_cases h : obj.isNullish = true
  · simp [h]
  · rw [if_neg h, if_neg h, exec_bind, exec_get]
    dsimp only
    cases obj with
    | ref id => cases r.heap.obj? (.ref id) <;> rfl
    | _ => rfl

end Host

end TraceSynth
