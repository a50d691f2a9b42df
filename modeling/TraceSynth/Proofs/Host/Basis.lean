import TraceSynth.Proofs.Host.Traversal

/-!
# Host operations from their steps

The host's property operations and its calls of function values are built from a few steps:
finding the object of an operation, asking whether a value is observed, turning a value into an
operand, naming a fresh variable, charging an event, registering aliases, updating or extending
the heap, reading the heap, and failing for a reason other than the budget. A property of host
computations that these steps have and that sequencing keeps (`HostSteps`) holds of every
property operation, of every call of a function value at any depth and of the evaluation of
every expression (`HostSteps.eval`).

Unlike `HostClosed`, a `HostSteps` property asks nothing of reading the whole state, of failing
for the budget outside a charge, or of charging a round: it fits properties about the budget,
which these computations neither read nor fail for outside `emit`.
-/

namespace TraceSynth

open Host

/-- A property of host computations that the host's steps have and that sequencing keeps. -/
structure HostSteps (K : {α : Type} → RecM α → Prop) : Prop where
  pure {α : Type} (a : α) : K (Pure.pure a : RecM α)
  bind {α β : Type} {x : RecM α} {f : α → RecM β} : K x → (∀ a, K (f a)) → K (x >>= f)
  ite {α : Type} {c : Prop} [Decidable c] {x y : RecM α} : K x → K y → K (if c then x else y)
  /-- Reading the state and going on from its heap alone. -/
  readHeap {α : Type} {f : Recording → RecM α} :
    (∀ r r', r'.heap = r.heap → f r' = f r) → (∀ r, K (f r)) → K (MonadState.get >>= f)
  /-- Failing for a reason other than the budget. -/
  fail {α : Type} (e : Fault) : e ≠ .exhausted → K (throwThe Fault e : RecM α)
  objectOf (obj key : Value) (verb : String) : K (objectOf obj key verb)
  recorded (v : Value) : K (recorded v)
  texpr (v : Value) : K (texpr v)
  freshVar : K freshVar
  emit (ev : Event) : K (emit ev)
  addPreState (v : Value) (exprs : List Expr) : K (addPreState v exprs)
  addCurState (v : Value) (e : Expr) : K (addCurState v e)
  update (id : Nat) (o : Obj) :
    K (modify fun r => { r with heap := r.heap.update id o } : RecM PUnit)
  allocate (array : Bool) : K (allocate array)
  suspended {α : Type} {x : RecM α} : K x → K (suspended x)

namespace HostSteps

variable {K : {α : Type} → RecM α → Prop} (hK : HostSteps K)
include hK

theorem map {α β : Type} {x : RecM α} (f : α → β) (hx : K x) : K (f <$> x) := by
  rw [← bind_pure_comp]
  exact hK.bind hx fun a => hK.pure (f a)

theorem mapM {α β : Type} {f : α → RecM β} (hf : ∀ a, K (f a)) : ∀ xs : List α, K (xs.mapM f)
  | [] => hK.pure []
  | x :: xs => by
    rw [List.mapM_cons]
    exact hK.bind (hf x) fun b => hK.bind (mapM hf xs) fun bs => hK.pure (b :: bs)

theorem runtime {α : Type} (kind : RuntimeKind) (msg : Bytes) :
    K (MonadExcept.throw (Fault.runtime kind msg) : RecM α) :=
  hK.fail _ nofun

theorem keyExpr (o : Obj) (k : Bytes) : K (keyExpr o k) := by
  unfold Host.keyExpr
  split <;> exact hK.texpr _

theorem getProp (obj key : Value) : K (getProp obj key) := by
  unfold Host.getProp
  refine hK.bind (hK.objectOf obj key _) fun ⟨o?, k⟩ => ?_
  dsimp only
  split
  · exact hK.pure _
  · -- an observed read: the event, then the aliases of the value read
    refine hK.bind (hK.recorded obj) fun _ => hK.ite (hK.pure _) ?_
    exact hK.bind (hK.texpr obj) fun _ => hK.bind (hK.keyExpr _ k) fun _ =>
      hK.bind hK.freshVar fun _ => hK.bind (hK.emit _) fun _ =>
        hK.bind (hK.addPreState _ _) fun _ => hK.bind (hK.addCurState _ _) fun _ => hK.pure _

theorem write (obj key val : Value) (verb : String) : K (write obj key val verb) := by
  unfold Host.write
  refine hK.bind (hK.objectOf obj key _) fun ⟨o?, k⟩ => ?_
  dsimp only
  split
  · exact hK.pure _
  · -- the event when observed, then the heap update or the range error
    refine hK.bind (hK.recorded obj) fun _ => hK.ite (hK.bind (hK.texpr obj) fun _ =>
      hK.bind (hK.keyExpr _ k) fun _ => hK.bind (hK.texpr val) fun _ =>
        hK.bind (hK.emit _) fun _ => ?_) ?_
    all_goals
      split
      · exact hK.update _ _
      · exact hK.runtime _ _

theorem deleteProp (obj key : Value) : K (deleteProp obj key) := by
  unfold Host.deleteProp
  refine hK.bind (hK.objectOf obj key _) fun ⟨o?, k⟩ => ?_
  dsimp only
  split
  · exact hK.pure _
  · next _ id o =>
    -- the event when observed, then the heap update, or the type error of a refused deletion
    have htail : K (if (!(o.delete k).1) = true then do
        let h := (← get).heap
        throw (Fault.typeError (Bytes.ofString "Cannot delete property '" ++ k ++
          Bytes.ofString "' of " ++ h.describe obj))
        modify fun r => { r with heap := r.heap.update id (o.delete k).2 }
      else modify fun r => { r with heap := r.heap.update id (o.delete k).2 } : RecM Unit) :=
      hK.ite (hK.readHeap (fun r r' h => by simp only [h])
        fun _ => hK.bind (hK.runtime _ _) fun _ => hK.update _ _) (hK.update _ _)
    refine hK.bind (hK.recorded obj) fun _ => hK.ite ?_ htail
    exact hK.bind (hK.texpr obj) fun _ => hK.bind (hK.keyExpr _ k) fun _ =>
      hK.bind (hK.emit _) fun _ => htail

theorem typeOf (v : Value) : K (typeOf v) :=
  hK.readHeap (fun r r' h => by simp only [h]) fun _ => hK.pure _

theorem isArray (v : Value) : K (isArray v) :=
  hK.readHeap (fun r r' h => by simp only [h]) fun _ => hK.pure _

/-- An observed call: the event with the operands of the function, the receiver and the
arguments, then the callee unobserved, then the call's variable as an alias of the result. -/
theorem observedCall (fn this : Value) (args : List Value) {callee : RecM Value}
    (hcallee : K callee) : K (do
      let target ← Host.texpr fn
      let var ← Host.freshVar
      let receiver ← if this.isNullish then Pure.pure none else some <$> Host.texpr this
      let argExprs ← args.mapM Host.texpr
      Host.emit (Event.apply target receiver argExprs var)
      let res ← Host.suspended callee
      if ← Host.recorded res then Host.addCurState res (.var var)
      Pure.pure res) := by
  refine hK.bind (hK.texpr fn) fun _ => hK.bind hK.freshVar fun var => ?_
  dsimp only
  -- the receiver's operand, if any, then the rest of the call from it
  refine hK.ite (hK.bind (hK.pure _) fun _ => ?_) (hK.bind (hK.map _ (hK.texpr this)) fun _ => ?_)
  all_goals
    exact hK.bind (hK.mapM hK.texpr args) fun _ => hK.bind (hK.emit _) fun _ =>
      hK.bind (hK.suspended hcallee) fun res => hK.bind (hK.recorded res) fun _ =>
        hK.ite (hK.bind (hK.addCurState _ _) fun _ => hK.pure _) (hK.pure _)

/-- A native has the property when the calls it makes do. -/
theorem native {call : Value → Value → List Value → RecM Value}
    (hcall : ∀ fn this args, K (call fn this args)) (f : Native) (this : Value)
    (args : List Value) : K (Native.run call f this args) := by
  cases f with
  | double | identity | this => exact hK.pure _
  | throw | brokenInvariant | plainFailure => exact hK.fail _ nofun
  | getLength => exact hK.getProp _ _
  | allocate =>
    exact hK.bind (hK.allocate false) fun o => hK.bind (hK.write o _ _ _) fun _ => hK.pure o
  | setX => exact hK.bind (hK.write _ _ _ _) fun _ => hK.pure _
  | typeName =>
    exact hK.bind (hK.typeOf _) fun _ => hK.bind (hK.isArray _) fun _ => hK.pure _
  | callWith => exact hcall _ _ _
  | picky =>
    unfold Native.run
    dsimp only
    split
    · exact hK.ite (hK.pure _) (hK.fail _ nofun)
    · exact hK.fail _ nofun

/-- Calling a function value has the property, at any nesting depth. -/
theorem call : ∀ (depth : Nat) (fn this : Value) (args : List Value),
    K (Host.call depth fn this args)
  | 0, _, _, _ => hK.fail _ nofun
  | depth + 1, fn, this, args => by
    have hnative := hK.native (call depth)
    unfold Host.call
    refine hK.readHeap (fun r r' h => by simp only [h]) fun r => ?_
    dsimp only
    split
    · refine hK.bind (hK.recorded fn) fun _ => ?_
      split
      · exact hnative _ this args
      · exact hK.observedCall fn this args (hnative _ this args)
    · exact hK.fail _ nofun

/-- Evaluating an expression has the property. -/
theorem eval (args : List Value) (env : Env) : ∀ e : Expr, K (Interp.eval args env e)
  | .const _ => hK.pure _
  | .var x => by
    unfold Interp.eval
    split
    · exact hK.pure _
    · exact hK.runtime _ _
  | .alloc array => hK.allocate array
  | .argument i => hK.bind (eval args env i) fun _ => hK.pure _
  | .field o n =>
    hK.bind (eval args env o) fun ov => hK.bind (eval args env n) fun nv => hK.getProp ov nv
  | .binary op a b => by
    unfold Interp.eval
    refine hK.bind (eval args env a) fun _ => hK.bind (eval args env b) fun _ => ?_
    cases op <;> exact hK.pure _
  | .not e => hK.bind (eval args env e) fun _ => hK.pure _

/-- A statement that is no block, conditional or loop runs without the interpreter's recursion:
it has the property at any fuel. -/
theorem exec_leaf (args : List Value) (env : Env) (F : Nat) : ∀ s : Stmt,
    (∀ ss, s ≠ .seq ss) → (∀ c t e, s ≠ .ite c t e) →
    (∀ x start stop step body, s ≠ .loop x start stop step body) →
    K (Interp.exec args (F + 1) env s)
  | .seq ss, h, _, _ => absurd rfl (h ss)
  | .ite c t e, _, h, _ => absurd rfl (h c t e)
  | .loop x start stop step body, _, _, h => absurd rfl (h x start stop step body)
  | .assign lhs rhs _, _, _, _ => by
    simp only [Interp.exec]
    split
    · exact hK.pure _
    · split
      · exact hK.bind (hK.eval args env _) fun _ => hK.pure _
      · exact hK.bind (hK.eval args env _) fun ov => hK.bind (hK.eval args env _) fun nv =>
          hK.bind (hK.eval args env _) fun v => hK.bind (hK.write ov nv v _) fun _ => hK.pure _
      · exact hK.fail _ fun h => Fault.noConfusion h
  | .ret e, _, _, _ => hK.bind (hK.eval args env e) fun _ => hK.pure _
  | .raise e, _, _, _ =>
    hK.bind (hK.eval args env e) fun _ => hK.fail _ fun h => Fault.noConfusion h
  | .deleteProp o n, _, _, _ =>
    hK.bind (hK.eval args env o) fun ov => hK.bind (hK.eval args env n) fun nv =>
      hK.bind (hK.deleteProp ov nv) fun _ => hK.pure _
  | .defineProp o n v, _, _, _ =>
    hK.bind (hK.eval args env o) fun ov => hK.bind (hK.eval args env n) fun nv =>
      hK.bind (hK.eval args env v) fun vv => hK.bind (hK.write ov nv vv _) fun _ => hK.pure _
  | .call res target cargs recv _, _, _, _ => by
    simp only [Interp.exec]
    refine hK.bind (hK.eval args env target) fun fn => ?_
    have hcall : ∀ this, K (do
        let vs ← cargs.mapM (Interp.eval args env)
        let r ← Host.call callDepth fn this vs
        Pure.pure (Signal.normal, env.set res r)) := fun this =>
      hK.bind (hK.mapM (hK.eval args env) cargs) fun vs =>
        hK.bind (hK.call _ fn this vs) fun _ => hK.pure _
    split
    · exact hK.bind (hK.eval args env _) hcall
    · exact hK.bind (hK.pure _) hcall
  | .brk, _, _, _ => hK.pure _

/-- A property of the host's steps that reading the whole state, failing for any reason and
charging a round also have is closed under the whole traversal of `HostClosed`. -/
theorem hostClosed (get : K (MonadState.get : RecM Recording))
    (throw : ∀ {α : Type} (e : Fault), K (MonadExcept.throw e : RecM α))
    (throwThe : ∀ {α : Type} (e : Fault), K (throwThe Fault e : RecM α))
    (tick : K tick) : HostClosed K where
  pure := hK.pure
  bind := hK.bind
  throw := throw
  throwThe := throwThe
  get := get
  ite := hK.ite
  getProp := hK.getProp
  setProp obj key val := hK.write obj key val "set"
  defineProp obj key val := hK.write obj key val "define"
  deleteProp := hK.deleteProp
  allocate := hK.allocate
  tick := tick
  typeOf := hK.typeOf
  isArray := hK.isArray
  recorded := hK.recorded
  observedCall fn this args := hK.observedCall fn this args

end HostSteps

end TraceSynth
