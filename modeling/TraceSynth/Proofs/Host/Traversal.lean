import TraceSynth.Proofs.Host.Steps

/-!
# Properties every run has

A property of host computations that every primitive the interpreter performs on the host has,
and that the ways programs, natives and built-in targets combine primitives keep
(`HostClosed`), holds of every run of every function (`HostClosed.function_run`). The traversal
follows the interpreter once for all such properties: calls of function values by the nesting
depth, programs by the fuel, over statements, statement lists and loop rounds together, and the
built-in targets one by one. An invariant of recording states that every primitive keeps is such
a property (`Keeps`), and so is the alias invariant, which is kept with every earlier prefix of
events.
-/

namespace TraceSynth

open Host

/-- A property of host computations that the primitives have and their combinations keep. The
observed call is a primitive here: it is the one place where the host runs a callee, and it
keeps the property when the callee does. -/
structure HostClosed (K : {α : Type} → RecM α → Prop) : Prop where
  pure {α : Type} (a : α) : K (Pure.pure a : RecM α)
  bind {α β : Type} {x : RecM α} {f : α → RecM β} : K x → (∀ a, K (f a)) → K (x >>= f)
  throw {α : Type} (e : Fault) : K (MonadExcept.throw e : RecM α)
  throwThe {α : Type} (e : Fault) : K (throwThe Fault e : RecM α)
  get : K (MonadState.get : RecM Recording)
  ite {α : Type} {c : Prop} [Decidable c] {x y : RecM α} : K x → K y → K (if c then x else y)
  getProp (obj key : Value) : K (getProp obj key)
  setProp (obj key val : Value) : K (setProp obj key val)
  defineProp (obj key val : Value) : K (defineProp obj key val)
  deleteProp (obj key : Value) : K (deleteProp obj key)
  allocate (array : Bool) : K (allocate array)
  tick : K tick
  typeOf (v : Value) : K (typeOf v)
  isArray (v : Value) : K (isArray v)
  recorded (v : Value) : K (recorded v)
  observedCall (fn this : Value) (args : List Value) {callee : RecM Value} : K callee → K (do
    let target ← texpr fn
    let var ← freshVar
    let receiver ← if this.isNullish then Pure.pure none else some <$> texpr this
    let argExprs ← args.mapM texpr
    emit (.apply target receiver argExprs var)
    let res ← suspended callee
    if ← Host.recorded res then addCurState res (.var var)
    Pure.pure res)

namespace HostClosed

variable {K : {α : Type} → RecM α → Prop} (hK : HostClosed K)
include hK

theorem mapM {α β : Type} {f : α → RecM β} (hf : ∀ a, K (f a)) : ∀ xs : List α, K (xs.mapM f)
  | [] => hK.pure []
  | x :: xs => by
    rw [List.mapM_cons]
    exact hK.bind (hf x) fun b => hK.bind (mapM hf xs) fun bs => hK.pure (b :: bs)

/-- A native has the property when the calls it makes do. -/
theorem native {call : Value → Value → List Value → RecM Value}
    (hcall : ∀ fn this args, K (call fn this args)) (f : Native) (this : Value)
    (args : List Value) : K (Native.run call f this args) := by
  cases f with
  | double | identity | this => exact hK.pure _
  | throw | brokenInvariant | plainFailure => exact hK.throwThe _
  | getLength => exact hK.getProp _ _
  | allocate =>
    exact hK.bind (hK.allocate false) fun o => hK.bind (hK.setProp o _ _) fun _ => hK.pure o
  | setX => exact hK.bind (hK.setProp _ _ _) fun _ => hK.pure _
  | typeName =>
    exact hK.bind (hK.typeOf _) fun _ => hK.bind (hK.isArray _) fun _ => hK.pure _
  | callWith => exact hcall _ _ _
  | picky =>
    unfold Native.run
    dsimp only
    split
    · exact hK.ite (hK.pure _) (hK.throwThe _)
    · exact hK.throwThe _

/-- Calling a function value has the property, at any nesting depth. -/
theorem call : ∀ (depth : Nat) (fn this : Value) (args : List Value),
    K (Host.call depth fn this args)
  | 0, _, _, _ => hK.throwThe _
  | depth + 1, fn, this, args => by
    have hnative := hK.native (call depth)
    unfold Host.call
    refine hK.bind hK.get fun r => ?_
    dsimp only
    split
    · refine hK.bind (hK.recorded fn) fun _ => ?_
      split
      · exact hnative _ this args
      · exact hK.observedCall fn this args (hnative _ this args)
    · exact hK.throwThe _

/-- Evaluating an expression has the property. -/
theorem eval (args : List Value) (env : Env) : ∀ e : Expr, K (Interp.eval args env e)
  | .const _ => hK.pure _
  | .var x => by
    unfold Interp.eval
    split
    · exact hK.pure _
    · exact hK.throw _
  | .alloc array => hK.allocate array
  | .argument i => hK.bind (eval args env i) fun _ => hK.pure _
  | .field o n =>
    hK.bind (eval args env o) fun ov => hK.bind (eval args env n) fun nv => hK.getProp ov nv
  | .binary op a b => by
    unfold Interp.eval
    refine hK.bind (eval args env a) fun _ => hK.bind (eval args env b) fun _ => ?_
    cases op <;> exact hK.pure _
  | .not e => hK.bind (eval args env e) fun _ => hK.pure _

/-- Running statements has the property: a statement, a list of statements and the rounds of a
loop, by induction on the fuel. -/
theorem exec (args : List Value) : ∀ fuel : Nat,
    (∀ env s, K (Interp.exec args fuel env s)) ∧
    (∀ env ss, K (Interp.execList args fuel env ss)) ∧
    (∀ env x stop step body, K (Interp.loop args fuel env x stop step body))
  | 0 => ⟨fun _ _ => hK.throw _, fun _ _ => hK.throw _, fun _ _ _ _ _ => hK.throw _⟩
  | fuel + 1 => by
    obtain ⟨ihStmt, ihList, ihLoop⟩ := exec args fuel
    have hev : ∀ env e, K (Interp.eval args env e) := hK.eval args
    refine ⟨fun env s => ?_, fun env ss => ?_, fun env x stop step body => ?_⟩
    · cases s with
      | seq ss => exact ihList env ss
      | assign lhs rhs _ =>
        simp only [Interp.exec]
        split
        · exact hK.pure _
        · split
          · exact hK.bind (hev env _) fun _ => hK.pure _
          · exact hK.bind (hev env _) fun ov => hK.bind (hev env _) fun nv =>
              hK.bind (hev env _) fun v => hK.bind (hK.setProp ov nv v) fun _ => hK.pure _
          · exact hK.throw _
      | ret e => exact hK.bind (hev env e) fun _ => hK.pure _
      | raise e => exact hK.bind (hev env e) fun _ => hK.throw _
      | deleteProp o n =>
        exact hK.bind (hev env o) fun ov => hK.bind (hev env n) fun nv =>
          hK.bind (hK.deleteProp ov nv) fun _ => hK.pure _
      | defineProp o n v =>
        exact hK.bind (hev env o) fun ov => hK.bind (hev env n) fun nv =>
          hK.bind (hev env v) fun vv => hK.bind (hK.defineProp ov nv vv) fun _ => hK.pure _
      | ite c t e => exact hK.bind (hev env c) fun _ => hK.ite (ihStmt env t) (ihStmt env e)
      | loop x start stop step body =>
        exact hK.bind (hev env start) fun _ => ihLoop _ x stop step body
      | call res target cargs recv _ =>
        simp only [Interp.exec]
        refine hK.bind (hev env target) fun fn => ?_
        have hcall : ∀ this, K (do
            let vs ← cargs.mapM (Interp.eval args env)
            let r ← Host.call callDepth fn this vs
            Pure.pure (Signal.normal, env.set res r)) := fun this =>
          hK.bind (hK.mapM (hev env) cargs) fun vs =>
            hK.bind (hK.call _ fn this vs) fun _ => hK.pure _
        split
        · exact hK.bind (hev env _) hcall
        · exact hK.bind (hK.pure _) hcall
      | brk => exact hK.pure _
    · cases ss with
      | nil => exact hK.pure _
      | cons s rest =>
        simp only [Interp.execList]
        refine hK.bind (ihStmt env s) fun p => ?_
        split
        · exact ihList _ rest
        · exact hK.pure _
    · simp only [Interp.loop]
      refine hK.bind hK.tick fun _ => hK.bind (hev env stop) fun _ =>
        hK.ite (hK.pure _) (hK.bind (ihStmt env body) fun p => ?_)
      split
      · exact hK.pure _
      · exact hK.pure _
      · exact hK.bind (hev _ step) fun _ => ihLoop _ x stop step body

theorem program_run (p : Program) (args : List Value) : K (p.run args) := by
  unfold Program.run
  refine hK.bind hK.get fun r0 => hK.bind ((hK.exec args _).1 _ _) fun res => ?_
  obtain ⟨sig, _⟩ := res
  cases sig <;> exact hK.pure _

theorem lengthOf (o : Value) : K (Target.lengthOf o) :=
  hK.bind (hK.getProp _ _) fun _ => hK.pure _

theorem shiftDown (o : Value) (n : Nat) : ∀ fuel k, K (Target.shiftDown o n fuel k)
  | 0, _ => hK.throw _
  | fuel + 1, k => by
    unfold Target.shiftDown
    refine hK.ite ?_ (hK.pure _)
    exact hK.bind hK.tick fun _ => hK.bind (hK.getProp _ _) fun v =>
      hK.bind (hK.setProp _ _ v) fun _ => shiftDown o n fuel (k + 1)

theorem scanFor (o : Value) (n : Nat) (want : Bool) : ∀ fuel k, K (Target.scanFor o n want fuel k)
  | 0, _ => hK.throw _
  | fuel + 1, k => by
    unfold Target.scanFor
    refine hK.ite ?_ (hK.pure _)
    exact hK.bind hK.tick fun _ => hK.bind (hK.getProp _ _) fun _ =>
      hK.ite (hK.pure _) (scanFor o n want fuel (k + 1))

theorem spin : ∀ fuel, K (Target.spin fuel)
  | 0 => hK.throw _
  | fuel + 1 => hK.bind hK.tick fun _ => spin fuel

/-- Every built-in target has the property. -/
theorem target_run (t : Target) (args : List Value) : K (t.run args) := by
  unfold Target.run
  refine hK.bind hK.get fun r0 => ?_
  cases t with
  | arrayPop =>
    refine hK.bind (hK.lengthOf _) fun n => hK.ite ?_ ?_
    · exact hK.bind (hK.setProp _ _ _) fun _ => hK.pure _
    · exact hK.bind (hK.getProp _ _) fun _ => hK.bind (hK.deleteProp _ _) fun _ =>
        hK.bind (hK.setProp _ _ _) fun _ => hK.pure _
  | arrayPush =>
    exact hK.bind (hK.lengthOf _) fun n => hK.bind (hK.setProp _ _ _) fun _ =>
      hK.bind (hK.setProp _ _ _) fun _ => hK.pure _
  | arrayShift =>
    refine hK.bind (hK.lengthOf _) fun n => hK.ite ?_ ?_
    · exact hK.bind (hK.setProp _ _ _) fun _ => hK.pure _
    · exact hK.bind (hK.getProp _ _) fun _ => hK.bind (hK.shiftDown _ _ _ _) fun _ =>
        hK.bind (hK.deleteProp _ _) fun _ => hK.bind (hK.setProp _ _ _) fun _ => hK.pure _
  | arrayLastOrSelf =>
    exact hK.ite (hK.pure _) (hK.bind (hK.getProp _ _) fun _ => hK.getProp _ _)
  | arrayIndex => exact hK.getProp _ _
  | arrayEvery | arraySome =>
    exact hK.bind (hK.lengthOf _) fun n => hK.scanFor _ _ _ _ _
  | objectSwap =>
    exact hK.bind (hK.getProp _ _) fun _ => hK.bind (hK.getProp _ _) fun _ =>
      hK.bind (hK.setProp _ _ _) fun _ => hK.bind (hK.setProp _ _ _) fun _ => hK.pure _
  | objectDeleteField => exact hK.bind (hK.deleteProp _ _) fun _ => hK.pure _
  | noop => exact hK.pure _
  | throwEmpty =>
    exact hK.bind (hK.getProp _ _) fun _ => hK.ite (hK.throw _) (hK.getProp _ _)
  | callApply => exact hK.call _ _ _ _
  | loopForever => exact hK.spin _

/-- Every run of every function has the property. -/
theorem function_run (f : Function) (args : List Value) : K (f.run args) := by
  cases f with
  | target t => exact hK.target_run t args
  | program p => exact hK.program_run p args

end HostClosed

end TraceSynth
