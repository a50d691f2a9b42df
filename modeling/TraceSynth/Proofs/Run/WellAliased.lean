import TraceSynth.Proofs.Host.Aliases
import TraceSynth.Generate.Prestate

/-!
# Recorded operands are well aliased

Every host operation keeps the alias invariant (`TraceSynth.Aliasing`), so whole runs do:
calls of function values (`call_keeps`, by induction on the nesting depth), programs
(`exec_keeps`, by induction on the fuel, over statements, statement lists and loop rounds
together), the built-in targets (`Target.run_keeps`), and so every function
(`Function.run_keeps`). A recording starts in a state with the invariant (`start_aliasInv`),
which gives the main result:

* `record_wellAliased`: in every trace a recording returns, each operand of each event is
  well aliased against the events before it, and the outcome against all of them. An alias set
  has non-empty sides; its prestates are argument slots of the reference or fields with
  constant names read from prestate paths, and its current aliases are argument slots of the
  reference or variables of earlier events whose operations returned it.

What an operation returned is the binding the run builds: a read binds its event's variable to
the reference it read (`getProp_binds_result`), and an observed call binds its variable to the
reference it gave back when the recorder tracks it (`call_binds_result`).
-/

namespace TraceSynth

namespace Aliasing

open RecM Host

variable {input : Input}

variable (input) in
/-- What an observed call does to the invariant, from `r` where it holds for `bind` to the end
`run`, the call's event binding `var`: the events of `r` stay the first ones, and the invariant
holds for a binding that agrees with `bind` on their variables and, once the call returns `u`,
binds `var` to the reference `u` is, or leaves it unbound when the recorder does not track `u`. -/
def CallBinds (bind : String → Option Nat) (r : Recording) (var : String)
    (run : Except Fault Value × Recording) : Prop :=
  r.events.toList <+: run.2.events.toList ∧
    ∃ b, AliasInv input b run.2 ∧ AgreesOn r.events.toList bind b ∧
      ∀ u, run.1 = .ok u → b var = refOf u ∨ b var = none

/-- A call that fails before recording anything keeps the invariant with the binding as it was. -/
theorem CallBinds.of_error {bind : String → Option Nat} {r : Recording} (h : AliasInv input bind r)
    (var : String) (e : Fault) : CallBinds input bind r var (.error e, r) :=
  ⟨List.prefix_refl _, bind, h, fun _ _ _ _ => rfl, fun _ hok => by cases hok⟩

/-- `CallBinds` reads the start state's events only. -/
theorem CallBinds.congr {bind : String → Option Nat} {r r' : Recording} {var : String}
    {run : Except Fault Value × Recording} (h : CallBinds input bind r' var run)
    (he : r'.events = r.events) : CallBinds input bind r var run := by
  unfold CallBinds at h ⊢
  rwa [he] at h

/-- The event of an observed call, with operands already formed, then the callee unobserved,
then the call's variable as an alias of the result. The callee keeps the invariant relative to
the point where the event was recorded, so the variable is still unbound when it is registered. -/
theorem AliasInv.afterApplyEvent {bind : String → Option Nat} {r : Recording}
    (h : AliasInv input bind r) {target : TraceExpr}
    (ht : WellAliased input bind r.events.toList target) {receiver : Option TraceExpr}
    (hrcv : ∀ te, receiver = some te → WellAliased input bind r.events.toList te)
    (args : List Value) {var : String} (hnone : bind var = none)
    (hnew : ∀ ev ∈ r.events.toList, ev.var? ≠ some var) (hiss : ∃ k < r.nextVar, var = varName k)
    {callee : RecM Value} (hcallee : KeepsAliases input callee) :
    CallBinds input bind r var ((do
      let argExprs ← args.mapM texpr
      Host.emit (.apply target receiver argExprs var)
      let res ← suspended callee
      if ← recorded res then addCurState res (.var var)
      pure res : RecM Value).exec r) := by
  rw [exec_bind, mapM_texpr_exec]
  dsimp only
  have h₁ : AliasInv input bind (args.foldl Recording.noteOperand r) :=
    h.congr (by simp) (by simp) (by simp)
  have hops : ∀ te, some te ∈ (Event.apply target receiver (args.map r.operand) var).operands →
      WellAliased input bind r.events.toList te := by
    intro te hte
    simp only [Event.operands, List.mem_append, List.mem_cons, List.not_mem_nil, or_false,
      List.mem_map, Option.some.injEq] at hte
    rcases hte with (rfl | hrc) | ⟨_, hv, rfl⟩
    · exact ht
    · exact hrcv te hrc.symm
    · obtain ⟨v, -, rfl⟩ := hv
      exact h.operand rfl v
  have hpush := h₁.push (by simpa using hops) fun w hw => by
    obtain ⟨k, hk, rfl⟩ := hiss
    exact ⟨k, by simpa using hk, (Option.some.inj hw).symm⟩
  have hkeep : AgreesOn r.events.toList bind bind := fun _ _ _ _ => rfl
  rw [exec_bind]
  rcases emit_exec_cases (.apply target receiver (args.map r.operand) var)
    (args.foldl Recording.noteOperand r) with he | he | he <;> rw [he] <;> dsimp only
  · exact ⟨by simp, bind, h₁, hkeep, fun _ hok => by cases hok⟩
  · exact ⟨by simp [Array.toList_push], bind, hpush.congr rfl rfl (Nat.le_refl _), hkeep,
      fun _ hok => by cases hok⟩
  -- the callee, relative to the point where the call's event is the last one
  have hev : Event.apply target receiver (args.map r.operand) var ∈
      ((args.foldl Recording.noteOperand r).events.push
        (.apply target receiver (args.map r.operand) var)).toList := by
    simp
  obtain ⟨b, hb, hpfx, hagree⟩ := suspended_keeps hcallee _ _ hpush.inv
  have hbvar : b var = none := (hagree _ hev var rfl).trans hnone
  have hbefore : r.events.toList <+: ((suspended callee).exec
      { args.foldl Recording.noteOperand r with
        events := (args.foldl Recording.noteOperand r).events.push
          (.apply target receiver (args.map r.operand) var) }).2.events.toList :=
    (by simp [Array.toList_push] : r.events.toList <+: _).trans hpfx
  have hagreeR : AgreesOn r.events.toList bind b := fun ev hev' w hw =>
    hagree ev (by simp [Array.toList_push, hev']) w hw
  rw [exec_bind]
  rcases hres : (suspended callee).exec
      { args.foldl Recording.noteOperand r with
        events := (args.foldl Recording.noteOperand r).events.push
          (.apply target receiver (args.map r.operand) var) } with ⟨_ | res, r₃⟩ <;>
    rw [hres] at hb hbefore hpfx <;> dsimp only
  · exact ⟨hbefore, b, hb, hagreeR, fun _ hok => by cases hok⟩
  rw [exec_bind, recorded_exec]
  dsimp only
  split
  · -- the result is tracked: the call's variable is registered under it
    rw [exec_bind_of_ok _ (addCurState_ok _ _ _), exec_pure]
    refine ⟨by rw [addCurState_exec]; cases res <;> simpa using hbefore, _,
      hb.register res hbvar ⟨.apply target receiver (args.map r.operand) var, hpfx.subset hev, rfl⟩,
      fun ev hev' w hw => ?_, fun u hu => .inl ?_⟩
    · rw [Function.update_of_ne (fun hwv => hnew ev hev' (by rw [← hwv]; exact hw))]
      exact hagreeR ev hev' w hw
    · cases hu
      exact Function.update_self _ _ _
  · exact ⟨hbefore, b, hb, hagreeR, fun _ _ => .inr hbvar⟩

/-- An observed call, from its operands to the alias of its result: its variable is bound to the
reference the call returns, or left unbound. -/
theorem AliasInv.afterApply {bind : String → Option Nat} {r : Recording}
    (h : AliasInv input bind r) (fid : Nat) (this : Value) (args : List Value)
    {callee : RecM Value} (hcallee : KeepsAliases input callee) :
    CallBinds input bind r (varName r.nextVar) ((do
      let target ← texpr (.ref fid)
      let var ← freshVar
      let receiver ← if this.isNullish then pure none else some <$> texpr this
      let argExprs ← args.mapM texpr
      Host.emit (.apply target receiver argExprs var)
      let res ← suspended callee
      if ← recorded res then addCurState res (.var var)
      pure res : RecM Value).exec r) := by
  obtain ⟨hnew, hnone⟩ := h.fresh
  rw [exec_bind, texpr_exec]
  dsimp only
  rw [exec_bind, freshVar_exec]
  dsimp only
  rw [show "n" ++ toString (r.noteOperand (.ref fid)).nextVar = varName r.nextVar from rfl]
  -- the counter moved on past the call's variable, the rest as it was
  have h₁ : AliasInv input bind { r.noteOperand (.ref fid) with nextVar := r.nextVar + 1 } :=
    h.congr (by simp) (by simp) (by simp)
  have hiss : ∃ k < r.nextVar + 1, varName r.nextVar = varName k :=
    ⟨r.nextVar, Nat.lt_succ_self _, rfl⟩
  have ht : WellAliased input bind r.events.toList (r.operand (.ref fid)) := h.operand rfl _
  split
  · rw [exec_bind, exec_pure]
    refine (h₁.afterApplyEvent ?_ ?_ args hnone ?_ ?_ hcallee).congr (by simp)
    · simpa using ht
    · intro te hte
      cases hte
    · simpa using hnew
    · simpa using hiss
  · rw [exec_bind, exec_map, texpr_exec]
    refine (AliasInv.afterApplyEvent ?_ ?_ ?_ args hnone ?_ ?_ hcallee).congr (by simp)
    · exact h₁.congr (by simp) (by simp) (by simp)
    · simpa using ht
    · intro te hte
      cases hte
      simpa using h.operand (by simp) this
    · simpa using hnew
    · simpa using hiss

/-- A native keeps the invariant when the calls it makes do. -/
theorem Native.run_keeps {call : Value → Value → List Value → RecM Value}
    (hcall : ∀ fn this args, KeepsAliases input (call fn this args)) (f : Native) (this : Value)
    (args : List Value) : KeepsAliases input (Native.run call f this args) := by
  intro evs
  cases f with
  | double | identity | this => exact Keeps.pure _
  | throw | brokenInvariant | plainFailure => exact Keeps.throwThe _
  | getLength => exact getProp_keeps _ _ evs
  | allocate =>
    exact (allocate_keeps false evs).bind fun o =>
      (setProp_keeps o _ _ evs).bind fun _ => Keeps.pure o
  | setX => exact (setProp_keeps _ _ _ evs).bind fun _ => Keeps.pure _
  | typeName =>
    exact (typeOf_keeps _ evs).bind fun _ => (isArray_keeps _ evs).bind fun _ => Keeps.pure _
  | callWith => exact hcall _ _ _ evs
  | picky =>
    unfold Native.run
    dsimp only
    split
    · exact Keeps.ite (Keeps.pure _) (Keeps.throwThe _)
    · exact Keeps.throwThe _

/-- Calling a function value keeps the invariant, at any nesting depth. -/
theorem call_keeps : ∀ (depth : Nat) (fn this : Value) (args : List Value),
    KeepsAliases input (call depth fn this args)
  | 0, _, _, _ => fun _ => Keeps.throwThe _
  | depth + 1, fn, this, args => by
    intro evs r hr
    have hnative := Native.run_keeps (call_keeps depth)
    unfold call
    rw [exec_bind, exec_get]
    dsimp only
    split
    · next _ f _ _ _ hfn =>
      rw [exec_bind, recorded_exec]
      dsimp only
      split
      · exact hnative f this args evs r hr
      · next hobs =>
        -- only a reference is observed
        cases fn with
        | ref fid =>
          refine hr.of_step fun _ hb => ?_
          obtain ⟨hpfx, b, hb', hagree, -⟩ := hb.afterApply fid this args (hnative f this args)
          exact ⟨hpfx, b, hb', hagree⟩
        | _ => simp [Recording.observes] at hobs
    · exact hr

/-- A call of an observed function binds the variable of the event it records to the reference it
returns, when the recorder tracks that reference, and leaves it unbound otherwise. -/
theorem call_binds_result {bind : String → Option Nat} {r : Recording}
    (h : AliasInv input bind r) (depth : Nat) (fn this : Value) (args : List Value)
    (hobs : r.observes fn = true) :
    CallBinds input bind r (varName r.nextVar) ((call depth fn this args).exec r) := by
  cases depth with
  | zero => exact CallBinds.of_error h _ _
  | succ depth =>
    unfold call
    rw [exec_bind, exec_get]
    dsimp only
    split
    · next f _ _ _ hfn =>
      rw [exec_bind, recorded_exec]
      dsimp only
      rw [if_neg (by simp [hobs])]
      cases fn with
      | ref fid =>
        exact h.afterApply fid this args (Native.run_keeps (call_keeps depth) f this args)
      | _ => simp [Recording.observes] at hobs
    · exact CallBinds.of_error h _ _

/-- Evaluating an expression keeps the invariant. -/
theorem eval_keeps (args : List Value) (env : Env) :
    ∀ e : Expr, KeepsAliases input (Interp.eval args env e)
  | .const _ => fun _ => Keeps.pure _
  | .var x => by
    intro evs
    unfold Interp.eval
    split
    · exact Keeps.pure _
    · exact Keeps.throw _
  | .alloc array => allocate_keeps array
  | .argument i => fun evs => (eval_keeps args env i evs).bind fun _ => Keeps.pure _
  | .field o n => fun evs =>
    (eval_keeps args env o evs).bind fun ov =>
      (eval_keeps args env n evs).bind fun nv => getProp_keeps ov nv evs
  | .binary op a b => fun evs => by
    unfold Interp.eval
    refine (eval_keeps args env a evs).bind fun _ => (eval_keeps args env b evs).bind fun _ => ?_
    cases op <;> exact Keeps.pure _
  | .not e => fun evs => (eval_keeps args env e evs).bind fun _ => Keeps.pure _

/-- Running statements keeps the invariant: a statement, a list of statements and the rounds of
a loop, by induction on the fuel. -/
theorem exec_keeps (args : List Value) : ∀ fuel : Nat,
    (∀ env s, KeepsAliases input (Interp.exec args fuel env s)) ∧
    (∀ env ss, KeepsAliases input (Interp.execList args fuel env ss)) ∧
    (∀ env x stop step body, KeepsAliases input (Interp.loop args fuel env x stop step body))
  | 0 => ⟨fun _ _ _ => Keeps.throw _, fun _ _ _ => Keeps.throw _,
      fun _ _ _ _ _ _ => Keeps.throw _⟩
  | fuel + 1 => by
    obtain ⟨ihStmt, ihList, ihLoop⟩ := exec_keeps args fuel
    have hev : ∀ env e, KeepsAliases input (Interp.eval args env e) := eval_keeps args
    refine ⟨fun env s evs => ?_, fun env ss evs => ?_, fun env x stop step body evs => ?_⟩
    · cases s with
      | seq ss => exact ihList env ss evs
      | assign lhs rhs _ =>
        simp only [Interp.exec]
        split
        · exact Keeps.pure _
        · split
          · exact (hev env _ evs).bind fun _ => Keeps.pure _
          · exact (hev env _ evs).bind fun ov => (hev env _ evs).bind fun nv =>
              (hev env _ evs).bind fun v => (setProp_keeps ov nv v evs).bind fun _ => Keeps.pure _
          · exact Keeps.throw _
      | ret e => exact (hev env e evs).bind fun _ => Keeps.pure _
      | raise e => exact (hev env e evs).bind fun _ => Keeps.throw _
      | deleteProp o n =>
        exact (hev env o evs).bind fun ov => (hev env n evs).bind fun nv =>
          (deleteProp_keeps ov nv evs).bind fun _ => Keeps.pure _
      | defineProp o n v =>
        exact (hev env o evs).bind fun ov => (hev env n evs).bind fun nv =>
          (hev env v evs).bind fun vv => (defineProp_keeps ov nv vv evs).bind fun _ => Keeps.pure _
      | ite c t e =>
        exact (hev env c evs).bind fun _ => Keeps.ite (ihStmt env t evs) (ihStmt env e evs)
      | loop x start stop step body =>
        exact (hev env start evs).bind fun v => ihLoop _ x stop step body evs
      | call res target cargs recv _ =>
        simp only [Interp.exec]
        refine (hev env target evs).bind fun fn => ?_
        have hcall : ∀ this, Keeps (Inv input evs) (do
            let vs ← cargs.mapM (Interp.eval args env)
            let r ← call callDepth fn this vs
            pure (Signal.normal, env.set res r)) := fun this =>
          (Keeps.mapM (fun e => hev env e evs) cargs).bind fun vs =>
            (call_keeps _ fn this vs evs).bind fun _ => Keeps.pure _
        split
        · exact (hev env _ evs).bind hcall
        · exact (Keeps.pure _).bind hcall
      | brk => exact Keeps.pure _
    · cases ss with
      | nil => exact Keeps.pure _
      | cons s rest =>
        simp only [Interp.execList]
        refine (ihStmt env s evs).bind fun p => ?_
        split
        · exact ihList _ rest evs
        · exact Keeps.pure _
    · simp only [Interp.loop]
      refine (tick_keeps evs).bind fun _ => (hev env stop evs).bind fun _ =>
        Keeps.ite (Keeps.pure _) ((ihStmt env body evs).bind fun p => ?_)
      split
      · exact Keeps.pure _
      · exact Keeps.pure _
      · exact (hev _ step evs).bind fun _ => ihLoop _ x stop step body evs

theorem Program.run_keeps (p : Program) (args : List Value) :
    KeepsAliases input (p.run args) := by
  intro evs
  unfold Program.run
  refine Keeps.get.bind fun r0 => ((exec_keeps args _).1 _ _ evs).bind fun res => ?_
  obtain ⟨sig, _⟩ := res
  cases sig <;> exact Keeps.pure _

theorem lengthOf_keeps (o : Value) : KeepsAliases input (Target.lengthOf o) :=
  fun evs => (getProp_keeps _ _ evs).bind fun _ => Keeps.pure _

theorem shiftDown_keeps (o : Value) (n : Nat) :
    ∀ fuel k, KeepsAliases input (Target.shiftDown o n fuel k)
  | 0, _ => fun _ => Keeps.throw _
  | fuel + 1, k => fun evs => by
    unfold Target.shiftDown
    refine Keeps.ite ?_ (Keeps.pure _)
    exact (tick_keeps evs).bind fun _ => (getProp_keeps _ _ evs).bind fun v =>
      (setProp_keeps _ _ v evs).bind fun _ => shiftDown_keeps o n fuel (k + 1) evs

theorem scanFor_keeps (o : Value) (n : Nat) (want : Bool) :
    ∀ fuel k, KeepsAliases input (Target.scanFor o n want fuel k)
  | 0, _ => fun _ => Keeps.throw _
  | fuel + 1, k => fun evs => by
    unfold Target.scanFor
    refine Keeps.ite ?_ (Keeps.pure _)
    exact (tick_keeps evs).bind fun _ => (getProp_keeps _ _ evs).bind fun v =>
      Keeps.ite (Keeps.pure _) (scanFor_keeps o n want fuel (k + 1) evs)

theorem spin_keeps : ∀ fuel, KeepsAliases input (Target.spin fuel)
  | 0 => fun _ => Keeps.throw _
  | fuel + 1 => fun evs => (tick_keeps evs).bind fun _ => spin_keeps fuel evs

/-- Every built-in target keeps the invariant. -/
theorem Target.run_keeps (t : Target) (args : List Value) : KeepsAliases input (t.run args) := by
  intro evs
  unfold Target.run
  refine Keeps.get.bind fun r0 => ?_
  cases t with
  | arrayPop =>
    refine (lengthOf_keeps _ evs).bind fun n => Keeps.ite ?_ ?_
    · exact (setProp_keeps _ _ _ evs).bind fun _ => Keeps.pure _
    · exact (getProp_keeps _ _ evs).bind fun _ => (deleteProp_keeps _ _ evs).bind fun _ =>
        (setProp_keeps _ _ _ evs).bind fun _ => Keeps.pure _
  | arrayPush =>
    exact (lengthOf_keeps _ evs).bind fun n => (setProp_keeps _ _ _ evs).bind fun _ =>
      (setProp_keeps _ _ _ evs).bind fun _ => Keeps.pure _
  | arrayShift =>
    refine (lengthOf_keeps _ evs).bind fun n => Keeps.ite ?_ ?_
    · exact (setProp_keeps _ _ _ evs).bind fun _ => Keeps.pure _
    · exact (getProp_keeps _ _ evs).bind fun _ => (shiftDown_keeps _ _ _ _ evs).bind fun _ =>
        (deleteProp_keeps _ _ evs).bind fun _ => (setProp_keeps _ _ _ evs).bind fun _ =>
          Keeps.pure _
  | arrayLastOrSelf =>
    exact Keeps.ite (Keeps.pure _) ((getProp_keeps _ _ evs).bind fun _ => getProp_keeps _ _ evs)
  | arrayIndex => exact getProp_keeps _ _ evs
  | arrayEvery | arraySome =>
    exact (lengthOf_keeps _ evs).bind fun n => scanFor_keeps _ _ _ _ _ evs
  | objectSwap =>
    exact (getProp_keeps _ _ evs).bind fun _ => (getProp_keeps _ _ evs).bind fun _ =>
      (setProp_keeps _ _ _ evs).bind fun _ => (setProp_keeps _ _ _ evs).bind fun _ => Keeps.pure _
  | objectDeleteField => exact (deleteProp_keeps _ _ evs).bind fun _ => Keeps.pure _
  | noop => exact Keeps.pure _
  | throwEmpty =>
    exact (getProp_keeps _ _ evs).bind fun _ => Keeps.ite (Keeps.throw _) (getProp_keeps _ _ evs)
  | callApply => exact call_keeps _ _ _ _ evs
  | loopForever => exact spin_keeps _ evs

theorem Function.run_keeps (f : Function) (args : List Value) :
    KeepsAliases input (f.run args) := by
  cases f with
  | target t => exact Target.run_keeps t args
  | program p => exact Program.run_keeps p args

/-- A recording starts with no events and no variable bound, each reference argument tracked with
its argument slot as alias before and now. -/
theorem start_aliasInv (input : Input) (budget : Nat) :
    (Recording.start input budget).events = #[] ∧
      AliasInv input (fun _ => none) (Recording.start input budget) := by
  unfold Recording.start
  dsimp only
  refine List.foldlRecOn
    (motive := fun r : Recording => r.events = #[] ∧ AliasInv input (fun _ => none) r) _ _
    ⟨rfl, fun _ h => by simp at h, by simpa using EventsOk.nil, (fun _ _ h => by cases h),
      fun _ h => by simp at h⟩ ?_ |>.imp id fun h => h.congr rfl rfl (Nat.le_refl _)
  rintro r ⟨hev, hr⟩ ⟨arg, i⟩ hmem
  have hslot : input.args[i]? = some arg := List.mem_zipIdx_iff_getElem?.1 hmem
  cases arg with
  | ref id =>
    have harg : ArgSlotOf input id (Expr.arg i) := ⟨i, rfl, hslot⟩
    dsimp only
    refine ⟨by simpa using hev, AliasInv.modifyAliases ?_ ?_ ?_⟩
    · exact hr.congr rfl rfl (Nat.le_refl _)
    · intro a ha
      refine ⟨fun e he => ?_, fun e he => ?_⟩
      · rcases List.mem_append.1 he with he | he
        · exact ha.1 e he
        · rw [List.mem_singleton.1 he]
          exact .inl harg
      · rcases List.mem_append.1 he with he | he
        · exact ha.2 e he
        · rw [List.mem_singleton.1 he]
          exact .inl harg
    · refine ⟨fun e he => ?_, fun e he => ?_⟩
      · have he' : e = Expr.arg i := by simpa using he
        rw [he']
        exact .inl harg
      · have he' : e = Expr.arg i := by simpa using he
        rw [he']
        exact .inl harg
  | _ => exact ⟨hev, hr.congr rfl rfl (Nat.le_refl _)⟩

/-- The traces a run can end in: exhausted, or its thrown or returned value as an operand of
the final state. -/
theorem finish_ok {res : Except Fault Value} {r : Recording} {t : Trace}
    (h : finish res r = .ok t) :
    t = r.toTrace .exhausted ∨ ∃ v, t = (r.noteOperand v).toTrace (.threw (r.operand v)) ∨
      t = (r.noteOperand v).toTrace (.returned (r.operand v)) := by
  have hval : ∀ v : Value, (Host.texpr v).run r = (.ok (r.operand v), r.noteOperand v) :=
    fun v => texpr_exec v r
  unfold finish at h
  simp only [hval] at h
  by_cases hx : r.exhausted = true
  · left
    simpa [hx] using h.symm
  cases res with
  | ok v =>
    simp only [hx, Bool.false_or, Bool.false_eq_true, if_false, Except.ok.injEq] at h
    exact .inr ⟨v, .inr h.symm⟩
  | error e =>
    cases e <;> simp [hx, Fault.traced?] at h
    · exact .inl h.symm
    · exact .inr ⟨_, .inl h.symm⟩
    · exact .inr ⟨_, .inl h.symm⟩

/-- The trace that ends a run from a state with the invariant is well aliased, under the same
binding: its events are the state's, and its outcome is an operand formed in that state. -/
theorem finish_wellAliased {bind : String → Option Nat} {res : Except Fault Value} {r : Recording}
    {t : Trace} (hr : AliasInv input bind r) (h : finish res r = .ok t) :
    (∀ v id, bind v = some id → ∃ ev ∈ t.events, ev.var? = some v) ∧
      EventsOk input bind t.events ∧ ∀ v ∈ t.outcome.value?, WellAliased input bind t.events v := by
  have hevents : t.events = r.events.toList := by
    rcases finish_ok h with rfl | ⟨v, rfl | rfl⟩ <;> simp [Recording.toTrace]
  rw [hevents]
  refine ⟨hr.bound, hr.events, fun te hte => ?_⟩
  rcases finish_ok h with rfl | ⟨v, rfl | rfl⟩
  · cases hte
  all_goals
    simp only [Recording.toTrace, Outcome.value?, Option.mem_def, Option.some.injEq] at hte
    subst hte
    exact hr.operand (by simp) v

/-- In every trace a recording returns, with each event variable bound to the reference its
operation returned (a read to the reference it read, a call to the tracked reference it gave
back; `getProp_binds_result`, `call_binds_result`), the operands of each event are well aliased
against the events before it, and the outcome's value against all the events: the current
aliases of a reference are its argument slots and the variables of earlier events that returned
it. Only variables of the trace's events are bound. -/
theorem record_wellAliased {f : Function} {input : Input} {budget : Nat} {t : Trace}
    (h : record f input budget = .ok t) :
    ∃ bind : String → Option Nat,
      (∀ v id, bind v = some id → ∃ ev ∈ t.events, ev.var? = some v) ∧
      EventsOk input bind t.events ∧ ∀ v ∈ t.outcome.value?, WellAliased input bind t.events v := by
  have hinv0 := (start_aliasInv input.clone budget).2
  have hrun := Function.run_keeps f input.clone.args _ _ hinv0.inv
  unfold record at h
  change (match (f.run input.clone.args).exec (Recording.start input.clone budget) with
    | (res, r) => finish res { r with active := false }) = .ok t at h
  rcases hres : (f.run input.clone.args).exec (Recording.start input.clone budget) with ⟨res, r⟩
  rw [hres] at h hrun
  dsimp only at h hrun
  obtain ⟨bind, hinv, -, -⟩ := hrun
  refine ⟨bind, finish_wellAliased ?_ h⟩
  -- the recording ends unobserved, which the invariant does not read
  exact hinv.congr rfl rfl (Nat.le_refl _)

/-- The swap target, run on one empty object, is recorded and its trace is well aliased. -/
theorem record_wellAliased_swap :
    ∃ t, record (.target .objectSwap)
        { heap := { objects := #[{ kind := .plain }] }, args := [.ref 1] } 10 = .ok t ∧
      ∃ bind : String → Option Nat,
        (∀ v id, bind v = some id → ∃ ev ∈ t.events, ev.var? = some v) ∧
        EventsOk { heap := { objects := #[{ kind := .plain }] }, args := [.ref 1] } bind t.events ∧
        ∀ v ∈ t.outcome.value?,
          WellAliased { heap := { objects := #[{ kind := .plain }] }, args := [.ref 1] } bind
            t.events v := by
  have hok : (record (.target .objectSwap)
      { heap := { objects := #[{ kind := .plain }] }, args := [.ref 1] } 10).isOk = true := by
    decide +kernel
  rcases hrec : record (.target .objectSwap)
      { heap := { objects := #[{ kind := .plain }] }, args := [.ref 1] } 10 with e | t
  · rw [hrec] at hok
    cases hok
  · exact ⟨t, rfl, record_wellAliased hrec⟩

/-- The prestates of an alias set need not denote its reference in the original input once the
function writes: `arg0.x = arg0; var n = arg0.x; return n` on an empty object returns the object
itself, with `arg0` and `arg0.x` as its prestates, but `arg0.x` is undefined in the input. -/
theorem record_prestate_misses_after_write :
    ∃ t, record (.program { body := .seq [
        .assign (.field (Expr.arg 0) (.const (.str "x"))) (some (Expr.arg 0)) false,
        .assign (.var "n") (some (.field (Expr.arg 0) (.const (.str "x")))) true,
        .ret (.var "n")] })
      { heap := { objects := #[{ kind := .plain }] }, args := [.ref 1] } 10 = .ok t ∧
    ∃ pre cur, t.outcome = .returned (.general pre cur) ∧
      ∃ e₁ ∈ pre, ∃ e₂ ∈ pre,
        Prestate.eval { heap := { objects := #[{ kind := .plain }] }, args := [.ref 1] } e₁ =
          some (.ref 1) ∧
        Prestate.eval { heap := { objects := #[{ kind := .plain }] }, args := [.ref 1] } e₂ =
          some .undefined := by
  -- the run is evaluated once, by the kernel, into the outcome's kind and its prestates' values
  have hkind : ((record (.program { body := .seq [
        .assign (.field (Expr.arg 0) (.const (.str "x"))) (some (Expr.arg 0)) false,
        .assign (.var "n") (some (.field (Expr.arg 0) (.const (.str "x")))) true,
        .ret (.var "n")] })
      { heap := { objects := #[{ kind := .plain }] }, args := [.ref 1] } 10).toOption.map
        (·.outcome.kindName)) = some "return" := by
    decide +kernel
  have hpre : ((record (.program { body := .seq [
        .assign (.field (Expr.arg 0) (.const (.str "x"))) (some (Expr.arg 0)) false,
        .assign (.var "n") (some (.field (Expr.arg 0) (.const (.str "x")))) true,
        .ret (.var "n")] })
      { heap := { objects := #[{ kind := .plain }] }, args := [.ref 1] } 10).toOption.bind
        (·.outcome.value?)).any (fun te =>
      te.preState.any (fun e => (Prestate.eval
        { heap := { objects := #[{ kind := .plain }] }, args := [.ref 1] } e).any
          (Value.strictEquals (.ref 1))) &&
      te.preState.any (fun e => (Prestate.eval
        { heap := { objects := #[{ kind := .plain }] }, args := [.ref 1] } e).any
          (Value.strictEquals .undefined))) = true := by
    decide +kernel
  rcases hrec : record (.program { body := .seq [
        .assign (.field (Expr.arg 0) (.const (.str "x"))) (some (Expr.arg 0)) false,
        .assign (.var "n") (some (.field (Expr.arg 0) (.const (.str "x")))) true,
        .ret (.var "n")] })
      { heap := { objects := #[{ kind := .plain }] }, args := [.ref 1] } 10 with e | t
  · rw [hrec] at hkind
    cases hkind
  rw [hrec] at hkind hpre
  simp only [Except.toOption, Option.map_some, Option.bind_some, Option.some.injEq] at hkind hpre
  refine ⟨t, rfl, ?_⟩
  rcases ho : t.outcome with te | te | _ <;> rw [ho] at hkind hpre
  · cases te with
    | general pre cur =>
      simp only [Outcome.value?, TraceExpr.preState, Option.any_some, Bool.and_eq_true,
        List.any_eq_true, Option.any_eq_true] at hpre
      obtain ⟨⟨e₁, he₁, v₁, hv₁, h₁⟩, ⟨e₂, he₂, v₂, hv₂, h₂⟩⟩ := hpre
      refine ⟨pre, cur, rfl, e₁, he₁, e₂, he₂, ?_, ?_⟩
      · cases v₁ <;> simp_all [Value.strictEquals]
      · cases v₂ <;> simp_all [Value.strictEquals]
    | const v => simp [Outcome.value?, TraceExpr.preState, Prestate.eval] at hpre
    | alloc => simp [Outcome.value?, TraceExpr.preState] at hpre
  · simp [Outcome.kindName] at hkind
  · simp [Outcome.kindName] at hkind

end Aliasing

end TraceSynth
