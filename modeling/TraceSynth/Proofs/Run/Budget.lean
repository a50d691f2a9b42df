import TraceSynth.Proofs.Run.Exhaustion

/-!
# Raising the budget

A run that ends with the budget's flag clear never met the budget: every charge it made fit. Run
again with a larger budget, it makes the same charges, which fit again, and so the same run:
the same result and the same final state, but for the budget itself. The interpreter's fuel
grows with the budget, and more fuel changes nothing for a run that did not run out of it.

* `Rebudget x x'`: from any state, a run of `x` that ends with the flag clear and not for the
  budget is the run of `x'` from the same state under any larger budget.
* `Budget.blind_steps`: the host's steps rebudget themselves, so evaluation and calls do.
* `Budget.exec_rebudget`: the interpreter at fuel `F` is rebudgeted by the interpreter at any
  fuel `F' ≥ F`, so a run of every function is rebudgeted by itself
  (`Budget.function_run_rebudget`).
-/

namespace TraceSynth

open RecM Host

namespace Recording

/-- The same recording with another budget. -/
def withBudget (r : Recording) (b : Nat) : Recording := { r with budget := b }

@[simp] theorem withBudget_budget (r : Recording) (b : Nat) : (r.withBudget b).budget = b := rfl

@[simp] theorem withBudget_events (r : Recording) (b : Nat) :
    (r.withBudget b).events = r.events := rfl

@[simp] theorem withBudget_ticks (r : Recording) (b : Nat) : (r.withBudget b).ticks = r.ticks := rfl

@[simp] theorem withBudget_exhausted (r : Recording) (b : Nat) :
    (r.withBudget b).exhausted = r.exhausted := rfl

@[simp] theorem withBudget_heap (r : Recording) (b : Nat) : (r.withBudget b).heap = r.heap := rfl

theorem modifyAliases_withBudget (r : Recording) (b id : Nat) (f : Aliases → Aliases) :
    (r.withBudget b).modifyAliases id f = (r.modifyAliases id f).withBudget b := by
  unfold modifyAliases
  have hsame : (r.withBudget b).aliasesOf id = r.aliasesOf id := rfl
  rw [hsame]
  split <;> rfl

end Recording

namespace Budget

open Recording Ledger Exhaustion

/-- From any state, a run of `x` that ends with the flag clear and not for the budget is the run
of `x'` from the same state under any larger budget, up to the budget. -/
def Rebudget {α : Type} (x x' : RecM α) : Prop :=
  ∀ r b, r.budget ≤ b → ∀ res r', x.exec r = (res, r') → r'.exhausted = false →
    res ≠ .error .exhausted → x'.exec (r.withBudget b) = (res, r'.withBudget b)

theorem Rebudget.bind {α β : Type} {x x' : RecM α} {f f' : α → RecM β} (hx : Rebudget x x')
    (hxa : Advances x) (hf : ∀ a, Rebudget (f a) (f' a)) (hfa : ∀ a, Advances (f a)) :
    Rebudget (x >>= f) (x' >>= f') := by
  intro r b hb res r'' hres hclear hne
  rw [exec_bind] at hres ⊢
  rcases hx1 : x.exec r with ⟨e | a, r'⟩
  · -- the first step failed: both runs fail there
    rw [hx1] at hres
    cases hres
    rw [hx r b hb _ _ hx1 hclear fun h => hne (by cases h; rfl)]
  · rw [hx1] at hres
    dsimp only at hres
    -- the flag is clear after the first step, since it stays set once set
    have hclear' : r'.exhausted = false := by
      cases hr' : r'.exhausted
      · rfl
      · have := ((hfa a).follows r').frozen hr'
        rw [hres] at this
        rw [this.1] at hclear
        cases hclear
    have hbudget : r'.budget ≤ b := by
      have := (hxa.follows r).budget
      rw [hx1] at this
      rw [this]
      exact hb
    rw [hx r b hb _ _ hx1 hclear' nofun]
    exact hf a r' b hbudget _ _ hres hclear hne

/-- `x` advances the ledger and is rebudgeted by `x'`: the form in which rebudgeting composes. -/
def Raised {α : Type} (x x' : RecM α) : Prop := Advances x ∧ Rebudget x x'

/-- `x` reads nothing of the budget but through its charges. -/
def Blind {α : Type} (x : RecM α) : Prop := Raised x x

theorem Raised.bind {α β : Type} {x x' : RecM α} {f f' : α → RecM β} (hx : Raised x x')
    (hf : ∀ a, Raised (f a) (f' a)) : Raised (x >>= f) (x' >>= f') :=
  ⟨advances_steps.bind hx.1 fun a => (hf a).1, hx.2.bind hx.1 (fun a => (hf a).2) fun a => (hf a).1⟩

theorem Raised.ite {α : Type} {c : Prop} [Decidable c] {x x' y y' : RecM α} (hx : Raised x x')
    (hy : Raised y y') : Raised (if c then x else y) (if c then x' else y') := by
  by_cases hc : c
  · rw [if_pos hc, if_pos hc]
    exact hx
  · rw [if_neg hc, if_neg hc]
    exact hy

/-- Running out of fuel is no run that ended with the flag clear and not for the budget. -/
theorem Raised.fuelOut {α : Type} (x' : RecM α) : Raised (throw .exhausted : RecM α) x' :=
  ⟨fun _ => Keeps.throw _, fun _ _ _ _ _ hres _ hne => absurd (congrArg Prod.fst hres).symm hne⟩

/-- A step whose result and final state are read off the state without its budget is blind,
once it advances. -/
theorem blind_of_exec {α : Type} {x : RecM α} (hx : Advances x)
    (h : ∀ r b, x.exec (r.withBudget b) = ((x.exec r).1, (x.exec r).2.withBudget b)) :
    Blind x := by
  refine ⟨hx, fun r b _ res r' hres _ _ => ?_⟩
  rw [h r b, hres]

theorem blind_emit (ev : Event) : Blind (emit ev) := by
  refine ⟨advances_steps.emit ev, fun r b hb res r' hres hclear _ => ?_⟩
  rw [emit_exec] at hres ⊢
  by_cases hx : r.exhausted = true
  · rw [if_pos hx] at hres
    cases hres
    rw [hx] at hclear
    cases hclear
  · rw [if_neg hx] at hres
    by_cases hfit : r.budget < r.events.size + 1
    · rw [if_pos hfit] at hres
      cases hres
      cases hclear
    · -- the event fits the budget, and so any larger one
      rw [if_neg hfit] at hres
      cases hres
      have hfit' : ¬b < r.events.size + 1 := by omega
      rw [withBudget_exhausted, if_neg hx, withBudget_events, withBudget_budget, if_neg hfit']
      rfl

theorem blind_suspended {α : Type} {x : RecM α} (hx : Blind x) : Blind (suspended x) := by
  refine ⟨advances_steps.suspended hx.1, fun r b hb res r'' hres hclear hne => ?_⟩
  unfold suspended at hres ⊢
  simp only [exec_bind, exec_get, exec_modify] at hres ⊢
  rw [exec_tryCatch, exec_bind] at hres ⊢
  -- observation is switched off the same way under either budget
  have hoff : ({ r.withBudget b with active := false } : Recording) =
      ({ r with active := false } : Recording).withBudget b := rfl
  rw [hoff]
  rcases hx1 : x.exec { r with active := false } with ⟨e | v, r'⟩
  · rw [hx1] at hres
    simp only [exec_bind, exec_modify, exec_throw] at hres
    cases hres
    rw [hx.2 { r with active := false } b hb _ _ hx1 hclear hne]
    rfl
  · rw [hx1] at hres
    simp only [exec_bind, exec_modify, exec_pure] at hres
    cases hres
    rw [hx.2 { r with active := false } b hb _ _ hx1 hclear nofun]
    rfl

/-- The host's steps read nothing of the budget but through their charges. -/
theorem blind_steps : HostSteps @Blind where
  pure a := blind_of_exec (advances_steps.pure a) fun _ _ => rfl
  bind hx hf := Raised.bind hx hf
  ite hx hy := Raised.ite hx hy
  readHeap {_ f} hf hK := ⟨advances_steps.readHeap hf fun r => (hK r).1,
    fun r b hb res r' hres hclear hne => by
      rw [exec_bind, exec_get] at hres ⊢
      dsimp only at hres ⊢
      rw [hf r (r.withBudget b) rfl]
      exact (hK r).2 r b hb res r' hres hclear hne⟩
  fail e he := blind_of_exec (advances_steps.fail e he) fun _ _ => rfl
  objectOf obj key verb := blind_of_exec (advances_steps.objectOf obj key verb) fun r b => by
    rw [objectOf_exec, objectOf_exec]
    split <;> rfl
  recorded v := blind_of_exec (advances_steps.recorded v) fun r b => by
    rw [recorded_exec, recorded_exec]
    rfl
  texpr v := blind_of_exec (advances_steps.texpr v) fun r b => by
    rw [texpr_exec, texpr_exec]
    cases v <;> rfl
  freshVar := blind_of_exec advances_steps.freshVar fun _ _ => rfl
  emit := blind_emit
  addPreState v exprs := blind_of_exec (advances_steps.addPreState v exprs) fun r b => by
    rw [addPreState_exec, addPreState_exec]
    cases v
    case ref id =>
      exact congrArg _ (modifyAliases_withBudget { r with prestates := r.prestates ++ exprs.toArray }
        b id _)
    all_goals rfl
  addCurState v e := blind_of_exec (advances_steps.addCurState v e) fun r b => by
    rw [addCurState_exec, addCurState_exec]
    cases v
    case ref id => exact congrArg _ (modifyAliases_withBudget r b id _)
    all_goals rfl
  update id o := blind_of_exec (advances_steps.update id o) fun _ _ => rfl
  allocate array := blind_of_exec (advances_steps.allocate array) fun _ _ => rfl
  suspended := blind_suspended

theorem blind_tick : Blind tick := by
  refine ⟨advances_of_follows tick_follows, fun r b hb res r' hres hclear _ => ?_⟩
  rw [tick_exec] at hres ⊢
  by_cases hx : r.exhausted = true
  · rw [if_pos hx] at hres
    cases hres
    rw [hx] at hclear
    cases hclear
  · rw [if_neg hx] at hres
    by_cases hfit : r.budget < r.ticks + 1
    · rw [if_pos hfit] at hres
      cases hres
      cases hclear
    · -- the round fits the budget, and so any larger one
      rw [if_neg hfit] at hres
      cases hres
      have hfit' : ¬b < r.ticks + 1 := by omega
      rw [withBudget_exhausted, if_neg hx, withBudget_ticks, withBudget_budget, if_neg hfit']
      rfl

/-- The interpreter at fuel `F` is rebudgeted by the interpreter at any larger fuel: by induction
on the fuel, over statements, statement lists and loop rounds together. Running out of fuel ends
no run that this relates, and a statement that is no block, conditional or loop runs the same at
any fuel. -/
theorem exec_raised (args : List Value) : ∀ F F', F ≤ F' →
    (∀ env s, Raised (Interp.exec args F env s) (Interp.exec args F' env s)) ∧
    (∀ env ss, Raised (Interp.execList args F env ss) (Interp.execList args F' env ss)) ∧
    (∀ env x stop step body,
      Raised (Interp.loop args F env x stop step body) (Interp.loop args F' env x stop step body))
  | 0, _, _ => ⟨fun _ _ => Raised.fuelOut _, fun _ _ => Raised.fuelOut _,
      fun _ _ _ _ _ => Raised.fuelOut _⟩
  | F + 1, 0, h => absurd h (by omega)
  | F + 1, G + 1, h => by
    obtain ⟨ihStmt, ihList, ihLoop⟩ := exec_raised args F G (by omega)
    have hK := blind_steps
    refine ⟨fun env s => ?_, fun env ss => ?_, fun env x stop step body => ?_⟩
    · cases s with
      | seq ss => exact ihList env ss
      | ite c t e => exact (hK.eval args env c).bind fun _ => (ihStmt env t).ite (ihStmt env e)
      | loop x start stop step body =>
        exact (hK.eval args env start).bind fun _ => ihLoop _ x stop step body
      | _ =>
        exact hK.exec_leaf args env F _ (fun _ h => Stmt.noConfusion h)
          (fun _ _ _ h => Stmt.noConfusion h) (fun _ _ _ _ _ h => Stmt.noConfusion h)
    · cases ss with
      | nil => exact hK.pure _
      | cons s rest =>
        refine (ihStmt env s).bind fun p => ?_
        obtain ⟨sig, env'⟩ := p
        cases sig with
        | normal => exact ihList env' rest
        | _ => exact hK.pure _
    · refine blind_tick.bind fun _ => (hK.eval args env stop).bind fun _ =>
        (hK.pure _).ite ((ihStmt env body).bind fun p => ?_)
      obtain ⟨sig, env'⟩ := p
      cases sig with
      | normal => exact (hK.eval args env' step).bind fun _ => ihLoop _ x stop step body
      | _ => exact hK.pure _

/-- Reading the budget to size the fuel: a computation that goes on from the state it reads is
blind when going on from a state with a larger budget rebudgets going on from the state itself. -/
theorem blind_get_bind {α : Type} {g : Recording → RecM α}
    (hg : ∀ r b, r.budget ≤ b → Raised (g r) (g (r.withBudget b))) :
    Blind (MonadState.get >>= g) := by
  refine ⟨fun r₀ => Keeps.get.bind fun r => (hg r r.budget (Nat.le_refl _)).1 r₀,
    fun r b hb res r' hres hclear hne => ?_⟩
  rw [exec_bind, exec_get] at hres ⊢
  exact (hg r b hb).2 r b hb res r' hres hclear hne

theorem shiftDown_raised (o : Value) (len : Nat) : ∀ F F', F ≤ F' → ∀ k,
    Raised (Target.shiftDown o len F k) (Target.shiftDown o len F' k)
  | 0, _, _, _ => Raised.fuelOut _
  | F + 1, 0, h, _ => absurd h (by omega)
  | F + 1, G + 1, h, k => by
    have hK := blind_steps
    unfold Target.shiftDown
    exact Raised.ite (blind_tick.bind fun _ => (hK.getProp _ _).bind fun v =>
      (hK.write _ _ v _).bind fun _ => shiftDown_raised o len F G (by omega) (k + 1)) (hK.pure _)

theorem scanFor_raised (o : Value) (len : Nat) (want : Bool) : ∀ F F', F ≤ F' → ∀ k,
    Raised (Target.scanFor o len want F k) (Target.scanFor o len want F' k)
  | 0, _, _, _ => Raised.fuelOut _
  | F + 1, 0, h, _ => absurd h (by omega)
  | F + 1, G + 1, h, k => by
    have hK := blind_steps
    unfold Target.scanFor
    exact Raised.ite (blind_tick.bind fun _ => (hK.getProp _ _).bind fun _ =>
      (hK.pure _).ite (scanFor_raised o len want F G (by omega) (k + 1))) (hK.pure _)

theorem spin_raised : ∀ F F', F ≤ F' → Raised (Target.spin F) (Target.spin F')
  | 0, _, _ => Raised.fuelOut _
  | F + 1, 0, h => absurd h (by omega)
  | F + 1, G + 1, h => blind_tick.bind fun _ => spin_raised F G (by omega)

/-- A built-in target is blind: its loops get more fuel under a larger budget, which changes
nothing for a run that ended with the flag clear. -/
theorem target_run_blind (t : Target) (args : List Value) : Blind (t.run args) := by
  unfold Target.run
  refine blind_get_bind fun r b hb => ?_
  dsimp only [withBudget_budget]
  have hK := blind_steps
  have hfuel : r.budget + 2 ≤ b + 2 := by omega
  have hlen : ∀ o, Blind (Target.lengthOf o) := fun o => (hK.getProp _ _).bind fun _ => hK.pure _
  cases t with
  | arrayPop =>
    refine (hlen _).bind fun n => Raised.ite ?_ ?_
    · exact (hK.write _ _ _ _).bind fun _ => hK.pure _
    · exact (hK.getProp _ _).bind fun _ => (hK.deleteProp _ _).bind fun _ =>
        (hK.write _ _ _ _).bind fun _ => hK.pure _
  | arrayPush =>
    exact (hlen _).bind fun n => (hK.write _ _ _ _).bind fun _ =>
      (hK.write _ _ _ _).bind fun _ => hK.pure _
  | arrayShift =>
    refine (hlen _).bind fun n => Raised.ite ?_ ?_
    · exact (hK.write _ _ _ _).bind fun _ => hK.pure _
    · exact (hK.getProp _ _).bind fun _ => (shiftDown_raised _ _ _ _ hfuel _).bind fun _ =>
        (hK.deleteProp _ _).bind fun _ => (hK.write _ _ _ _).bind fun _ => hK.pure _
  | arrayLastOrSelf =>
    exact Raised.ite (hK.pure _) ((hK.getProp _ _).bind fun _ => hK.getProp _ _)
  | arrayIndex => exact hK.getProp _ _
  | arrayEvery | arraySome =>
    exact (hlen _).bind fun n => scanFor_raised _ _ _ _ _ hfuel _
  | objectSwap =>
    exact (hK.getProp _ _).bind fun _ => (hK.getProp _ _).bind fun _ =>
      (hK.write _ _ _ _).bind fun _ => (hK.write _ _ _ _).bind fun _ => hK.pure _
  | objectDeleteField => exact (hK.deleteProp _ _).bind fun _ => hK.pure _
  | noop => exact hK.pure _
  | throwEmpty =>
    exact (hK.getProp _ _).bind fun _ => Raised.ite (hK.fail _ nofun) (hK.getProp _ _)
  | callApply => exact hK.call _ _ _ _
  | loopForever => exact spin_raised _ _ hfuel

/-- A program is blind: its fuel grows with the budget, which changes nothing for a run that
ended with the flag clear. -/
theorem program_run_blind (p : Program) (args : List Value) : Blind (p.run args) := by
  unfold Program.run
  refine blind_get_bind fun r b hb => ?_
  dsimp only [withBudget_budget]
  refine ((exec_raised args _ _ (by omega)).1 _ p.body).bind fun res => ?_
  obtain ⟨sig, _⟩ := res
  cases sig <;> exact blind_steps.pure _

/-- Every run of every function is blind to the budget but through its charges. -/
theorem function_run_blind (f : Function) (args : List Value) : Blind (f.run args) := by
  cases f with
  | target t => exact target_run_blind t args
  | program p => exact program_run_blind p args

end Budget

end TraceSynth
