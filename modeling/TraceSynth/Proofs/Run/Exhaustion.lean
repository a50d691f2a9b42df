import TraceSynth.Proofs.Run.Ledger

/-!
# Running out of budget

A run fails for the budget in two ways: a charge past the budget, which sets the flag, and the
interpreter's own fuel running out, which does not. The fuel of a program covers every round the
budget allows and the statements on any path down the program (`Interp.fuel`), and each built-in
loop gets the budget and two, so only the first happens: every run of every function that fails
for the budget has set the flag (`Exhaustion.function_run_flagged`).

The argument counts the rounds left (`Recording.slack`). A computation is `Accounted n` when it
advances the ledger and fails for the budget only with the flag set, from every state with at
most `n` rounds left. The host's steps are accounted for every `n` (`Exhaustion.accounted_steps`);
a charged round lowers the rounds left by one, so a loop round is accounted one level up from its
body; and the interpreter at fuel `F` is accounted for `n` rounds when `n` and the fuel of the
statement fit in `F` (`Exhaustion.exec_accounted`).
-/

namespace TraceSynth

open RecM Host

namespace Interp

theorem one_le_fuel (s : Stmt) : 1 ≤ fuel s := by
  cases s <;> simp only [fuel] <;> omega

theorem one_le_fuelList (ss : List Stmt) : 1 ≤ fuelList ss := by
  cases ss <;> simp only [fuelList] <;> omega

end Interp

namespace Exhaustion

open Recording Ledger

/-- A run that fails for the budget has set the flag. -/
def Flagged {α : Type} (p : Except Fault α × Recording) : Prop :=
  p.1 = .error .exhausted → p.2.exhausted = true

/-- `x` advances the ledger, and from every state with at most `n` rounds left it fails for the
budget only with the flag set. -/
def Accounted (n : Nat) {α : Type} (x : RecM α) : Prop :=
  Advances x ∧ ∀ r, r.slack ≤ n → Flagged (x.exec r)

theorem flagged_ok {α : Type} (a : α) (r : Recording) : Flagged (.ok a, r) := nofun

theorem flagged_bind {α β : Type} {x : RecM α} {f : α → RecM β} {r : Recording}
    (hx : Flagged (x.exec r)) (hf : ∀ a r', x.exec r = (.ok a, r') → Flagged ((f a).exec r')) :
    Flagged ((x >>= f).exec r) := by
  rw [exec_bind]
  rcases hres : x.exec r with ⟨e | a, r'⟩
  · rw [hres] at hx
    intro hex
    cases hex
    exact hx rfl
  · exact hf a r' hres

/-- A computation that only ever returns is accounted for every `n`, once it advances. -/
theorem accounted_of_ok {α : Type} {x : RecM α} (hx : Advances x)
    (hok : ∀ r, ∃ a, (x.exec r).1 = .ok a) (n : Nat) : Accounted n x := by
  refine ⟨hx, fun r _ hex => ?_⟩
  obtain ⟨a, ha⟩ := hok r
  rw [ha] at hex
  cases hex

theorem Accounted.bind {n : Nat} {α β : Type} {x : RecM α} {f : α → RecM β} (hx : Accounted n x)
    (hf : ∀ a, Accounted n (f a)) : Accounted n (x >>= f) := by
  refine ⟨advances_steps.bind hx.1 fun a => (hf a).1, fun r hr => ?_⟩
  refine flagged_bind (hx.2 r hr) fun a r' hres => (hf a).2 r' ?_
  -- the rounds left never grow along the first step
  have hfollow := hx.1.follows r
  rw [hres] at hfollow
  exact Nat.le_trans hfollow.slack_le hr

/-- Charging a round is accounted one level above what follows it: a round that is charged uses
up one of those left, and one that is not fails with the flag set. -/
theorem Accounted.tick_bind {n : Nat} {β : Type} {f : Unit → RecM β} (hf : Accounted n (f ())) :
    Accounted (n + 1) (tick >>= f) := by
  refine ⟨advances_steps.bind (advances_of_follows tick_follows) fun _ => hf.1, fun r hr => ?_⟩
  refine flagged_bind ?_ fun a r' hres => hf.2 r' (by have := slack_tick hres; omega)
  intro hex
  rw [tick_exec] at hex ⊢
  by_cases hx : r.exhausted = true
  · rw [if_pos hx]
    exact hx
  · rw [if_neg hx] at hex ⊢
    by_cases hb : r.budget < r.ticks + 1
    · rw [if_pos hb]
    · rw [if_neg hb] at hex
      cases hex

/-- With no round left, a charge fails with the flag set, whatever would follow it. -/
theorem flagged_tick_bind {β : Type} (f : Unit → RecM β) {r : Recording} (hr : r.slack = 0) :
    Flagged ((tick >>= f).exec r) := by
  -- no round is left: the flag is set, or the next round is past the budget
  have hfail : r.exhausted = true ∨ r.budget < r.ticks + 1 := by
    unfold slack at hr
    split at hr
    · exact .inl ‹_›
    · exact .inr (by omega)
  rw [exec_bind, tick_exec]
  by_cases hx : r.exhausted = true
  · rw [if_pos hx]
    exact fun _ => hx
  · rw [if_neg hx, if_pos (hfail.resolve_left hx)]
    exact fun _ => rfl

/-- A suspended computation fails for the budget as its body does: restoring observation leaves
the flag as it was. -/
theorem flagged_suspended {α : Type} {x : RecM α} {r : Recording}
    (hx : Flagged (x.exec { r with active := false })) : Flagged ((suspended x).exec r) := by
  unfold suspended
  simp only [exec_bind, exec_get, exec_modify]
  rw [exec_tryCatch, exec_bind]
  rcases hres : x.exec { r with active := false } with ⟨e | v, r'⟩
  · -- the failure is passed on once observation is restored
    rw [hres] at hx
    simp only [exec_bind, exec_modify, exec_throw]
    intro hex
    cases hex
    exact hx rfl
  · simp only [exec_bind, exec_modify, exec_pure]
    exact flagged_ok _ _

theorem flagged_error {α : Type} {e : Fault} (he : e ≠ .exhausted) (r : Recording) :
    Flagged ((.error e : Except Fault α), r) :=
  fun hex => absurd (Except.error.inj hex) he

theorem flagged_emit (ev : Event) (r : Recording) : Flagged ((emit ev).exec r) := by
  rw [emit_exec]
  by_cases hx : r.exhausted = true
  · rw [if_pos hx]
    exact fun _ => hx
  · rw [if_neg hx]
    split
    · exact fun _ => rfl
    · exact flagged_ok _ _

/-- Every step of the host is accounted, for any number of rounds left: none of them fails for
the budget but a charge, which sets the flag when it does. -/
theorem accounted_steps (n : Nat) : HostSteps (@Accounted n) where
  pure a := accounted_of_ok (advances_steps.pure a) (fun _ => ⟨a, rfl⟩) n
  bind hx hf := hx.bind hf
  ite {_ c _ _ _} hx hy := ⟨advances_steps.ite hx.1 hy.1, fun r hr => by
    by_cases hc : c
    · rw [if_pos hc]
      exact hx.2 r hr
    · rw [if_neg hc]
      exact hy.2 r hr⟩
  readHeap {_ f} hf hK := ⟨advances_steps.readHeap hf fun r => (hK r).1, fun r hr =>
    flagged_bind (flagged_ok _ _) fun a r' hres => by
      rw [exec_get] at hres
      cases hres
      exact (hK r).2 r hr⟩
  fail e he := ⟨advances_steps.fail e he, fun r _ => flagged_error he r⟩
  objectOf obj key verb := ⟨advances_steps.objectOf obj key verb, fun r _ => by
    rw [objectOf_exec]
    split
    · exact flagged_error (by unfold Fault.typeError; exact nofun) r
    · exact flagged_ok _ _⟩
  recorded v := accounted_of_ok (advances_steps.recorded v)
    (fun r => ⟨_, by rw [recorded_exec]⟩) n
  texpr v := accounted_of_ok (advances_steps.texpr v) (fun r => ⟨_, by rw [texpr_exec]⟩) n
  freshVar := accounted_of_ok advances_steps.freshVar (fun r => ⟨_, by rw [freshVar_exec]⟩) n
  emit ev := ⟨advances_steps.emit ev, fun r _ => flagged_emit ev r⟩
  addPreState v exprs := accounted_of_ok (advances_steps.addPreState v exprs)
    (fun r => ⟨_, addPreState_ok v exprs r⟩) n
  addCurState v e := accounted_of_ok (advances_steps.addCurState v e)
    (fun r => ⟨_, addCurState_ok v e r⟩) n
  update id o := accounted_of_ok (advances_steps.update id o) (fun _ => ⟨_, rfl⟩) n
  allocate array := accounted_of_ok (advances_steps.allocate array) (fun _ => ⟨_, rfl⟩) n
  suspended hx := ⟨advances_steps.suspended hx.1, fun r hr => flagged_suspended (hx.2 _ hr)⟩

/-- The interpreter at fuel `F` is accounted for `n` rounds left whenever `n` and the fuel the
statement needs fit in `F`: by induction on the fuel, over statements, statement lists and loop
rounds together. A round is charged before its body runs, so the body and the next round are
accounted one level below the round. -/
theorem exec_accounted (args : List Value) : ∀ F : Nat,
    (∀ n env s, n + Interp.fuel s ≤ F → Accounted n (Interp.exec args F env s)) ∧
    (∀ n env ss, n + Interp.fuelList ss ≤ F → Accounted n (Interp.execList args F env ss)) ∧
    (∀ n env x stop step body, n + Interp.fuel body + 1 ≤ F →
      Accounted n (Interp.loop args F env x stop step body))
  | 0 =>
    ⟨fun _ _ s h => absurd h (by have := Interp.one_le_fuel s; omega),
      fun _ _ ss h => absurd h (by have := Interp.one_le_fuelList ss; omega),
      fun _ _ _ _ _ _ h => absurd h (by omega)⟩
  | F + 1 => by
    obtain ⟨ihStmt, ihList, ihLoop⟩ := exec_accounted args F
    refine ⟨fun n env s hs => ?_, fun n env ss hss => ?_, fun n env x stop step body hb => ?_⟩
    · have hK := accounted_steps n
      cases s with
      | seq ss => exact ihList n env ss (by simp only [Interp.fuel] at hs; omega)
      | ite c t e =>
        simp only [Interp.fuel] at hs
        exact hK.bind (hK.eval args env c) fun _ =>
          hK.ite (ihStmt n env t (by omega)) (ihStmt n env e (by omega))
      | loop x start stop step body =>
        simp only [Interp.fuel] at hs
        exact hK.bind (hK.eval args env start) fun _ => ihLoop n _ x stop step body (by omega)
      | _ => exact hK.exec_leaf args env F _ nofun nofun nofun
    · have hK := accounted_steps n
      cases ss with
      | nil => exact hK.pure _
      | cons s rest =>
        simp only [Interp.fuelList] at hss
        simp only [Interp.execList]
        refine hK.bind (ihStmt n env s (by omega)) fun p => ?_
        split
        · exact ihList n _ rest (by omega)
        · exact hK.pure _
    · cases n with
      | zero =>
        -- no round left: the charge fails with the flag set
        refine ⟨(advances_closed.exec args (F + 1)).2.2 env x stop step body, fun r hr => ?_⟩
        simp only [Interp.loop]
        exact flagged_tick_bind _ (Nat.le_zero.1 hr)
      | succ m =>
        -- the round is charged, and the rest of it is accounted one level below
        have hK := accounted_steps m
        simp only [Interp.loop]
        refine Accounted.tick_bind (hK.bind (hK.eval args env stop) fun _ =>
          hK.ite (hK.pure _) (hK.bind (ihStmt m env body (by omega)) fun p => ?_))
        split
        · exact hK.pure _
        · exact hK.pure _
        · exact hK.bind (hK.eval args _ step) fun _ => ihLoop m _ x stop step body (by omega)

/-- A built-in loop at fuel `F` is accounted for `n` rounds left when `n + 1` fits in `F`: each
round is charged before it runs, and with no round left the charge fails with the flag set. -/
theorem shiftDown_accounted (o : Value) (len : Nat) : ∀ F n k, n + 1 ≤ F →
    Accounted n (Target.shiftDown o len F k)
  | 0, _, _, h => absurd h (by omega)
  | F + 1, 0, k, _ => by
    refine ⟨advances_closed.shiftDown o len (F + 1) k, fun r hr => ?_⟩
    unfold Target.shiftDown
    split
    · exact flagged_tick_bind _ (Nat.le_zero.1 hr)
    · exact flagged_ok _ _
  | F + 1, m + 1, k, h => by
    have hK := accounted_steps m
    unfold Target.shiftDown
    refine (accounted_steps (m + 1)).ite ?_ ((accounted_steps (m + 1)).pure _)
    exact Accounted.tick_bind (hK.bind (hK.getProp _ _) fun v =>
      hK.bind (hK.write _ _ v _) fun _ => shiftDown_accounted o len F m (k + 1) (by omega))

theorem scanFor_accounted (o : Value) (len : Nat) (want : Bool) : ∀ F n k, n + 1 ≤ F →
    Accounted n (Target.scanFor o len want F k)
  | 0, _, _, h => absurd h (by omega)
  | F + 1, 0, k, _ => by
    refine ⟨advances_closed.scanFor o len want (F + 1) k, fun r hr => ?_⟩
    unfold Target.scanFor
    split
    · exact flagged_tick_bind _ (Nat.le_zero.1 hr)
    · exact flagged_ok _ _
  | F + 1, m + 1, k, h => by
    have hK := accounted_steps m
    unfold Target.scanFor
    refine (accounted_steps (m + 1)).ite ?_ ((accounted_steps (m + 1)).pure _)
    exact Accounted.tick_bind (hK.bind (hK.getProp _ _) fun _ =>
      hK.ite (hK.pure _) (scanFor_accounted o len want F m (k + 1) (by omega)))

theorem spin_accounted : ∀ F n, n + 1 ≤ F → Accounted n (Target.spin F)
  | 0, _, h => absurd h (by omega)
  | F + 1, 0, _ =>
    ⟨advances_closed.spin (F + 1), fun _ hr => flagged_tick_bind _ (Nat.le_zero.1 hr)⟩
  | F + 1, m + 1, h => Accounted.tick_bind (spin_accounted F m (by omega))

/-- A built-in target fails for the budget only with the flag set: its loops get the budget and
two rounds of fuel, and no more than the budget of rounds is left. -/
theorem target_run_flagged (t : Target) (args : List Value) (r : Recording) :
    Flagged ((t.run args).exec r) := by
  unfold Target.run
  rw [exec_bind, exec_get]
  dsimp only
  have hK := accounted_steps r.budget
  have hfuel : r.budget + 1 ≤ r.budget + 2 := by omega
  refine (?_ : Accounted r.budget _).2 r (slack_le_budget r)
  have hlen : ∀ o, Accounted r.budget (Target.lengthOf o) := fun o =>
    hK.bind (hK.getProp _ _) fun _ => hK.pure _
  cases t with
  | arrayPop =>
    refine hK.bind (hlen _) fun n => hK.ite ?_ ?_
    · exact hK.bind (hK.write _ _ _ _) fun _ => hK.pure _
    · exact hK.bind (hK.getProp _ _) fun _ => hK.bind (hK.deleteProp _ _) fun _ =>
        hK.bind (hK.write _ _ _ _) fun _ => hK.pure _
  | arrayPush =>
    exact hK.bind (hlen _) fun n => hK.bind (hK.write _ _ _ _) fun _ =>
      hK.bind (hK.write _ _ _ _) fun _ => hK.pure _
  | arrayShift =>
    refine hK.bind (hlen _) fun n => hK.ite ?_ ?_
    · exact hK.bind (hK.write _ _ _ _) fun _ => hK.pure _
    · exact hK.bind (hK.getProp _ _) fun _ =>
        hK.bind (shiftDown_accounted _ _ _ _ _ hfuel) fun _ =>
          hK.bind (hK.deleteProp _ _) fun _ => hK.bind (hK.write _ _ _ _) fun _ => hK.pure _
  | arrayLastOrSelf =>
    exact hK.ite (hK.pure _) (hK.bind (hK.getProp _ _) fun _ => hK.getProp _ _)
  | arrayIndex => exact hK.getProp _ _
  | arrayEvery | arraySome =>
    exact hK.bind (hlen _) fun n => scanFor_accounted _ _ _ _ _ _ hfuel
  | objectSwap =>
    exact hK.bind (hK.getProp _ _) fun _ => hK.bind (hK.getProp _ _) fun _ =>
      hK.bind (hK.write _ _ _ _) fun _ => hK.bind (hK.write _ _ _ _) fun _ => hK.pure _
  | objectDeleteField => exact hK.bind (hK.deleteProp _ _) fun _ => hK.pure _
  | noop => exact hK.pure _
  | throwEmpty =>
    exact hK.bind (hK.getProp _ _) fun _ => hK.ite (hK.fail _ nofun) (hK.getProp _ _)
  | callApply => exact hK.call _ _ _ _
  | loopForever => exact spin_accounted _ _ hfuel

/-- A program fails for the budget only with the flag set: its fuel is the budget and the fuel
of its body, and no more than the budget of rounds is left. -/
theorem program_run_flagged (p : Program) (args : List Value) (r : Recording) :
    Flagged ((p.run args).exec r) := by
  unfold Program.run
  rw [exec_bind, exec_get]
  dsimp only
  have hK := accounted_steps r.budget
  refine (?_ : Accounted r.budget _).2 r (slack_le_budget r)
  refine hK.bind ((exec_accounted args _).1 r.budget _ p.body (Nat.le_refl _)) fun res => ?_
  obtain ⟨sig, _⟩ := res
  cases sig <;> exact hK.pure _

/-- Every run of every function that fails for the budget has set the flag: the interpreter's
fuel never runs out before the budget does. -/
theorem function_run_flagged (f : Function) (args : List Value) (r : Recording) :
    Flagged ((f.run args).exec r) := by
  cases f with
  | target t => exact target_run_flagged t args r
  | program p => exact program_run_flagged p args r

end Exhaustion

end TraceSynth
