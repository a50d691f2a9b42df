import TraceSynth.Proofs.Run.Budget
import TraceSynth.Proofs.Run.WellAliased

/-!
# Budget accounting of a recording

`record f input budget` runs `f` from a fresh recording (`recordRun`) and turns the run into a
trace. Putting the ledger, exhaustion and rebudgeting together, for every function, input and
budget (`record_budget_accounting`):

* at most one event and one round past the budget are counted, and the flag is set exactly when
  an event or a round went past it;
* the run never fails for the budget without the flag: no fuel runs out before the budget;
* the trace holds the run's events, and its outcome is exhaustion exactly when the flag is set;
* once the flag is set, every charge fails and changes nothing, so no run adds an event;
* a run that ended with the flag clear is recorded the same under every larger budget.
-/

namespace TraceSynth

open RecM Host

namespace Recording

open Ledger Budget

/-- A fresh recording has charged nothing, under the budget it was given. -/
theorem start_ledger (input : Input) (budget : Nat) :
    (start input budget).budget = budget ∧ (start input budget).events = #[] ∧
      (start input budget).ticks = 0 ∧ (start input budget).exhausted = false := by
  unfold start
  dsimp only
  refine List.foldlRecOn (motive := fun r : Recording =>
    r.budget = budget ∧ r.events = #[] ∧ r.ticks = 0 ∧ r.exhausted = false) _ _
    ⟨rfl, rfl, rfl, rfl⟩ ?_
  rintro r ⟨hb, he, ht, hx⟩ ⟨arg, i⟩ -
  cases arg
  case ref id =>
    obtain ⟨hb', he', ht', hx'⟩ := ledger_modifyAliases
      { r with prestates := r.prestates.push (Expr.arg i) } id
      fun a => { pre := a.pre ++ [Expr.arg i], cur := a.cur ++ [Expr.arg i] }
    exact ⟨hb'.trans hb, he'.trans he, ht'.trans ht, hx'.trans hx⟩
  all_goals exact ⟨hb, he, ht, hx⟩

theorem start_charged (input : Input) (budget : Nat) : (start input budget).Charged := by
  obtain ⟨hb, he, ht, hx⟩ := start_ledger input budget
  refine ⟨?_, ?_, ?_⟩ <;> simp [hb, he, ht, hx]

/-- Starting under another budget is starting the same recording with that budget. -/
theorem start_withBudget (input : Input) (budget b : Nat) :
    (start input budget).withBudget b = start input b := by
  unfold start
  dsimp only
  -- the steps that track the arguments never read the budget
  have hinit : ({ heap := input.heap, budget := b } : Recording) =
      ({ heap := input.heap, budget := budget } : Recording).withBudget b := rfl
  rw [hinit, List.foldl_hom (Recording.withBudget · b) ?_]
  · rfl
  · intro r ⟨arg, i⟩
    cases arg
    case ref id =>
      exact modifyAliases_withBudget { r with prestates := r.prestates.push (Expr.arg i) } b id _
    all_goals rfl

end Recording

open Recording Ledger Exhaustion Budget

/-- Ending a run reads nothing of the budget. -/
theorem finish_withBudget (res : Except Fault Value) (r : Recording) (b : Nat) :
    finish res (r.withBudget b) = finish res r := by
  have hval : ∀ (v : Value) (r : Recording),
      (Host.texpr v).run r = (.ok (r.operand v), r.noteOperand v) := fun v r => texpr_exec v r
  have hnote : ∀ v, (r.withBudget b).noteOperand v = (r.noteOperand v).withBudget b := fun v => by
    cases v <;> rfl
  unfold finish
  simp only [hval, hnote]
  rfl

/-- The trace that ends a run whose failures for the budget are flagged: it holds the run's
events, and its outcome is exhaustion exactly when the flag is set. -/
theorem finish_outcome {res : Except Fault Value} {r : Recording} {t : Trace}
    (hflag : Flagged (res, r)) (h : finish res r = .ok t) :
    t.events = r.events.toList ∧ (t.outcome = .exhausted ↔ r.exhausted = true) := by
  have hval : ∀ v : Value, (Host.texpr v).run r = (.ok (r.operand v), r.noteOperand v) :=
    fun v => texpr_exec v r
  unfold finish at h
  simp only [hval] at h
  by_cases hx : r.exhausted = true
  · simp only [hx, Bool.true_or, if_true, Except.ok.injEq] at h
    subst h
    exact ⟨rfl, iff_of_true rfl hx⟩
  -- with the flag clear the run did not fail for the budget, and the trace ends in its value
  have hres : res ≠ .error .exhausted := fun he => hx (hflag he)
  cases res with
  | ok v =>
    simp only [hx, Bool.false_or, Bool.false_eq_true, if_false, Except.ok.injEq] at h
    subst h
    exact ⟨by simp [Recording.toTrace], iff_of_false (fun h => Outcome.noConfusion h) hx⟩
  | error e =>
    cases e <;> simp [hx, Fault.traced?] at h
    · exact absurd rfl hres
    all_goals
      subst h
      exact ⟨by simp [Recording.toTrace], iff_of_false (fun h => Outcome.noConfusion h) hx⟩

/-- The run behind `record f input budget`: the function's result, and the recording it ends
in. -/
def recordRun (f : Function) (input : Input) (budget : Nat) : Except Fault Value × Recording :=
  (f.run input.clone.args).exec (Recording.start input.clone budget)

theorem record_eq_finish (f : Function) (input : Input) (budget : Nat) :
    record f input budget =
      finish (recordRun f input budget).1 { (recordRun f input budget).2 with active := false } :=
  rfl

section Run

variable (f : Function) (input : Input) (budget : Nat)

theorem recordRun_follows : Follows (start input.clone budget) (recordRun f input budget).2 :=
  (function_run_advances f _).follows _

theorem recordRun_budget : (recordRun f input budget).2.budget = budget :=
  (recordRun_follows f input budget).budget.trans (start_ledger _ _).1

theorem recordRun_charged : (recordRun f input budget).2.Charged :=
  (recordRun_follows f input budget).charged (start_charged _ _)

/-- A run that ended with the flag clear is the run under every larger budget, up to the
budget: it is recorded the same. -/
theorem record_of_clear (hclear : (recordRun f input budget).2.exhausted = false) {budget' : Nat}
    (hle : budget ≤ budget') : record f input budget' = record f input budget := by
  have hne : (recordRun f input budget).1 ≠ .error .exhausted := fun he => by
    have hx : (recordRun f input budget).2.exhausted = true := function_run_flagged f _ _ he
    rw [hx] at hclear
    cases hclear
  have hrun : recordRun f input budget' =
      ((recordRun f input budget).1, (recordRun f input budget).2.withBudget budget') := by
    unfold recordRun
    rw [← start_withBudget _ budget budget']
    exact (function_run_blind f _).2 _ budget' (by rw [(start_ledger _ _).1]; exact hle) _ _ rfl
      hclear hne
  rw [record_eq_finish, record_eq_finish, hrun]
  exact finish_withBudget _ { (recordRun f input budget).2 with active := false } budget'

/-- A run that set the flag is recorded as exhausted. -/
theorem record_of_flag (hx : (recordRun f input budget).2.exhausted = true) :
    record f input budget =
      .ok ({ (recordRun f input budget).2 with active := false }.toTrace .exhausted) := by
  rw [record_eq_finish]
  unfold finish
  simp only [hx, Bool.true_or, if_true]

end Run

/-- A charge made after the flag is set fails and changes nothing, and so does every run from
such a state: no event is added and no round counted. -/
theorem charges_frozen (r : Recording) (hx : r.exhausted = true) :
    (∀ ev, (emit ev).exec r = (.error .exhausted, r)) ∧ tick.exec r = (.error .exhausted, r) ∧
      ∀ (g : Function) args, ((g.run args).exec r).2.exhausted = true ∧
        ((g.run args).exec r).2.events = r.events ∧ ((g.run args).exec r).2.ticks = r.ticks := by
  refine ⟨fun ev => ?_, ?_, fun g args => ((function_run_advances g args).follows r).frozen hx⟩
  · rw [emit_exec, if_pos hx]
  · rw [tick_exec, if_pos hx]

/-- A round that is charged and succeeds fits the budget, with the flag clear. -/
theorem tick_ok_fits {r r' : Recording} (h : tick.exec r = (.ok (), r')) :
    r'.ticks ≤ r.budget ∧ r'.exhausted = false := by
  rw [tick_exec] at h
  by_cases hx : r.exhausted = true
  · rw [if_pos hx] at h
    cases h
  rw [if_neg hx] at h
  by_cases hb : r.budget < r.ticks + 1
  · rw [if_pos hb] at h
    cases h
  · rw [if_neg hb] at h
    cases h
    exact ⟨by dsimp only; omega, by simpa using hx⟩

/-- The budget of a recording, for every function, input and budget: the run counts at most one
event and one round past the budget and sets the flag exactly when one went past it; it never
fails for the budget without the flag, so no fuel runs out first; the trace holds its events and
ends in exhaustion exactly when the flag is set, also when the function caught the failure; a
charge succeeds only within the budget, and once the flag is set every charge fails and no run
adds an event or a round; and a recording that did not end in exhaustion is the same under every
larger budget. -/
theorem record_budget_accounting (f : Function) (input : Input) (budget : Nat) :
    let run := recordRun f input budget
    (run.2.events.size ≤ budget + 1 ∧ run.2.ticks ≤ budget + 1 ∧
      (run.2.exhausted = true ↔ budget < run.2.events.size ∨ budget < run.2.ticks)) ∧
    (run.1 = .error .exhausted → run.2.exhausted = true) ∧
    (∀ t, record f input budget = .ok t →
      t.events = run.2.events.toList ∧ (t.outcome = .exhausted ↔ run.2.exhausted = true)) ∧
    ((∀ r r' : Recording, tick.exec r = (.ok (), r') → r'.ticks ≤ r.budget) ∧
      ∀ r : Recording, r.exhausted = true →
        (∀ ev, (emit ev).exec r = (.error .exhausted, r)) ∧ tick.exec r = (.error .exhausted, r) ∧
        ∀ (g : Function) args, ((g.run args).exec r).2.exhausted = true ∧
          ((g.run args).exec r).2.events = r.events ∧ ((g.run args).exec r).2.ticks = r.ticks) ∧
    ((∀ t, record f input budget = .ok t → t.outcome ≠ .exhausted) →
      ∀ budget', budget ≤ budget' → record f input budget' = record f input budget) := by
  intro run
  have hcharged := recordRun_charged f input budget
  have hbudget := recordRun_budget f input budget
  have hflag : Flagged run := function_run_flagged f _ _
  refine ⟨?_, hflag, ?_, ⟨fun r r' h => (tick_ok_fits h).1, charges_frozen⟩, ?_⟩
  · rw [← hbudget]
    exact ⟨hcharged.events_le, hcharged.ticks_le, hcharged.exhausted_iff⟩
  · intro t ht
    rw [record_eq_finish] at ht
    exact finish_outcome (r := { run.2 with active := false }) hflag ht
  · -- a set flag would have ended the recording in exhaustion
    intro hnot budget' hle
    cases hx : run.2.exhausted
    · exact record_of_clear f input budget hx hle
    · exact absurd rfl (hnot _ (record_of_flag f input budget hx))

set_option maxRecDepth 100000 in
/-- A loop that reads `arg0.y` twice, under a budget of six: two events and three rounds are
charged (the third finds the bound reached), the recording returns, and it is the same under a
budget of twenty. -/
theorem record_loop_unexhausted :
    let f : Function := .program { body := .seq [
      .loop "i" (.const (.number 0)) (.const (.number 2)) (.const (.number 1))
        (.seq [.assign (.var "x") (some (.field (Expr.arg 0) (.const (.str "y")))) true]),
      .ret (Expr.arg 0)] }
    let input : Input :=
      { heap := { objects := #[{ kind := .plain, props := [(Bytes.ofString "y", .number 1)] }] },
        args := [.ref 1] }
    (recordRun f input 6).2.events.size = 2 ∧ (recordRun f input 6).2.ticks = 3 ∧
      (∀ t, record f input 6 = .ok t → t.outcome ≠ .exhausted) ∧
      record f input 20 = record f input 6 := by
  intro f input
  have hcount : (recordRun f input 6).2.events.size = 2 ∧ (recordRun f input 6).2.ticks = 3 := by
    decide +kernel
  have hok : ((record f input 6).toOption.map fun t => t.outcome.kindName) == some "return" := by
    decide +kernel
  have hnot : ∀ t, record f input 6 = .ok t → t.outcome ≠ .exhausted := by
    intro t ht hex
    rw [ht] at hok
    simp [Except.toOption, hex, Outcome.kindName] at hok
  exact ⟨hcount.1, hcount.2, hnot, (record_budget_accounting f input 6).2.2.2.2 hnot 20 (by decide)⟩

end TraceSynth
