import TraceSynth.Proofs.Host.Basis

/-!
# The budget ledger

A recording charges every event and every loop round to its budget. Its ledger is the budget,
the events and rounds charged so far, and the flag that a charge failed. Only `emit` and `tick`
touch it: a charge that fits counts one more, the first charge past the budget counts it too and
sets the flag, and once the flag is set every charge fails and changes nothing.

* `Recording.Charged r`: the flag is set exactly when the events or the rounds went past the
  budget, and neither went past it by more than one.
* `Recording.Follows r r'`: `r'` is a later state of the ledger of `r`: the same budget, no
  fewer rounds, nothing changed once the flag is set, and a charged ledger stays charged.
* `Ledger.Advances x`: every run of `x` ends in a state that follows its start. Every run of
  every function advances (`Ledger.function_run_advances`), through the traversal of
  `HostClosed`.

So the rounds a recording can still charge (`Recording.slack`) never grow, and a round that is
charged uses one of them up (`Ledger.slack_tick`).
-/

namespace TraceSynth

open RecM Host

namespace Recording

/-- The rounds a recording can still charge: none once a charge has failed. -/
def slack (r : Recording) : Nat := if r.exhausted then 0 else r.budget - r.ticks

/-- The counts fit the budget: the flag is set exactly when the events or the rounds went past
it, and neither went past it by more than one. -/
structure Charged (r : Recording) : Prop where
  exhausted_iff : r.exhausted = true ↔ r.budget < r.events.size ∨ r.budget < r.ticks
  events_le : r.events.size ≤ r.budget + 1
  ticks_le : r.ticks ≤ r.budget + 1

/-- A recording whose flag is clear has charged no more than its budget. -/
theorem Charged.fits {r : Recording} (hc : r.Charged) (hx : ¬r.exhausted = true) :
    r.events.size ≤ r.budget ∧ r.ticks ≤ r.budget := by
  have hn : ¬(r.budget < r.events.size ∨ r.budget < r.ticks) := fun h => hx (hc.exhausted_iff.2 h)
  omega

/-- `r'` is a later state of the ledger of `r`: the budget is the same, no round is uncharged,
nothing changes once the flag is set, and counts that fit the budget still fit it. -/
structure Follows (r r' : Recording) : Prop where
  budget : r'.budget = r.budget
  ticks_le : r.ticks ≤ r'.ticks
  frozen : r.exhausted = true → r'.exhausted = true ∧ r'.events = r.events ∧ r'.ticks = r.ticks
  charged : r.Charged → r'.Charged

namespace Follows

theorem refl (r : Recording) : Follows r r :=
  ⟨rfl, Nat.le_refl _, fun h => ⟨h, rfl, rfl⟩, id⟩

theorem trans {r r' r'' : Recording} (h : Follows r r') (h' : Follows r' r'') : Follows r r'' where
  budget := h'.budget.trans h.budget
  ticks_le := Nat.le_trans h.ticks_le h'.ticks_le
  frozen hx := by
    obtain ⟨hx', hev, hti⟩ := h.frozen hx
    obtain ⟨hx'', hev', hti'⟩ := h'.frozen hx'
    exact ⟨hx'', hev'.trans hev, hti'.trans hti⟩
  charged hc := h'.charged (h.charged hc)

/-- A state with the same ledger follows. -/
theorem of_eq {r r' : Recording} (hb : r'.budget = r.budget) (he : r'.events = r.events)
    (ht : r'.ticks = r.ticks) (hx : r'.exhausted = r.exhausted) : Follows r r' where
  budget := hb
  ticks_le := Nat.le_of_eq ht.symm
  frozen h := ⟨hx.trans h, he, ht⟩
  charged hc := ⟨by rw [hx, hb, he, ht]; exact hc.exhausted_iff, by rw [hb, he]; exact hc.events_le,
    by rw [hb, ht]; exact hc.ticks_le⟩

/-- The rounds left never grow. -/
theorem slack_le {r r' : Recording} (h : Follows r r') : r'.slack ≤ r.slack := by
  unfold slack
  by_cases hx : r.exhausted = true
  · simp only [if_pos (h.frozen hx).1, if_pos hx, Nat.le_refl]
  · rw [if_neg hx, h.budget]
    split
    · exact Nat.zero_le _
    · have := h.ticks_le
      omega

end Follows

/-- No more rounds are left than the budget. -/
theorem slack_le_budget (r : Recording) : r.slack ≤ r.budget := by
  unfold slack
  split
  · exact Nat.zero_le _
  · exact Nat.sub_le _ _

end Recording

namespace Ledger

open Recording

/-- Every run of `x` ends in a state that follows the one it started in, stated as the
invariant "follows `r₀`" for every `r₀`, so that the combinators of `Keeps` compose it. -/
def Advances {α : Type} (x : RecM α) : Prop := ∀ r₀, Keeps (Follows r₀) x

theorem Advances.follows {α : Type} {x : RecM α} (h : Advances x) (r : Recording) :
    Follows r (x.exec r).2 :=
  h r r (Follows.refl r)

theorem advances_of_follows {α : Type} {x : RecM α} (h : ∀ r, Follows r (x.exec r).2) :
    Advances x :=
  fun _ r hr => hr.trans (h r)

/-- A step that leaves the ledger as it was advances. -/
theorem advances_of_eq {α : Type} {x : RecM α} (h : ∀ r, (x.exec r).2.budget = r.budget ∧
    (x.exec r).2.events = r.events ∧ (x.exec r).2.ticks = r.ticks ∧
      (x.exec r).2.exhausted = r.exhausted) : Advances x :=
  advances_of_follows fun r => Follows.of_eq (h r).1 (h r).2.1 (h r).2.2.1 (h r).2.2.2

theorem emit_follows (ev : Event) (r : Recording) : Follows r ((emit ev).exec r).2 := by
  rw [emit_exec]
  by_cases hx : r.exhausted = true
  · rw [if_pos hx]
    exact Follows.refl r
  rw [if_neg hx]
  by_cases hb : r.budget < r.events.size + 1
  · -- the first event past the budget is kept and sets the flag
    rw [if_pos hb]
    refine ⟨rfl, Nat.le_refl _, fun h => absurd h hx, fun hc => ?_⟩
    have hfit := hc.fits hx
    refine ⟨iff_of_true rfl (.inl ?_), ?_, hc.ticks_le⟩ <;> simp only [Array.size_push] <;> omega
  · rw [if_neg hb]
    refine ⟨rfl, Nat.le_refl _, fun h => absurd h hx, fun hc => ?_⟩
    have hfit := hc.fits hx
    refine ⟨iff_of_false hx ?_, ?_, hc.ticks_le⟩ <;> simp only [Array.size_push] <;> omega

theorem tick_follows (r : Recording) : Follows r (tick.exec r).2 := by
  rw [tick_exec]
  by_cases hx : r.exhausted = true
  · rw [if_pos hx]
    exact Follows.refl r
  rw [if_neg hx]
  by_cases hb : r.budget < r.ticks + 1
  · -- the first round past the budget is counted and sets the flag
    rw [if_pos hb]
    refine ⟨rfl, Nat.le_succ _, fun h => absurd h hx, fun hc => ?_⟩
    have hfit := hc.fits hx
    exact ⟨iff_of_true rfl (.inr hb), hc.events_le, show r.ticks + 1 ≤ r.budget + 1 by omega⟩
  · rw [if_neg hb]
    refine ⟨rfl, Nat.le_succ _, fun h => absurd h hx, fun hc => ?_⟩
    have hfit := hc.fits hx
    exact ⟨iff_of_false hx (show ¬(r.budget < r.events.size ∨ r.budget < r.ticks + 1) by omega),
      hc.events_le, show r.ticks + 1 ≤ r.budget + 1 by omega⟩

/-- A round that is charged uses up one of those left. -/
theorem slack_tick {r r' : Recording} (h : tick.exec r = (.ok (), r')) : r'.slack + 1 = r.slack := by
  rw [tick_exec] at h
  by_cases hx : r.exhausted = true
  · rw [if_pos hx] at h
    cases h
  rw [if_neg hx] at h
  by_cases hb : r.budget < r.ticks + 1
  · rw [if_pos hb] at h
    cases h
  · rw [if_neg hb] at h
    cases h
    simp only [slack, hx, Bool.false_eq_true, if_false]
    omega

/-- Registering an alias leaves the ledger as it was. -/
theorem ledger_modifyAliases (r : Recording) (id : Nat) (f : Aliases → Aliases) :
    (r.modifyAliases id f).budget = r.budget ∧ (r.modifyAliases id f).events = r.events ∧
      (r.modifyAliases id f).ticks = r.ticks ∧ (r.modifyAliases id f).exhausted = r.exhausted := by
  unfold Recording.modifyAliases
  split <;> exact ⟨rfl, rfl, rfl, rfl⟩

/-- Only charges touch the ledger: every other step of the host leaves it as it was. -/
theorem advances_steps : HostSteps @Advances where
  pure a _ := Keeps.pure a
  bind hx hf r₀ := (hx r₀).bind fun a => hf a r₀
  ite hx hy r₀ := Keeps.ite (hx r₀) (hy r₀)
  readHeap _ hf r₀ := Keeps.get.bind fun r => hf r r₀
  fail e _ _ := Keeps.throwThe e
  objectOf obj key verb := advances_of_eq fun r => by
    rw [objectOf_exec]
    split <;> exact ⟨rfl, rfl, rfl, rfl⟩
  recorded v := advances_of_eq fun r => by
    rw [recorded_exec]
    exact ⟨rfl, rfl, rfl, rfl⟩
  texpr v := advances_of_eq fun r => by
    rw [texpr_exec]
    cases v <;> exact ⟨rfl, rfl, rfl, rfl⟩
  freshVar := advances_of_eq fun r => by
    rw [freshVar_exec]
    exact ⟨rfl, rfl, rfl, rfl⟩
  emit ev := advances_of_follows (emit_follows ev)
  addPreState v exprs := advances_of_eq fun r => by
    rw [addPreState_exec]
    cases v
    case ref id => exact ledger_modifyAliases _ _ _
    all_goals exact ⟨rfl, rfl, rfl, rfl⟩
  addCurState v e := advances_of_eq fun r => by
    rw [addCurState_exec]
    cases v
    case ref id => exact ledger_modifyAliases _ _ _
    all_goals exact ⟨rfl, rfl, rfl, rfl⟩
  update _ _ := advances_of_eq fun _ => ⟨rfl, rfl, rfl, rfl⟩
  allocate _ := advances_of_eq fun _ => ⟨rfl, rfl, rfl, rfl⟩
  suspended {_} {x} hx r₀ := by
    have hactive : ∀ b, Keeps (Follows r₀) (modify fun r => { r with active := b } : RecM PUnit) :=
      fun b => Keeps.modify fun r h => h.trans (Follows.of_eq rfl rfl rfl rfl)
    unfold suspended
    exact Keeps.get.bind fun r0 => (hactive false).bind fun _ =>
      Keeps.tryCatch ((hx r₀).bind fun v => (hactive r0.active).bind fun _ => Keeps.pure v)
        fun e => (hactive r0.active).bind fun _ => Keeps.throw e

theorem advances_closed : HostClosed @Advances :=
  advances_steps.hostClosed (fun _ => Keeps.get) (fun e _ => Keeps.throw e)
    (fun e _ => Keeps.throwThe e) (advances_of_follows tick_follows)

/-- Every run of every function leaves a later state of the ledger it started from. -/
theorem function_run_advances (f : Function) (args : List Value) : Advances (f.run args) :=
  advances_closed.function_run f args

end Ledger

end TraceSynth
