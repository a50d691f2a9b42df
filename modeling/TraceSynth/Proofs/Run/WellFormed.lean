import Mathlib
import TraceSynth.Proofs.Host.Traversal
import TraceSynth.Proofs.Run.WellAliased
import TraceSynth.Proofs.Metric.ZeroDistance
import TraceSynth.Run.Batch

/-!
# Recorded traces are at distance zero from themselves

The recorder forms operands of three shapes only: an alias set with a prestate, a constant, and
a snapshot whose fields it inserts in key order, so that no key is listed twice
(`TraceExpr.Formed`). Every host operation appends only events made of such operands, so every
run keeps the events formed (`formed_hostClosed`), and every trace a recording returns is made
of them (`record_formed`).

A formed operand is at distance zero from itself: an alias set shares its own prestates, a
constant is the same value as itself (NaN included), and a snapshot with distinct keys finds each
of its fields. So a recorded trace that did not run out of budget is indistinguishable from
itself (`record_indistinguishable_self`).
-/

namespace TraceSynth

namespace Bytes

/-- The byte-wise order is the lexicographic order of the byte lists. -/
theorem blt_iff_lt : ∀ a b : List UInt8, blt a b = true ↔ a < b
  | [], [] => by simp [blt]
  | [], _ :: _ => by simp [blt]
  | _ :: _, [] => by simp [blt]
  | x :: xs, y :: ys => by
    simp only [blt, List.cons_lt_cons_iff, ← blt_iff_lt xs ys]
    by_cases hxy : x < y
    · simp [hxy]
    · by_cases hyx : y < x
      · have hne : x ≠ y := by
          rintro rfl
          exact UInt8.lt_irrefl _ hyx
        simp [hxy, hyx, hne]
      · have hxy' : x = y := UInt8.le_antisymm (UInt8.not_lt.1 hyx) (UInt8.not_lt.1 hxy)
        simp [hxy']

theorem lt_iff (a b : Bytes) : a < b ↔ a.toList < b.toList := blt_iff_lt a.toList b.toList

theorem lt_irrefl (a : Bytes) : ¬a < a := by
  rw [lt_iff]
  exact List.lt_irrefl _

theorem lt_trans {a b c : Bytes} (hab : a < b) (hbc : b < c) : a < c := by
  rw [lt_iff] at *
  exact List.lt_trans hab hbc

/-- Two byte strings neither of which comes first are equal. -/
theorem eq_of_not_lt {a b : Bytes} (hab : ¬a < b) (hba : ¬b < a) : a = b := by
  rw [lt_iff, List.not_lt] at hab hba
  cases a
  cases b
  congr
  exact List.le_antisymm hba hab

end Bytes

namespace Recording

/-- Fields listed with strictly ascending keys. -/
def Ascending (fields : List (Bytes × Bytes)) : Prop :=
  (fields.map Prod.fst).Pairwise (· < ·)

theorem Ascending.nil : Ascending [] := List.Pairwise.nil

/-- Inserting a field adds its key and no other. -/
theorem keys_insertField (k v : Bytes) :
    ∀ (fields : List (Bytes × Bytes)), ∀ x ∈ (insertField k v fields).map Prod.fst,
      x = k ∨ x ∈ fields.map Prod.fst
  | [] => by simp [insertField]
  | (k', v') :: rest => by
    unfold insertField
    split
    · intro x hx
      simp only [List.map_cons, List.mem_cons] at hx ⊢
      rcases hx with rfl | hx
      · exact .inl rfl
      · exact .inr (.inr hx)
    · split
      · simp
      · intro x hx
        simp only [List.map_cons, List.mem_cons] at hx ⊢
        rcases hx with rfl | hx
        · exact .inr (.inl rfl)
        · rcases keys_insertField k v rest x hx with rfl | hx
          · exact .inl rfl
          · exact .inr (.inr hx)

/-- Inserting a field keeps the keys ascending: it replaces the entry of its key or goes before
the first greater key. -/
theorem Ascending.insertField (k v : Bytes) :
    ∀ {fields : List (Bytes × Bytes)}, Ascending fields → Ascending (insertField k v fields)
  | [], _ => by simp [Ascending, TraceSynth.Recording.insertField]
  | (k', v') :: rest, h => by
    simp only [Ascending, List.map_cons, List.pairwise_cons] at h
    obtain ⟨hk', hrest⟩ := h
    unfold TraceSynth.Recording.insertField
    split
    · next heq =>
      rw [beq_iff_eq] at heq
      subst heq
      simpa only [Ascending, List.map_cons, List.pairwise_cons] using ⟨hk', hrest⟩
    · split
      · next hlt =>
        simp only [Ascending, List.map_cons, List.pairwise_cons]
        refine ⟨fun x hx => ?_, hk', hrest⟩
        rcases List.mem_cons.1 hx with rfl | hx
        · exact hlt
        · exact Bytes.lt_trans hlt (hk' x hx)
      · next hne hnlt =>
        -- the new key comes after `k'`, so it is inserted into the rest
        have hgt : k' < k := by
          by_contra hle
          exact hne (beq_iff_eq.2 (Bytes.eq_of_not_lt hnlt hle))
        simp only [Ascending, List.map_cons, List.pairwise_cons]
        refine ⟨fun x hx => ?_, Ascending.insertField k v hrest⟩
        rcases keys_insertField k v rest x hx with rfl | hx
        · exact hgt
        · exact hk' x hx

theorem Ascending.foldl_insertField (g : Bytes → Bytes) :
    ∀ (ks : List Bytes) {fields : List (Bytes × Bytes)}, Ascending fields →
      Ascending (ks.foldl (fun acc k => TraceSynth.Recording.insertField k (g k) acc) fields)
  | [], _, h => h
  | k :: ks, _, h => Ascending.foldl_insertField g ks (h.insertField k (g k))

/-- A snapshot lists its fields with ascending keys. -/
theorem snapshot_ascending (r : Recording) (v : Value) :
    ∃ array fields, r.snapshot v = .alloc array fields ∧ Ascending fields := by
  unfold snapshot
  split
  · exact ⟨false, [], rfl, Ascending.nil⟩
  · dsimp only
    split
    · exact ⟨_, _, rfl, (Ascending.foldl_insertField _ _ Ascending.nil).insertField _ _⟩
    · exact ⟨_, _, rfl, Ascending.foldl_insertField _ _ Ascending.nil⟩

theorem Ascending.nodup {fields : List (Bytes × Bytes)} (h : Ascending fields) :
    (fields.map Prod.fst).Nodup := by
  refine List.Pairwise.imp ?_ h
  rintro a b hlt rfl
  exact Bytes.lt_irrefl a hlt

end Recording

/-- An operand as the recorder forms it: an alias set with a prestate, any constant, or a
snapshot that lists each key once. -/
def TraceExpr.Formed : TraceExpr → Prop
  | .general pre _ => pre ≠ []
  | .const _ => True
  | .alloc _ fields => (fields.map Prod.fst).Nodup

/-- An event whose operands are all formed. -/
def Event.Formed (ev : Event) : Prop := ∀ te, some te ∈ ev.operands → te.Formed

namespace Recording

theorem snapshot_formed (r : Recording) (v : Value) : (r.snapshot v).Formed := by
  obtain ⟨array, fields, hsnap, hasc⟩ := snapshot_ascending r v
  rw [hsnap]
  exact hasc.nodup

/-- Every operand the recorder forms, in any state, is formed. -/
theorem operand_formed (r : Recording) (v : Value) : (r.operand v).Formed := by
  cases v with
  | ref id =>
    rcases ha : r.aliasesOf id with _ | a
    · simp only [operand, ha]
      exact snapshot_formed r _
    · simp only [operand, ha]
      by_cases hne : (!a.pre.isEmpty && !a.cur.isEmpty) = true
      · rw [if_pos hne]
        simp only [Bool.and_eq_true, Bool.not_eq_true', List.isEmpty_eq_false_iff] at hne
        exact hne.1
      · rw [if_neg hne]
        exact snapshot_formed r _
  | _ => trivial

end Recording

namespace Formation

open RecM Host Recording

/-- Every event recorded so far is formed. -/
def EventsFormed (r : Recording) : Prop := ∀ ev ∈ r.events.toList, ev.Formed

/-- The events are all the invariant reads. -/
theorem EventsFormed.congr {r r' : Recording} (h : EventsFormed r) (he : r'.events = r.events) :
    EventsFormed r' :=
  fun ev hev => h ev (he ▸ hev)

theorem keeps_of_events {α : Type} {x : RecM α} (h : ∀ r, (x.exec r).2.events = r.events) :
    Keeps EventsFormed x :=
  fun r hr => hr.congr (h r)

theorem EventsFormed.push {r : Recording} (h : EventsFormed r) {ev : Event} (hev : ev.Formed) :
    EventsFormed { r with events := r.events.push ev } := by
  intro e he
  rw [Array.toList_push, List.mem_append, List.mem_singleton] at he
  rcases he with he | rfl
  · exact h e he
  · exact hev

/-- Charging a formed event and going on keeps the events formed, whether the charge fits the
budget or not. -/
theorem EventsFormed.afterEmit_bind {r : Recording} (h : EventsFormed r) {ev : Event}
    (hev : ev.Formed) {β : Type} {k : Unit → RecM β} (hk : Keeps EventsFormed (k ())) :
    EventsFormed ((Host.emit ev >>= k).exec r).2 := by
  rw [exec_bind, emit_exec]
  by_cases hx : r.exhausted = true
  · rw [if_pos hx]
    exact h
  rw [if_neg hx]
  by_cases hb : r.budget < r.events.size + 1
  · rw [if_pos hb]
    exact (h.push hev).congr rfl
  · rw [if_neg hb]
    exact hk _ (h.push hev)

theorem addPreState_keeps (v : Value) (exprs : List Expr) :
    Keeps EventsFormed (addPreState v exprs) :=
  keeps_of_events (addPreState_events v exprs)

theorem addCurState_keeps (v : Value) (e : Expr) : Keeps EventsFormed (addCurState v e) :=
  keeps_of_events fun r => by
    rw [addCurState_exec]
    cases v <;> simp

theorem getProp_keeps (obj key : Value) : Keeps EventsFormed (getProp obj key) := by
  intro r hr
  unfold getProp
  rw [exec_bind, objectOf_exec]
  by_cases hnull : obj.isNullish = true
  · rw [if_pos hnull]
    exact hr
  rw [if_neg hnull]
  dsimp only
  cases obj with
  | ref id =>
    rcases ho : r.heap.obj? (.ref id) with _ | o
    · exact hr
    · simp only [exec_bind, recorded_exec]
      by_cases hobs : r.observes (.ref id) = true
      · rw [if_neg (by simp [hobs]), exec_bind, texpr_exec]
        dsimp only
        rw [exec_bind, keyExpr_exec]
        dsimp only
        rw [exec_bind, freshVar_exec]
        dsimp only
        refine EventsFormed.afterEmit_bind (hr.congr (by simp)) ?_ ?_
        · intro te hte
          simp only [Event.operands, List.mem_cons, Option.some.injEq, List.not_mem_nil,
            or_false] at hte
          rcases hte with rfl | rfl
          · exact operand_formed _ _
          · trivial
        · exact (addPreState_keeps _ _).bind fun _ =>
            (addCurState_keeps _ _).bind fun _ => Keeps.pure _
      · simp only [hobs, Bool.not_false, if_true, exec_pure]
        exact hr
  | _ => exact hr

/-- The observed part of a write, then whatever follows: its event's operands are formed. -/
theorem EventsFormed.afterWrite {r : Recording} (h : EventsFormed r) (id : Nat) (val : Value)
    (o : Obj) (k : Bytes) {β : Type} {tail : RecM β} (htail : Keeps EventsFormed tail) :
    EventsFormed ((do
      let target ← texpr (.ref id)
      let name ← keyExpr o k
      let value ← texpr val
      Host.emit (.set target name value)
      tail : RecM β).exec r).2 := by
  rw [exec_bind, texpr_exec]
  dsimp only
  rw [exec_bind, keyExpr_exec]
  dsimp only
  rw [exec_bind, texpr_exec]
  dsimp only
  refine EventsFormed.afterEmit_bind (h.congr (by simp)) ?_ htail
  intro te hte
  simp only [Event.operands, List.mem_cons, Option.some.injEq, List.not_mem_nil,
    or_false] at hte
  rcases hte with rfl | rfl | rfl
  · exact operand_formed _ _
  · trivial
  · exact operand_formed _ _

/-- The observed part of a delete, then whatever follows. -/
theorem EventsFormed.afterDelete {r : Recording} (h : EventsFormed r) (id : Nat) (o : Obj)
    (k : Bytes) {β : Type} {tail : RecM β} (htail : Keeps EventsFormed tail) :
    EventsFormed ((do
      let target ← texpr (.ref id)
      let name ← keyExpr o k
      Host.emit (.delete target name)
      tail : RecM β).exec r).2 := by
  rw [exec_bind, texpr_exec]
  dsimp only
  rw [exec_bind, keyExpr_exec]
  dsimp only
  refine EventsFormed.afterEmit_bind (h.congr (by simp)) ?_ htail
  intro te hte
  simp only [Event.operands, List.mem_cons, Option.some.injEq, List.not_mem_nil,
    or_false] at hte
  rcases hte with rfl | rfl
  · exact operand_formed _ _
  · trivial

theorem write_keeps (obj key val : Value) (verb : String) :
    Keeps EventsFormed (write obj key val verb) := by
  intro r hr
  unfold write
  rw [exec_bind, objectOf_exec]
  by_cases hnull : obj.isNullish = true
  · rw [if_pos hnull]
    exact hr
  rw [if_neg hnull]
  dsimp only
  cases obj with
  | ref id =>
    rcases ho : r.heap.obj? (.ref id) with _ | o
    · exact hr
    · simp only [exec_bind, recorded_exec]
      -- the heap update after the event, reached with and without observation
      refine Keeps.ite (fun r' hr' => hr'.afterWrite id val o _ ?_) ?_ r hr
      all_goals
        split
        · exact Keeps.modify fun r h => h.congr rfl
        · exact Keeps.throw _
  | _ => exact hr

theorem deleteProp_keeps (obj key : Value) : Keeps EventsFormed (deleteProp obj key) := by
  intro r hr
  unfold deleteProp
  rw [exec_bind, objectOf_exec]
  by_cases hnull : obj.isNullish = true
  · rw [if_pos hnull]
    exact hr
  rw [if_neg hnull]
  dsimp only
  cases obj with
  | ref id =>
    rcases ho : r.heap.obj? (.ref id) with _ | o
    · exact hr
    · simp only [exec_bind, recorded_exec]
      -- the heap update after the event, reached with and without observation
      refine Keeps.ite (fun r' hr' => hr'.afterDelete id o _ ?_) ?_ r hr
      all_goals
        refine Keeps.ite (Keeps.get.bind fun _ => (Keeps.throw _).bind fun _ => ?_) ?_
        all_goals exact Keeps.modify fun r h => h.congr rfl
  | _ => exact hr

theorem tick_keeps : Keeps EventsFormed tick :=
  keeps_of_events fun r => by
    rw [tick_exec]
    split
    · rfl
    · split <;> rfl

theorem recorded_keeps (v : Value) : Keeps EventsFormed (recorded v) :=
  keeps_of_events fun r => by rw [recorded_exec]

theorem suspended_keeps {α : Type} {x : RecM α} (hx : Keeps EventsFormed x) :
    Keeps EventsFormed (suspended x) := by
  have hactive : ∀ b, Keeps EventsFormed (modify fun r => { r with active := b } : RecM PUnit) :=
    fun b => Keeps.modify fun r h => h.congr rfl
  unfold suspended
  exact Keeps.get.bind fun r0 => (hactive false).bind fun _ =>
    Keeps.tryCatch (hx.bind fun v => (hactive r0.active).bind fun _ => Keeps.pure v)
      fun e => (hactive r0.active).bind fun _ => Keeps.throw e

/-- The event of an observed call, with operands formed in the state before, then the callee
unobserved, then the call's variable as an alias of the result. -/
theorem EventsFormed.afterApplyEvent {r : Recording} (h : EventsFormed r) {target : TraceExpr}
    (ht : target.Formed) {receiver : Option TraceExpr} (hrcv : ∀ te ∈ receiver, te.Formed)
    (args : List Value) (var : String) {callee : RecM Value}
    (hcallee : Keeps EventsFormed callee) :
    EventsFormed ((do
      let argExprs ← args.mapM texpr
      Host.emit (.apply target receiver argExprs var)
      let res ← suspended callee
      if ← recorded res then addCurState res (.var var)
      pure res : RecM Value).exec r).2 := by
  rw [exec_bind, mapM_texpr_exec]
  dsimp only
  refine EventsFormed.afterEmit_bind (h.congr (by simp)) ?_ ?_
  · intro te hte
    simp only [Event.operands, List.mem_append, List.mem_cons, List.not_mem_nil, or_false,
      List.mem_map, Option.some.injEq] at hte
    rcases hte with (rfl | hrc) | ⟨_, hv, rfl⟩
    · exact ht
    · exact hrcv te hrc.symm
    · obtain ⟨v, -, rfl⟩ := hv
      exact operand_formed _ v
  · exact (suspended_keeps hcallee).bind fun res => (recorded_keeps res).bind fun _ =>
      Keeps.ite ((addCurState_keeps _ _).bind fun _ => Keeps.pure res) (Keeps.pure res)

/-- An observed call keeps the events formed when its callee does. -/
theorem observedCall_keeps (fn this : Value) (args : List Value) {callee : RecM Value}
    (hcallee : Keeps EventsFormed callee) :
    Keeps EventsFormed (do
      let target ← texpr fn
      let var ← freshVar
      let receiver ← if this.isNullish then pure none else some <$> texpr this
      let argExprs ← args.mapM texpr
      Host.emit (.apply target receiver argExprs var)
      let res ← suspended callee
      if ← recorded res then addCurState res (.var var)
      pure res : RecM Value) := by
  intro r hr
  rw [exec_bind, texpr_exec]
  dsimp only
  rw [exec_bind, freshVar_exec]
  dsimp only
  split
  · rw [exec_bind, exec_pure]
    exact EventsFormed.afterApplyEvent (hr.congr (by simp)) (operand_formed _ fn)
      (fun te hte => by cases hte) args _ hcallee
  · rw [exec_bind, exec_map, texpr_exec]
    refine EventsFormed.afterApplyEvent (hr.congr (by simp)) (operand_formed _ fn)
      (fun te hte => ?_) args _ hcallee
    cases hte
    exact operand_formed _ this

/-- Every primitive keeps the events formed, so every run does. -/
theorem formed_hostClosed : HostClosed (@Keeps EventsFormed) where
  pure := Keeps.pure
  bind := Keeps.bind
  throw := Keeps.throw
  throwThe := Keeps.throwThe
  get := Keeps.get
  ite := Keeps.ite
  getProp := getProp_keeps
  setProp obj key val := write_keeps obj key val "set"
  defineProp obj key val := write_keeps obj key val "define"
  deleteProp := deleteProp_keeps
  allocate _ := keeps_of_events fun _ => rfl
  tick := tick_keeps
  typeOf _ := keeps_of_events fun _ => rfl
  isArray _ := keeps_of_events fun _ => rfl
  recorded := recorded_keeps
  observedCall fn this args _ := observedCall_keeps fn this args

/-- Every trace a recording returns is formed: its events and its outcome's value. -/
theorem record_formed {f : Function} {input : Input} {budget : Nat} {t : Trace}
    (h : record f input budget = .ok t) :
    (∀ ev ∈ t.events, ev.Formed) ∧ ∀ te ∈ t.outcome.value?, te.Formed := by
  have hstart : EventsFormed (Recording.start input.clone budget) := by
    intro ev hev
    rw [(Aliasing.start_aliasInv input.clone budget).1] at hev
    cases hev
  have hrun := formed_hostClosed.function_run f input.clone.args _ hstart
  unfold record at h
  change (match (f.run input.clone.args).exec (Recording.start input.clone budget) with
    | (res, r) => finish res { r with active := false }) = .ok t at h
  rcases hres : (f.run input.clone.args).exec (Recording.start input.clone budget) with ⟨res, r⟩
  rw [hres] at h hrun
  dsimp only at h hrun
  rcases Aliasing.finish_ok h with rfl | ⟨v, rfl | rfl⟩
  · exact ⟨hrun, fun te hte => by cases hte⟩
  all_goals
    refine ⟨fun ev hev => hrun ev (by simpa [Recording.toTrace] using hev), fun te hte => ?_⟩
    simp only [Recording.toTrace, Outcome.value?, Option.mem_def, Option.some.injEq] at hte
    subst hte
    exact operand_formed _ v

end Formation

/-- A value is the same value as itself, NaN included. -/
theorem Value.sameValue_self (v : Value) : v.sameValue v = true := by
  cases v with
  | number a =>
    by_cases h : (a == a) = true
    · simp [Value.sameValue, h]
    · simp [Value.sameValue, Value.isNaN, h]
  | _ => simp [Value.sameValue, Value.strictEquals]

/-- In fields that list each key once, every field is what its key looks up. -/
theorem lookup_of_mem {fields : List (Bytes × Bytes)} (h : (fields.map Prod.fst).Nodup)
    {p : Bytes × Bytes} (hp : p ∈ fields) : fields.lookup p.1 = some p.2 := by
  induction fields with
  | nil => cases hp
  | cons q rest ih =>
    rw [List.map_cons, List.nodup_cons] at h
    rcases List.mem_cons.1 hp with rfl | hp
    · simp [List.lookup]
    · have hne : p.1 ≠ q.1 := fun heq => h.1 (heq ▸ List.mem_map_of_mem hp)
      simp [List.lookup, beq_eq_false_iff_ne.2 hne, ih h.2 hp]

namespace Metric

open Formation

/-- A formed operand is at distance zero from itself. -/
theorem TraceExpr.Formed.exprDistance_self {te : TraceExpr} (h : te.Formed) :
    (exprDistance (some te) (some te) == 0) = true := by
  cases te with
  | general pre cur =>
    -- the first prestate is among its own texts
    obtain ⟨e, rest, rfl⟩ := List.exists_cons_of_ne_nil h
    have hany : ((e :: rest).any fun e' => ((e :: rest).map Expr.toText).contains e'.toText) =
        true := by simp
    simp only [exprDistance, hany, if_true]
    rfl
  | const v =>
    simp only [exprDistance, Value.sameValue_self, if_true]
    rfl
  | alloc array fields =>
    refine snapshotDistance_eq_zero _ _ _ _ ⟨rfl, fun p hp => lookup_of_mem h hp, fun p hp => ?_⟩
    rw [lookup_of_mem h hp]
    rfl

theorem Event.Formed.operandsMatch_self {ev : Event} (h : ev.Formed) :
    OperandsMatch ev.operands ev.operands :=
  List.forall₂_same.2 fun o ho => by
    cases o with
    | none => rfl
    | some te => exact TraceExpr.Formed.exprDistance_self (h te ho)

/-- A trace that did not run out of budget and is made of formed operands is indistinguishable
from itself. -/
theorem indistinguishable_self {t : Trace} (hx : t.isExhausted = false)
    (he : ∀ ev ∈ t.events, ev.Formed) (ho : ∀ te ∈ t.outcome.value?, te.Formed) :
    Indistinguishable t t where
  not_exhausted := hx
  events _ := List.forall₂_same.2 fun ev hev =>
    Event.Formed.operandsMatch_self (he ev (List.mem_filter.1 hev).1)
  outcome := by
    unfold Trace.isExhausted at hx
    cases hout : t.outcome with
    | returned x => exact TraceExpr.Formed.exprDistance_self (ho x (by simp [hout, Outcome.value?]))
    | threw x => exact TraceExpr.Formed.exprDistance_self (ho x (by simp [hout, Outcome.value?]))
    | exhausted =>
      rw [hout] at hx
      cases hx

/-- A recorded trace that did not run out of budget is indistinguishable from itself. -/
theorem record_indistinguishable_self {f : Function} {input : Input} {budget : Nat} {t : Trace}
    (h : record f input budget = .ok t) (hx : t.isExhausted = false) : Indistinguishable t t :=
  indistinguishable_self hx (record_formed h).1 (record_formed h).2

/-- Zero distance means indistinguishable. The distance from a reference that did not run out of
budget is non-negative, and zero exactly when the candidate is indistinguishable from it, as long
as every list it divides by is shorter than `2^53`; a recorded trace that did not run out of
budget is at distance zero from itself, whatever its size; and a score that is not finalizing is
non-negative, has a distance for every input, and is zero exactly when each of them is. -/
theorem zero_distance_iff_indistinguishable :
    (∀ ref cand : Trace, ref.isExhausted = false → ref.Bounded → cand.Bounded →
      ∃ d, traceDistance ref cand = .ok d ∧ 0 ≤ d ∧
        ((d == 0) = true ↔ Indistinguishable ref cand)) ∧
    (∀ (f : Function) (input : Input) (budget : Nat) (t : Trace),
      record f input budget = .ok t → t.isExhausted = false →
        ∃ d, traceDistance t t = .ok d ∧ (d == 0) = true) ∧
    (∀ (p : Program) (inputs : List Input) (refs : List Trace) (s : Float),
      evaluate p inputs refs false = .ok s → inputs.length < 2 ^ 53 →
      (∀ q ∈ inputs.zip refs, q.2.Bounded ∧ ∀ f t, p.compile = .ok f →
        record f q.1 (budgetFor q.2.events.length) = .ok t → t.Bounded) →
      ∃ f, p.compile = .ok f ∧ (∀ q ∈ inputs.zip refs, ∃ d, ScoredInput f q d) ∧ 0 ≤ s ∧
        ((s == 0) = true ↔ ∀ q ∈ inputs.zip refs, ∀ d, ScoredInput f q d → (d == 0) = true)) := by
  refine ⟨fun ref cand hr hbr hbc => ?_, fun f input budget t h hx => ?_,
    fun p inputs refs s h hn hb => ?_⟩
  · obtain ⟨d, hd, hpos, hzero⟩ := traceDistance_spec hr hbr hbc
    exact ⟨d, hd, hpos.nonneg, hzero⟩
  · exact traceDistance_eq_zero_of_indistinguishable hx (record_indistinguishable_self h hx)
  · obtain ⟨f, hf, hinput, hpos, hzero⟩ := evaluate_spec h hn hb
    exact ⟨f, hf, hinput, hpos.nonneg, hzero⟩

/-- The three parts on `if (arg0) { return arg1 } else { var n = arg1.y; return arg1 }` and the
same program without its read of `arg1.y`, on `[true, 1]` and `[false, {y: 2}]`: on the second
input the traces differ by that read, so the distance is positive and they are distinguishable;
the reference's trace, read included, is at distance zero from itself; and the candidate's score
is positive, so some input is at a positive distance. -/
theorem zero_distance_iff_indistinguishable_field_read :
    let target : Program := { body := .seq [.ite (Expr.arg 0) (.seq [.ret (Expr.arg 1)])
      (.seq [.assign (.var "n") (some (.field (Expr.arg 1) (.const (.str "y")))) true,
        .ret (Expr.arg 1)])] }
    let cand : Program := { body := .seq [.ite (Expr.arg 0) (.seq [.ret (Expr.arg 1)])
      (.seq [.ret (Expr.arg 1)])] }
    let input := (Input.parse "[false, {y: 2}]").toOption.getD default
    let inputs := [(Input.parse "[true, 1]").toOption.getD default, input]
    let refs := (recordAll (.program target) inputs 20 1).toOption.getD []
    (∃ ref c d, record (.program target) input 20 = .ok ref ∧
      record (.program cand) input 20 = .ok c ∧ traceDistance ref c = .ok d ∧ 0 ≤ d ∧
      (d == 0) = false ∧ ¬ Indistinguishable ref c) ∧
    (∃ t d, record (.program target) input 20 = .ok t ∧ t.events ≠ [] ∧
      traceDistance t t = .ok d ∧ (d == 0) = true) ∧
    (∃ s f, evaluate cand inputs refs false = .ok s ∧ cand.compile = .ok f ∧
      (∀ q ∈ inputs.zip refs, ∃ d, ScoredInput f q d) ∧ 0 ≤ s ∧ (s == 0) = false ∧
      ∃ q ∈ inputs.zip refs, ∃ d, ScoredInput f q d ∧ (d == 0) = false) := by
  intro target cand input inputs refs
  -- the facts the three parts need about these runs, each one Boolean the kernel evaluates
  have href : ((record (.program target) input 20).toOption.any fun t =>
      !t.isExhausted && decide t.Bounded && !t.events.isEmpty) = true := by
    decide +kernel
  have hcand : ((record (.program cand) input 20).toOption.any fun t => decide t.Bounded) = true := by
    decide +kernel
  have hfar : (((record (.program target) input 20).toOption.bind fun ref =>
      (record (.program cand) input 20).toOption.bind fun c => (traceDistance ref c).toOption).any
        fun d => !(d == 0)) = true := by
    decide +kernel
  have hscore : ((evaluate cand inputs refs false).toOption.any fun s => !(s == 0)) = true := by
    decide +kernel
  have hbounded : ((inputs.zip refs).all fun q => decide q.2.Bounded &&
      ((cand.compile.toOption.bind fun f => (record f q.1 (budgetFor q.2.events.length)).toOption).all
        fun t => decide t.Bounded)) = true := by
    decide +kernel
  rcases hr : record (.program target) input 20 with e | ref
  · rw [hr] at href
    cases href
  rcases hc : record (.program cand) input 20 with e | c
  · rw [hc] at hcand
    cases hcand
  simp only [hr, hc, Except.toOption, Option.any_some, Option.bind_some, Bool.and_eq_true,
    Bool.not_eq_eq_eq_not, Bool.not_true, decide_eq_true_eq, List.isEmpty_eq_false_iff] at href hcand hfar
  obtain ⟨⟨hx, hb⟩, hevents⟩ := href
  obtain ⟨d, hd, hpos, hiff⟩ := zero_distance_iff_indistinguishable.1 ref c hx hb hcand
  rw [hd] at hfar
  simp only [Option.any_some, Bool.not_eq_eq_eq_not, Bool.not_true] at hfar
  refine ⟨⟨ref, c, d, rfl, rfl, hd, hpos, hfar, fun hi => ?_⟩, ?_, ?_⟩
  · rw [hiff.2 hi] at hfar
    cases hfar
  · obtain ⟨d', hd', hzero⟩ := zero_distance_iff_indistinguishable.2.1 _ _ _ _ hr hx
    exact ⟨ref, d', rfl, hevents, hd', hzero⟩
  · rcases hs : evaluate cand inputs refs false with e | s
    · rw [hs] at hscore
      cases hscore
    rw [hs] at hscore
    simp only [Except.toOption, Option.any_some, Bool.not_eq_eq_eq_not, Bool.not_true] at hscore
    have hbd : ∀ q ∈ inputs.zip refs, q.2.Bounded ∧ ∀ f t, cand.compile = .ok f →
        record f q.1 (budgetFor q.2.events.length) = .ok t → t.Bounded := by
      intro q hq
      have hq' := List.all_eq_true.1 hbounded q hq
      simp only [Bool.and_eq_true, decide_eq_true_eq] at hq'
      refine ⟨hq'.1, fun f t hf ht => ?_⟩
      simpa [hf, ht, Except.toOption] using hq'.2
    obtain ⟨f, hf, hinput, hnonneg, hzero⟩ :=
      zero_distance_iff_indistinguishable.2.2 _ _ _ _ hs (by simp [inputs]) hbd
    -- a positive score has an input at positive distance
    have hsome : ¬ ∀ q ∈ inputs.zip refs, ∀ d, ScoredInput f q d → (d == 0) = true := fun h => by
      rw [hzero.2 h] at hscore
      cases hscore
    simp only [not_forall, exists_prop, Bool.not_eq_true] at hsome
    exact ⟨s, f, rfl, hf, hinput, hnonneg, hscore, hsome⟩

end Metric

end TraceSynth
