import TraceSynth.Proofs.Float.Magnitude
import TraceSynth.Metric.Evaluate

/-!
# Zero distance means indistinguishable

`traceDistance` adds up non-negative costs: for each event kind the pair costs of the events
paired in order and one for each event left without a partner, then the cost of the outcomes.
Each cost is zero exactly when what it compares is at distance zero, and no positive cost is
small enough to vanish when it is scaled, divided or added: as long as every list a distance
divides by is shorter than `2^53` (`Trace.Bounded`), each positive operand distance is at least
`2^-51` and each positive trace distance at least `2^-115`, far above the least float. So a
trace distance is zero exactly when the candidate is indistinguishable from the reference.

## Main results

* `snapshotDistance_spec`: a snapshot is at distance zero exactly when it has the reference's
  kind and fields;
* `operandSum_spec`, `eventDistance_spec`, `pairCosts_spec`, `kindCost_spec`: each level of the
  sum is non-negative and zero exactly when all its parts are;
* `traceDistance_spec`: the distance from a reference that did not run out of budget is
  non-negative, and zero exactly when the candidate is `Indistinguishable` from it;
* `traceDistance_eq_zero_of_indistinguishable`: the same without any bound, in one direction.
-/

namespace TraceSynth

open Magnitude

/-- An operand whose snapshot, if it is one, has fewer than `2^53` fields. -/
def TraceExpr.Bounded : TraceExpr → Prop
  | .alloc _ fields => fields.length < 2 ^ 53
  | _ => True

/-- The lists a distance from this trace divides by are shorter than `2^53`: the operands of
each event, and the fields of each snapshot among them and in the outcome. -/
def Trace.Bounded (t : Trace) : Prop :=
  (∀ e ∈ t.events, e.operands.length < 2 ^ 53 ∧ ∀ a ∈ e.operands, ∀ te ∈ a, te.Bounded) ∧
    ∀ v ∈ t.outcome.value?, v.Bounded

instance : DecidablePred TraceExpr.Bounded
  | .general _ _ => isTrue trivial
  | .const _ => isTrue trivial
  | .alloc _ fields => inferInstanceAs (Decidable (fields.length < 2 ^ 53))

instance : DecidablePred Trace.Bounded := fun t =>
  inferInstanceAs (Decidable ((∀ e ∈ t.events, e.operands.length < 2 ^ 53 ∧
    ∀ a ∈ e.operands, ∀ te ∈ a, te.Bounded) ∧ ∀ v ∈ t.outcome.value?, v.Bounded))

/-- The events of one kind, as bounded as the trace's. -/
theorem Trace.Bounded.eventsOf {t : Trace} (h : t.Bounded) {k : EventKind} {e : Event}
    (he : e ∈ t.eventsOf k) :
    e.operands.length < 2 ^ 53 ∧ ∀ a ∈ e.operands, ∀ te ∈ a, te.Bounded :=
  h.1 e (List.mem_filter.1 he).1

namespace Metric

/-- Two operand lists of one length whose operands are at distance zero pair by pair. -/
def OperandsMatch (xs ys : List (Option TraceExpr)) : Prop :=
  List.Forall₂ (fun a b => (exprDistance a b == 0) = true) xs ys

/-- Two outcomes of one kind whose values are at distance zero. -/
def OutcomesMatch : Outcome → Outcome → Prop
  | .returned x, .returned y | .threw x, .threw y => (exprDistance (some x) (some y) == 0) = true
  | _, _ => False

/-- A candidate trace that no observation tells apart from the reference: it did not run out of
budget, each kind has as many events in both, the `i`-th events of a kind have operand lists
that match, and the outcomes are of one kind with values at distance zero. -/
structure Indistinguishable (ref cand : Trace) : Prop where
  not_exhausted : cand.isExhausted = false
  events : ∀ k, List.Forall₂ (fun a b : Event => OperandsMatch a.operands b.operands)
    (ref.eventsOf k) (cand.eventsOf k)
  outcome : OutcomesMatch ref.outcome cand.outcome

section Weights

theorem within_norm : Within 6 6 norm := by decide

theorem within_wrongField : Within (-1) (-1) wrongField := by decide

theorem within_weightPair : Within (-1) (-1) weightPair := by decide

theorem within_weightMissing : Within 0 0 weightMissing := by decide

theorem within_weightExit : Within 0 0 weightExit := by decide

theorem within_weightErrorExit : Within 1 1 weightErrorExit := by decide

theorem within_weightExhausted : Within 2 2 weightExhausted := by decide

theorem beq_zero_norm : (norm == 0) = false := by decide

end Weights

section Snapshots

variable {ref cand : List (Bytes × Bytes)}

/-- The fields of the reference a snapshot gets wrong or lacks are none exactly when it has
every reference field with the reference's value. -/
theorem wrong_missing_eq_zero {wrong missing : Bytes × Bytes → Bool}
    (hwrong : ∀ p, wrong p = (cand.lookup p.1).any (· != p.2))
    (hmissing : ∀ p, missing p = (cand.lookup p.1).isNone) :
    ((ref.filter wrong).length = 0 ∧ (ref.filter missing).length = 0) ↔
      ∀ p ∈ ref, cand.lookup p.1 = some p.2 := by
  simp only [List.length_eq_zero_iff, List.filter_eq_nil_iff, hwrong, hmissing, ← forall₂_and]
  refine forall₂_congr fun p _ => ?_
  cases cand.lookup p.1 <;> simp

/-- The fields of a snapshot the reference lacks are none exactly when each of its fields is a
reference field. -/
theorem extra_eq_zero {extra : Bytes × Bytes → Bool} (hextra : ∀ p, extra p = (ref.lookup p.1).isNone) :
    (cand.filter extra).length = 0 ↔ ∀ p ∈ cand, (ref.lookup p.1).isSome := by
  simp only [List.length_eq_zero_iff, List.filter_eq_nil_iff, hextra]
  refine forall₂_congr fun p _ => ?_
  cases ref.lookup p.1 <;> simp

/-- The weighted count of a snapshot's wrong fields plus its missing and extra ones, scaled by
`norm` and divided by the reference's field count. -/
theorem fieldCost_spec (w n : Nat) {L : Nat} (hL : L < 2 ^ 53) :
    ZeroOrAbove (-51) ((w.toFloat * wrongField + n.toFloat) * norm / (max 1 L).toFloat) ∧
      (((w.toFloat * wrongField + n.toFloat) * norm / (max 1 L).toFloat == 0) = true ↔
        w = 0 ∧ n = 0) := by
  have hw : ZeroOrAbove 0 w.toFloat := (zeroOrAbove_toFloat w).mono (by omega)
  have hn : ZeroOrAbove (-1) n.toFloat := (zeroOrAbove_toFloat n).mono (by omega)
  have hwf : ZeroOrAbove (-1) (w.toFloat * wrongField) := hw.mul within_wrongField (by omega)
  have hsum := hwf.add hn
  have hscaled := hsum.mul within_norm (by omega)
  -- the divisor is at most `2^55`
  have hdiv := within_toFloat_lt (n := max 1 L) (by omega) (by omega)
  refine ⟨(hscaled.div hdiv (by omega)).mono (by omega), ?_⟩
  rw [beq_zero_div hscaled hdiv (by omega), beq_zero_mul hsum within_norm (by omega),
    beq_zero_add hwf hn, beq_zero_mul hw within_wrongField (by omega), beq_zero_toFloat,
    beq_zero_toFloat]
  simp

/-- With no wrong, missing or extra field the cost is zero, however many fields there are. -/
theorem fieldCost_eq_zero {w n : Nat} (L : Nat) (hw : w = 0) (hn : n = 0) :
    ((w.toFloat * wrongField + n.toFloat) * norm / (max 1 L).toFloat == 0) = true := by
  subst hw hn
  -- a zero over the positive field count
  have hnum : (((0 : Nat).toFloat * wrongField + (0 : Nat).toFloat) * norm == 0) = true := by
    decide
  exact beq_zero_div_of_beq_zero hnum (toFloat_pos (n := max 1 L) (by omega)).1
    (toFloat_pos (by omega)).2

/-- Two snapshots of one kind, the candidate with every reference field at the reference's
value and no other field. -/
def SnapshotsMatch (refArray : Bool) (ref : List (Bytes × Bytes)) (candArray : Bool)
    (cand : List (Bytes × Bytes)) : Prop :=
  refArray = candArray ∧ (∀ p ∈ ref, cand.lookup p.1 = some p.2) ∧
    ∀ p ∈ cand, (ref.lookup p.1).isSome

/-- The counts of a snapshot distance are zero exactly when the fields match. -/
theorem counts_eq_zero_iff :
    ((ref.filter fun (k, v) => match cand.lookup k with
        | some w => w != v
        | none => false).length = 0 ∧
      (ref.filter fun (k, _) => (cand.lookup k).isNone).length +
        (cand.filter fun (k, _) => (ref.lookup k).isNone).length = 0) ↔
      (∀ p ∈ ref, cand.lookup p.1 = some p.2) ∧ ∀ p ∈ cand, (ref.lookup p.1).isSome := by
  rw [Nat.add_eq_zero_iff, ← and_assoc]
  refine and_congr (wrong_missing_eq_zero ?_ ?_) (extra_eq_zero ?_)
  · rintro ⟨k, v⟩
    dsimp only
    cases cand.lookup k <;> rfl
  · rintro ⟨k, v⟩; rfl
  · rintro ⟨k, v⟩; rfl

variable (refArray candArray : Bool) (ref cand)

/-- A snapshot distance whose reference has fewer than `2^53` fields is at least `2^-51` when it
is not zero, and it is zero exactly when the snapshots match. -/
theorem snapshotDistance_spec (h : ref.length < 2 ^ 53) :
    ZeroOrAbove (-51) (snapshotDistance refArray ref candArray cand) ∧
      ((snapshotDistance refArray ref candArray cand == 0) = true ↔
        SnapshotsMatch refArray ref candArray cand) := by
  unfold snapshotDistance SnapshotsMatch
  by_cases harr : refArray = candArray
  · rw [if_neg (by simp [harr])]
    obtain ⟨hcost, hzero⟩ := fieldCost_spec _ _ h
    exact ⟨hcost, hzero.trans (counts_eq_zero_iff.trans ⟨fun h => ⟨harr, h⟩, fun h => h.2⟩)⟩
  · rw [if_pos (by simp [harr])]
    exact ⟨within_norm.zeroOrAbove.mono (by omega),
      by rw [beq_zero_norm]; exact iff_of_false Bool.false_ne_true fun h => harr h.1⟩

/-- Matching snapshots are at distance zero, however many fields they have. -/
theorem snapshotDistance_eq_zero (h : SnapshotsMatch refArray ref candArray cand) :
    (snapshotDistance refArray ref candArray cand == 0) = true := by
  obtain ⟨harr, hfields⟩ := h
  obtain ⟨hwrong, hcount⟩ := counts_eq_zero_iff.2 hfields
  unfold snapshotDistance
  rw [if_neg (by simp [harr])]
  exact fieldCost_eq_zero ref.length hwrong hcount

end Snapshots

section Operands

theorem zeroOrAbove_zero (k : Int) : ZeroOrAbove k 0 := zeroOrAbove_of_beq_zero rfl

/-- An operand distance from a bounded reference operand is zero, or at least `2^-51`. -/
theorem exprDistance_zeroOrAbove (a b : Option TraceExpr) (ha : ∀ te ∈ a, te.Bounded) :
    ZeroOrAbove (-51) (exprDistance a b) := by
  have hnorm : ZeroOrAbove (-51) norm := within_norm.zeroOrAbove.mono (by omega)
  unfold exprDistance
  split
  next => exact zeroOrAbove_zero _
  next => split <;> first | exact zeroOrAbove_zero _ | exact hnorm
  next ra rf ca cf => exact (snapshotDistance_spec rf cf ra ca (ha _ rfl)).1
  next => dsimp only; split <;> first | exact zeroOrAbove_zero _ | exact hnorm
  next => exact hnorm

/-- Adding `norm` once for each operand the reference lacks: zero only when there is none. -/
theorem foldl_norm_spec {β : Type} {k : Int} (hk : k ≤ 6) :
    ∀ (bs : List β) (acc : Float), ZeroOrAbove k acc →
      ZeroOrAbove k (bs.foldl (fun acc _ => acc + norm) acc) ∧
        ((bs.foldl (fun acc _ => acc + norm) acc == 0) = true ↔ (acc == 0) = true ∧ bs = [])
  | [], acc, hacc => ⟨hacc, by simp⟩
  | _ :: bs, acc, hacc => by
    have hnorm : ZeroOrAbove k norm := within_norm.zeroOrAbove.mono hk
    have ih := foldl_norm_spec hk bs (acc + norm) (hacc.add hnorm)
    rw [List.foldl_cons]
    refine ⟨ih.1, ih.2.trans ?_⟩
    rw [beq_zero_add hacc hnorm, beq_zero_norm]
    simp

/-- The operand sum of two events: with every paired distance zero or at least `2^k`, it is
zero or at least `2^k`, and zero exactly when the accumulator is and the operands match. -/
theorem operandSum_spec {k : Int} (hk : k ≤ 6) :
    ∀ (xs ys : List (Option TraceExpr)) (acc : Float),
      (∀ p ∈ xs.zip ys, ZeroOrAbove k (exprDistance p.1 p.2)) → ZeroOrAbove k acc →
      ZeroOrAbove k (operandSum xs ys acc) ∧
        ((operandSum xs ys acc == 0) = true ↔ (acc == 0) = true ∧ OperandsMatch xs ys)
  | a :: as, b :: bs, acc, hd, hacc => by
    have hab := hd (a, b) (by simp)
    have ih := operandSum_spec hk as bs (acc + exprDistance a b)
      (fun p hp => hd p (by simp [hp])) (hacc.add hab)
    rw [operandSum]
    refine ⟨ih.1, ih.2.trans ?_⟩
    rw [beq_zero_add hacc hab, Bool.and_eq_true, and_assoc]
    exact and_congr_right fun _ =>
      (List.forall₂_cons (R := fun a b => (exprDistance a b == 0) = true)).symm
  | a :: as, [], acc, _, hacc => by
    have hnorm : ZeroOrAbove k norm := within_norm.zeroOrAbove.mono hk
    have ih := operandSum_spec hk as [] (acc + norm) (by simp) (hacc.add hnorm)
    rw [operandSum]
    refine ⟨ih.1, ih.2.trans ?_⟩
    rw [beq_zero_add hacc hnorm, beq_zero_norm]
    simp [OperandsMatch]
  | [], bs, acc, _, hacc => by
    rw [operandSum, OperandsMatch, List.forall₂_nil_left_iff]
    exact foldl_norm_spec hk bs acc hacc

/-- The zipped pairs of matching operand lists are at distance zero. -/
theorem OperandsMatch.zip_eq_zero {xs ys : List (Option TraceExpr)} (h : OperandsMatch xs ys) :
    ∀ p ∈ xs.zip ys, (exprDistance p.1 p.2 == 0) = true :=
  fun _ hp => (List.forall₂_iff_zip.1 h).2 hp

/-- The distance of two events whose operand lists are shorter than `2^53`, the reference's
snapshots bounded: zero exactly when the operands match, and otherwise at least `2^-107`. -/
theorem eventDistance_spec (a b : Event) (ha : ∀ o ∈ a.operands, ∀ te ∈ o, te.Bounded)
    (hna : a.operands.length < 2 ^ 53) (hnb : b.operands.length < 2 ^ 53) :
    ZeroOrAbove (-107) (eventDistance a b) ∧
      ((eventDistance a b == 0) = true ↔ OperandsMatch a.operands b.operands) := by
  unfold eventDistance
  dsimp only
  split
  next hn =>
    have hnil : a.operands = [] ∧ b.operands = [] := by
      simp only [beq_iff_eq, Nat.max_eq_zero_iff, List.length_eq_zero_iff] at hn
      exact hn
    rw [hnil.1, hnil.2]
    exact ⟨zeroOrAbove_zero _, iff_of_true rfl .nil⟩
  next hn =>
    have hsum := operandSum_spec (k := -51) (by omega) a.operands b.operands 0
      (fun p hp => exprDistance_zeroOrAbove _ _ (ha _ (List.of_mem_zip hp).1)) (zeroOrAbove_zero _)
    -- the operand count is at most `2^55`
    have hdiv := within_toFloat_lt (n := max a.operands.length b.operands.length)
      (by simp only [beq_iff_eq] at hn; omega) (by omega)
    refine ⟨(hsum.1.div hdiv (by omega)).mono (by omega), ?_⟩
    rw [beq_zero_div hsum.1 hdiv (by omega)]
    exact hsum.2.trans (and_iff_right rfl)

/-- Events with matching operands are at distance zero, however many operands they have. -/
theorem eventDistance_eq_zero {a b : Event} (h : OperandsMatch a.operands b.operands) :
    (eventDistance a b == 0) = true := by
  unfold eventDistance
  dsimp only
  split
  next => rfl
  next hn =>
    have hsum := operandSum_spec (k := 0) (by omega) a.operands b.operands 0
      (fun p hp => zeroOrAbove_of_beq_zero (h.zip_eq_zero p hp)) (zeroOrAbove_zero _)
    have hpos := toFloat_pos (n := max a.operands.length b.operands.length)
      (by simp only [beq_iff_eq] at hn; omega)
    exact beq_zero_div_of_beq_zero (hsum.2.2 ⟨rfl, h⟩) hpos.1 hpos.2

end Operands

section Traces

/-- The pair costs of two event lists, with every paired event distance zero or at least `2^k`:
zero or at least `2^(k-8)`, and zero exactly when the start is and every pair is at distance
zero. -/
theorem pairCosts_spec {k : Int} (hk : -1066 ≤ k) :
    ∀ (as bs : List Event) (d : Float),
      (∀ p ∈ as.zip bs, ZeroOrAbove k (eventDistance p.1 p.2)) → ZeroOrAbove (k - 8) d →
      ZeroOrAbove (k - 8) (pairCosts as bs d) ∧
        ((pairCosts as bs d == 0) = true ↔
          (d == 0) = true ∧ ∀ p ∈ as.zip bs, (eventDistance p.1 p.2 == 0) = true)
  | a :: as, b :: bs, d, he, hd => by
    have hab := he (a, b) (by simp)
    -- the pair's cost: half its distance over `norm`
    have hw : ZeroOrAbove (k - 1) (weightPair * eventDistance a b) :=
      (hab.const_mul within_weightPair (by omega)).mono (by omega)
    have hterm : ZeroOrAbove (k - 8) (weightPair * eventDistance a b / norm) :=
      (hw.div within_norm (by omega)).mono (by omega)
    have ih := pairCosts_spec hk as bs (d + weightPair * eventDistance a b / norm)
      (fun p hp => he p (by simp [hp])) (hd.add hterm)
    rw [pairCosts]
    refine ⟨ih.1, ih.2.trans ?_⟩
    rw [beq_zero_add hd hterm, beq_zero_div hw within_norm (by omega),
      beq_zero_const_mul within_weightPair hab (by omega)]
    simp [and_assoc]
  | [], _, d, _, hd => ⟨hd, by simp [pairCosts]⟩
  | _ :: _, [], d, _, hd => ⟨hd, by simp [pairCosts]⟩

/-- The cost of one event kind, added to `d`: the pair costs of its events paired in order,
then one for each event without a partner. -/
def kindCost (ref cand : Trace) (d : Float) (k : EventKind) : Float :=
  pairCosts (ref.eventsOf k) (cand.eventsOf k) d +
    weightMissing * (((ref.eventsOf k).length : Int) - (cand.eventsOf k).length).natAbs.toFloat

variable {ref cand : Trace}

/-- What the distance needs of two traces: each pair of events of a kind at distance zero or at
least `2^-107`, zero exactly when their operands match, and the outcome values at distance zero
or at least `2^-51`. Bounded traces give it, and so do indistinguishable ones. -/
structure Scored (ref cand : Trace) : Prop where
  pairs : ∀ k, ∀ p ∈ (ref.eventsOf k).zip (cand.eventsOf k),
    ZeroOrAbove (-107) (eventDistance p.1 p.2) ∧
      ((eventDistance p.1 p.2 == 0) = true ↔ OperandsMatch p.1.operands p.2.operands)
  outcome : ∀ x ∈ ref.outcome.value?, ∀ y ∈ cand.outcome.value?,
    ZeroOrAbove (-51) (exprDistance (some x) (some y))

theorem Scored.of_bounded (hr : ref.Bounded) (hc : cand.Bounded) : Scored ref cand where
  pairs _ p hp := by
    have ha := hr.eventsOf (List.of_mem_zip hp).1
    have hb := hc.eventsOf (List.of_mem_zip hp).2
    exact eventDistance_spec p.1 p.2 ha.2 ha.1 hb.1
  outcome x hx y _ := exprDistance_zeroOrAbove (some x) (some y) fun te hte => by
    cases hte; exact hr.2 x hx

theorem Scored.of_indistinguishable (h : Indistinguishable ref cand) : Scored ref cand where
  pairs k p hp := by
    have hmatch := (List.forall₂_iff_zip.1 (h.events k)).2 hp
    have hzero := eventDistance_eq_zero hmatch
    exact ⟨zeroOrAbove_of_beq_zero hzero, iff_of_true hzero hmatch⟩
  outcome x hx y hy := by
    have hout := h.outcome
    -- the outcomes are of one kind, their values at distance zero
    cases hro : ref.outcome <;> cases hco : cand.outcome <;>
      simp only [hro, hco, Outcome.value?, Option.mem_def, reduceCtorEq, Option.some.injEq,
        OutcomesMatch] at hx hy hout <;>
      first
      | exact hout.elim
      | (subst hx hy; exact zeroOrAbove_of_beq_zero hout)

/-- The events of one kind are paired with matching operands exactly when they are as many
and the event distance of every pair is zero. -/
theorem Scored.eventsMatch_iff (hs : Scored ref cand) (k : EventKind) :
    List.Forall₂ (fun a b : Event => OperandsMatch a.operands b.operands)
        (ref.eventsOf k) (cand.eventsOf k) ↔
      (ref.eventsOf k).length = (cand.eventsOf k).length ∧
        ∀ p ∈ (ref.eventsOf k).zip (cand.eventsOf k), (eventDistance p.1 p.2 == 0) = true := by
  rw [List.forall₂_iff_zip]
  exact and_congr_right fun _ =>
    ⟨fun h ⟨a, b⟩ hab => ((hs.pairs k _ hab).2).2 (h hab),
      fun h a b hab => ((hs.pairs k _ hab).2).1 (h (a, b) hab)⟩

/-- One kind's cost: zero or at least `2^-115`, and zero exactly when the start is and the
events of the kind are paired one to one with matching operands. -/
theorem kindCost_spec (hs : Scored ref cand) (k : EventKind) (d : Float)
    (hd : ZeroOrAbove (-115) d) :
    ZeroOrAbove (-115) (kindCost ref cand d k) ∧
      ((kindCost ref cand d k == 0) = true ↔ (d == 0) = true ∧
        List.Forall₂ (fun a b : Event => OperandsMatch a.operands b.operands)
          (ref.eventsOf k) (cand.eventsOf k)) := by
  have hpairs := pairCosts_spec (k := -107) (by omega) (ref.eventsOf k) (cand.eventsOf k) d
    (fun p hp => (hs.pairs k p hp).1) (hd.mono (by omega))
  -- one for each event without a partner
  have hcount := (zeroOrAbove_toFloat
    (((ref.eventsOf k).length : Int) - (cand.eventsOf k).length).natAbs).mono (j := 0) (by omega)
  have hmissing := (hcount.const_mul within_weightMissing (by omega)).mono (j := -115) (by omega)
  have hdiff : ((((ref.eventsOf k).length : Int) - (cand.eventsOf k).length).natAbs == 0) = true ↔
      (ref.eventsOf k).length = (cand.eventsOf k).length := by
    simp only [beq_iff_eq, Int.natAbs_eq_zero]
    omega
  unfold kindCost
  have hpairs' := hpairs.1.mono (j := -115) (by omega)
  refine ⟨hpairs'.add hmissing, ?_⟩
  rw [beq_zero_add hpairs' hmissing, beq_zero_const_mul within_weightMissing hcount (by omega),
    beq_zero_toFloat, Bool.and_eq_true, hpairs.2, hs.eventsMatch_iff, hdiff]
  tauto

/-- The costs of a list of kinds, kind after kind. -/
theorem foldl_kindCost_spec (hs : Scored ref cand) :
    ∀ (ks : List EventKind) (d : Float), ZeroOrAbove (-115) d →
      ZeroOrAbove (-115) (ks.foldl (kindCost ref cand) d) ∧
        ((ks.foldl (kindCost ref cand) d == 0) = true ↔ (d == 0) = true ∧
          ∀ k ∈ ks, List.Forall₂ (fun a b : Event => OperandsMatch a.operands b.operands)
            (ref.eventsOf k) (cand.eventsOf k))
  | [], d, hd => ⟨hd, by simp⟩
  | k :: ks, d, hd => by
    have hstep := kindCost_spec hs k d hd
    have ih := foldl_kindCost_spec hs ks _ hstep.1
    rw [List.foldl_cons]
    refine ⟨ih.1, ih.2.trans ?_⟩
    rw [hstep.2]
    simp [and_assoc]

theorem mem_all (k : EventKind) : k ∈ EventKind.all := by
  cases k <;> decide

/-- The cost of outcomes of one kind: their values' distance over `norm`. -/
theorem outcomeCost_spec {D : Float} (hD : ZeroOrAbove (-115) D) {x y : TraceExpr}
    (he : ZeroOrAbove (-51) (exprDistance (some x) (some y))) :
    ZeroOrAbove (-115) (D + weightExit * exprDistance (some x) (some y) / norm) ∧
      (D + weightExit * exprDistance (some x) (some y) / norm == 0) =
        ((D == 0) && (exprDistance (some x) (some y) == 0)) := by
  have hw := (he.const_mul within_weightExit (by omega)).mono (j := -51) (by omega)
  have hterm := (hw.div within_norm (by omega)).mono (j := -115) (by omega)
  refine ⟨hD.add hterm, ?_⟩
  rw [beq_zero_add hD hterm, beq_zero_div hw within_norm (by omega),
    beq_zero_const_mul within_weightExit he (by omega)]

/-- The cost of a different way of ending. -/
theorem errorExitCost_spec {D : Float} (hD : ZeroOrAbove (-115) D) :
    ZeroOrAbove (-115) (D + weightErrorExit) ∧ (D + weightErrorExit == 0) = false := by
  have hw := within_weightErrorExit.zeroOrAbove.mono (j := -115) (by omega)
  refine ⟨hD.add hw, ?_⟩
  rw [beq_zero_add hD hw, (by decide : (weightErrorExit == 0) = false), Bool.and_false]

theorem indistinguishable_iff (hc : cand.isExhausted = false) :
    Indistinguishable ref cand ↔ (∀ k, List.Forall₂
      (fun a b : Event => OperandsMatch a.operands b.operands) (ref.eventsOf k) (cand.eventsOf k)) ∧
        OutcomesMatch ref.outcome cand.outcome :=
  ⟨fun h => ⟨h.events, h.outcome⟩, fun h => ⟨hc, h.1, h.2⟩⟩

/-- The kinds' costs in `traceDistance` are a fold of `kindCost`. -/
theorem foldl_kindCost_eq (ref cand : Trace) :
    EventKind.all.foldl (fun d k =>
      let a := ref.eventsOf k
      let b := cand.eventsOf k
      let d := pairCosts a b d
      let diff : Int := (a.length : Int) - b.length
      d + weightMissing * diff.natAbs.toFloat) 0 = EventKind.all.foldl (kindCost ref cand) 0 :=
  rfl

/-- The distance from a reference that did not run out of budget to a candidate it is scored
against: zero or at least `2^-115`, and zero exactly when the candidate is indistinguishable
from the reference. -/
theorem Scored.traceDistance (hs : Scored ref cand) (hr : ref.isExhausted = false) :
    ∃ d, traceDistance ref cand = .ok d ∧ ZeroOrAbove (-115) d ∧
      ((d == 0) = true ↔ Indistinguishable ref cand) := by
  obtain ⟨hD, hDzero⟩ := foldl_kindCost_spec hs EventKind.all 0 (zeroOrAbove_zero _)
  have hevents : (∀ k ∈ EventKind.all, List.Forall₂
      (fun a b : Event => OperandsMatch a.operands b.operands) (ref.eventsOf k) (cand.eventsOf k)) ↔
      ∀ k, List.Forall₂ (fun a b : Event => OperandsMatch a.operands b.operands)
        (ref.eventsOf k) (cand.eventsOf k) :=
    ⟨fun h k => h k (mem_all k), fun h k _ => h k⟩
  unfold TraceSynth.Metric.traceDistance
  rw [if_neg (by simp [hr])]
  by_cases hc : cand.isExhausted = true
  · rw [if_pos hc]
    exact ⟨_, rfl, within_weightExhausted.zeroOrAbove.mono (by omega),
      iff_of_false (by decide) fun h => by simp [h.not_exhausted] at hc⟩
  rw [if_neg hc, foldl_kindCost_eq]
  dsimp only
  rw [Bool.not_eq_true] at hc
  have hDzero' := hDzero.trans (and_iff_right rfl)
  generalize EventKind.all.foldl (kindCost ref cand) 0 = D at hD hDzero' ⊢
  rw [indistinguishable_iff hc]
  -- the outcomes: of one kind, or a different way of ending
  have hmatched : ∀ x y, ref.outcome.value? = some x → cand.outcome.value? = some y →
      ∃ d, Except.ok (ε := String) (D + weightExit * exprDistance (some x) (some y) / norm) =
        .ok d ∧ ZeroOrAbove (-115) d ∧ ((d == 0) = true ↔ (∀ k, List.Forall₂
          (fun a b : Event => OperandsMatch a.operands b.operands) (ref.eventsOf k)
            (cand.eventsOf k)) ∧ (exprDistance (some x) (some y) == 0) = true) := by
    intro x y hx hy
    obtain ⟨hcost, hzero⟩ := outcomeCost_spec hD (hs.outcome x hx y hy)
    refine ⟨_, rfl, hcost, ?_⟩
    rw [hzero, Bool.and_eq_true, hDzero', hevents]
  have hother : ∃ d, Except.ok (ε := String) (D + weightErrorExit) = .ok d ∧
      ZeroOrAbove (-115) d ∧ ((d == 0) = true ↔ False) := by
    obtain ⟨hcost, hzero⟩ := errorExitCost_spec hD
    exact ⟨_, rfl, hcost, by rw [hzero]; exact iff_of_false Bool.false_ne_true id⟩
  cases hro : ref.outcome with
  | exhausted => simp [Trace.isExhausted, hro] at hr
  | returned x =>
    cases hco : cand.outcome with
    | returned y => exact hmatched x y (by rw [hro]; rfl) (by rw [hco]; rfl)
    | threw y => simpa [OutcomesMatch] using hother
    | exhausted => simp [Trace.isExhausted, hco] at hc
  | threw x =>
    cases hco : cand.outcome with
    | returned y => simpa [OutcomesMatch] using hother
    | threw y => exact hmatched x y (by rw [hro]; rfl) (by rw [hco]; rfl)
    | exhausted => simp [Trace.isExhausted, hco] at hc

/-- The distance from a reference that did not run out of budget, both traces bounded: zero or
at least `2^-115`, and zero exactly when the candidate is indistinguishable from the
reference. -/
theorem traceDistance_spec (hr : ref.isExhausted = false) (hbr : ref.Bounded)
    (hbc : cand.Bounded) :
    ∃ d, traceDistance ref cand = .ok d ∧ ZeroOrAbove (-115) d ∧
      ((d == 0) = true ↔ Indistinguishable ref cand) :=
  (Scored.of_bounded hbr hbc).traceDistance hr

/-- An indistinguishable candidate is at distance zero, whatever the size of the traces. -/
theorem traceDistance_eq_zero_of_indistinguishable (hr : ref.isExhausted = false)
    (h : Indistinguishable ref cand) :
    ∃ d, traceDistance ref cand = .ok d ∧ (d == 0) = true := by
  obtain ⟨d, hd, -, hzero⟩ := (Scored.of_indistinguishable h).traceDistance hr
  exact ⟨d, hd, hzero.2 h⟩

end Traces

section Scoring

theorem bind_eq_ok {ε α β : Type} {x : Except ε α} {f : α → Except ε β} {b : β}
    (h : x >>= f = .ok b) : ∃ a, x = .ok a ∧ f a = .ok b := by
  cases x with
  | error e => cases h
  | ok a => exact ⟨a, rfl, h⟩

/-- A fold that adds what each step computes returns the sum of those values, when it returns:
each step `x` adds a value `d` with `P x d`. -/
theorem foldlM_add_eq_ok {β ε : Type} {G : Float → β → Except ε Float} {P : β → Float → Prop}
    (hG : ∀ acc x b, G acc x = .ok b → ∃ d, P x d ∧ b = acc + d) :
    ∀ (l : List β) (acc total : Float), l.foldlM G acc = .ok total →
      ∃ ds : List Float, List.Forall₂ P l ds ∧ total = ds.foldl (· + ·) acc
  | [], acc, total, h => ⟨[], .nil, (Except.ok.inj h).symm⟩
  | x :: l, acc, total, h => by
    rw [List.foldlM_cons] at h
    obtain ⟨b, hb, hrest⟩ := bind_eq_ok h
    obtain ⟨d, hd, rfl⟩ := hG acc x b hb
    obtain ⟨ds, hds, htotal⟩ := foldlM_add_eq_ok hG l _ total hrest
    exact ⟨d :: ds, .cons hd hds, htotal⟩

/-- A sum of values each zero or at least `2^k`: zero or at least `2^k`, and zero exactly when
the start and every value are. -/
theorem foldl_add_spec {k : Int} :
    ∀ (ds : List Float) (acc : Float), (∀ d ∈ ds, ZeroOrAbove k d) → ZeroOrAbove k acc →
      ZeroOrAbove k (ds.foldl (· + ·) acc) ∧
        ((ds.foldl (· + ·) acc == 0) = true ↔ (acc == 0) = true ∧ ∀ d ∈ ds, (d == 0) = true)
  | [], acc, _, hacc => ⟨hacc, by simp⟩
  | d :: ds, acc, hds, hacc => by
    have hd := hds d (by simp)
    have ih := foldl_add_spec ds (acc + d) (fun d' hd' => hds d' (by simp [hd'])) (hacc.add hd)
    rw [List.foldl_cons]
    refine ⟨ih.1, ih.2.trans ?_⟩
    rw [beq_zero_add hacc hd]
    simp [and_assoc]

/-- The distance the scoring computes on one input: the candidate recorded with the budget the
reference allows, then compared with the reference. -/
def ScoredInput (f : Function) (q : Input × Trace) (d : Float) : Prop :=
  ∃ t, record f q.1 (budgetFor q.2.events.length) = .ok t ∧ traceDistance q.2 t = .ok d

/-- The distance on an input is determined by the function and the input. -/
theorem ScoredInput.unique {f : Function} {q : Input × Trace} {d d' : Float}
    (h : ScoredInput f q d) (h' : ScoredInput f q d') : d = d' := by
  obtain ⟨t, ht, hd⟩ := h
  obtain ⟨t', ht', hd'⟩ := h'
  rw [ht] at ht'
  cases ht'
  rw [hd] at hd'
  cases hd'
  rfl

theorem forall₂_exists_left {α β : Type} {R : α → β → Prop} :
    ∀ {l : List α} {m : List β}, List.Forall₂ R l m → ∀ b ∈ m, ∃ a ∈ l, R a b
  | _, _, .nil => fun _ h => by cases h
  | _, _, .cons hr hs => fun b hb => by
    rcases List.mem_cons.1 hb with rfl | hb
    · exact ⟨_, List.mem_cons_self .., hr⟩
    · obtain ⟨a, ha, hab⟩ := forall₂_exists_left hs b hb
      exact ⟨a, List.mem_cons_of_mem _ ha, hab⟩

theorem forall₂_exists_right {α β : Type} {R : α → β → Prop} :
    ∀ {l : List α} {m : List β}, List.Forall₂ R l m → ∀ a ∈ l, ∃ b ∈ m, R a b
  | _, _, .nil => fun _ h => by cases h
  | _, _, .cons hr hs => fun a ha => by
    rcases List.mem_cons.1 ha with rfl | ha
    · exact ⟨_, List.mem_cons_self .., hr⟩
    · obtain ⟨b, hb, hab⟩ := forall₂_exists_right hs a ha
      exact ⟨b, List.mem_cons_of_mem _ hb, hab⟩

/-- A scoring that is not finalizing and returns a score, every list its distances divide by
shorter than `2^53`: every input has a distance, the score is zero or at least `2^-171`, and it
is zero exactly when the distance on every input is zero. -/
theorem evaluate_spec {p : Program} {inputs : List Input} {refs : List Trace} {s : Float}
    (h : evaluate p inputs refs false = .ok s) (hn : inputs.length < 2 ^ 53)
    (hb : ∀ q ∈ inputs.zip refs, q.2.Bounded ∧ ∀ f t, p.compile = .ok f →
      record f q.1 (budgetFor q.2.events.length) = .ok t → t.Bounded) :
    ∃ f, p.compile = .ok f ∧ (∀ q ∈ inputs.zip refs, ∃ d, ScoredInput f q d) ∧
      ZeroOrAbove (-171) s ∧
      ((s == 0) = true ↔ ∀ q ∈ inputs.zip refs, ∀ d, ScoredInput f q d → (d == 0) = true) := by
  unfold evaluate at h
  dsimp only at h
  split at h
  · cases h
  split at h
  rotate_left
  · cases h
  rename_i f hf
  rw [pure_bind] at h
  obtain ⟨total, hfold, hs⟩ := bind_eq_ok h
  -- the fold adds the distance on each input
  obtain ⟨ds, hds, rfl⟩ := foldlM_add_eq_ok (P := fun x d => ScoredInput f x.1 d)
    (fun acc x b hx => by
      split at hx
      next t ht =>
        rw [pure_bind] at hx
        split at hx
        next d hd =>
          rw [pure_bind] at hx
          exact ⟨d, ⟨t, ht, hd⟩, (Except.ok.inj hx).symm⟩
        next => cases hx
      next => cases hx) _ _ _ hfold
  have hscored : ∀ d ∈ ds, ∃ q ∈ inputs.zip refs, ScoredInput f q d := fun d hd => by
    obtain ⟨x, hx, hxd⟩ := forall₂_exists_left hds d hd
    exact ⟨x.1, List.fst_mem_of_mem_zipIdx hx, hxd⟩
  have hdist : ∀ d ∈ ds, ZeroOrAbove (-115) d := fun d hd => by
    obtain ⟨q, hq, t, ht, hqd⟩ := hscored d hd
    have hr : q.2.isExhausted = false := by
      cases hex : q.2.isExhausted
      · rfl
      · unfold traceDistance at hqd
        rw [if_pos hex] at hqd
        cases hqd
    obtain ⟨d', hd', hbound, -⟩ := traceDistance_spec hr (hb q hq).1 ((hb q hq).2 f t hf ht)
    rw [hqd] at hd'
    cases hd'
    exact hbound
  obtain ⟨htotal, hzero⟩ := foldl_add_spec ds 0 hdist (zeroOrAbove_zero _)
  -- every input is scored at some position of the fold
  have hinput : ∀ q ∈ inputs.zip refs, ∃ d ∈ ds, ScoredInput f q d := fun q hq => by
    obtain ⟨x, hx, rfl⟩ := List.mem_map.1 ((List.zipIdx_map_fst 0 (inputs.zip refs)).symm ▸ hq)
    exact forall₂_exists_right hds x hx
  have hall : (∀ d ∈ ds, (d == 0) = true) ↔
      ∀ q ∈ inputs.zip refs, ∀ d, ScoredInput f q d → (d == 0) = true := by
    refine ⟨fun hz q hq d hqd => ?_, fun hz d hd => ?_⟩
    · obtain ⟨d', hd', hqd'⟩ := hinput q hq
      rw [hqd.unique hqd']
      exact hz d' hd'
    · obtain ⟨q, hq, hqd⟩ := hscored d hd
      exact hz q hq d hqd
  refine ⟨f, hf, fun q hq => (hinput q hq).imp fun _ h => h.2, ?_⟩
  rw [← Except.ok.inj hs, if_neg Bool.false_ne_true]
  split
  next hempty =>
    rw [List.isEmpty_iff] at hempty
    subst hempty
    exact ⟨zeroOrAbove_zero _, iff_of_true rfl fun q hq => by simp at hq⟩
  next hempty =>
    have hlen : 0 < inputs.length := by
      cases inputs with
      | nil => simp at hempty
      | cons _ _ => simp
    have hdiv := within_toFloat_lt hlen hn
    refine ⟨(htotal.div hdiv (by omega)).mono (by omega), ?_⟩
    rw [beq_zero_div htotal hdiv (by omega), hzero, ← hall]
    exact and_iff_right rfl

end Scoring

end Metric

end TraceSynth
