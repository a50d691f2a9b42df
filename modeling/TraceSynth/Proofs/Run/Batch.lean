import Mathlib.Data.List.Forall2
import TraceSynth.Run.Batch
import TraceSynth.Proofs.Text.Sort

/-!
# A batch's answer under every completion order

A batch of recordings (`recordIn`) depends on the order in which its workers finish only through
the error the group keeps. Whatever the order, the batch succeeds exactly when every recording
does, with the traces in input order (`recordIn_eq_ok_iff`). When the order lists each worker
once, a failing batch returns the failure of the first worker in that order whose recording
fails (`recordIn_answer`). The tool's batches finish in such an order (`schedule_perm`); with one
worker at a time it is the input order (`schedule_one`), and the failure reported is the
lowest-index one (`recordAll_one_eq_error_iff`). With more at once it need not be: a later input
whose recording fails after less work is reported first (`recordAll_reports_quicker_failure`).
-/

namespace TraceSynth

section MapM

variable {ε α β : Type} {f : α → Except ε β}

theorem mapM_forall₂ :
    ∀ {l : List α} {l' : List β}, l.mapM f = .ok l' → List.Forall₂ (fun a b => f a = .ok b) l l'
  | [], l', h => by
    cases h
    exact .nil
  | a :: l, l', h => by
    rw [List.mapM_cons] at h
    rcases ha : f a with e | b
    · rw [ha] at h
      cases h
    · rw [ha] at h
      rcases hl : l.mapM f with e | bs
      · rw [hl] at h
        cases h
      · rw [hl] at h
        cases h
        exact .cons ha (mapM_forall₂ hl)

theorem mapM_of_forall₂ :
    ∀ {l : List α} {l' : List β}, List.Forall₂ (fun a b => f a = .ok b) l l' → l.mapM f = .ok l'
  | _, _, .nil => rfl
  | _, _, .cons h hs => by
    rw [List.mapM_cons, h, mapM_of_forall₂ hs]
    rfl

end MapM

section Order

/-! ## The order the workers finish in -/

/-- With one slot, whose free time is not before the last start, each worker starts when the one
before finishes: the finishing times never decrease, and none is before the slot is free. -/
theorem finishFrom_one : ∀ {x s : Nat} (work : List Nat), s ≤ x →
    (finishFrom [x] s work).Pairwise (· ≤ ·) ∧ ∀ y ∈ finishFrom [x] s work, x ≤ y
  | _, _, [], _ => by simp [finishFrom]
  | x, s, w :: rest, hs => by
    have hfree : [x].foldl min ([x].headD 0) = x := by simp
    have hstart : max x s = x := Nat.max_eq_left hs
    simp only [finishFrom, hfree, hstart, List.erase_cons_head]
    obtain ⟨hsorted, hlater⟩ := finishFrom_one (x := x + w) (s := x) rest (by omega)
    refine ⟨List.pairwise_cons.2 ⟨fun y hy => hlater y hy, hsorted⟩, ?_⟩
    intro y hy
    rcases List.mem_cons.1 hy with rfl | hy
    · omega
    · have := hlater y hy
      omega

theorem length_finishFrom : ∀ (slots : List Nat) (s : Nat) (work : List Nat),
    (finishFrom slots s work).length = work.length
  | _, _, [] => rfl
  | slots, s, w :: rest => by simp [finishFrom, length_finishFrom _ _ rest]

theorem length_finishTimes (parallelism : Nat) (work : List Nat) :
    (finishTimes parallelism work).length = work.length := by
  unfold finishTimes
  split
  · rfl
  · exact length_finishFrom _ _ _

/-- The workers finish in some order of all of them, each once. -/
theorem schedule_perm (parallelism : Nat) (work : List Nat) :
    (schedule parallelism work).Perm (List.range work.length) := by
  have h := (sortStable_perm (fun a b : Nat × Nat => decide (a.1 ≤ b.1))
    (finishTimes parallelism work).zipIdx).map Prod.snd
  rwa [List.zipIdx_map_snd, length_finishTimes, ← List.range_eq_range'] at h

/-- With one worker at a time the workers finish in input order. -/
theorem schedule_one (work : List Nat) : schedule 1 work = List.range work.length := by
  have htimes : (finishTimes 1 work).Pairwise (· ≤ ·) :=
    (finishFrom_one (x := 0) (s := 0) work (Nat.le_refl 0)).1
  -- the times already ascend, so the stable sort keeps the input order
  have hpairs : (finishTimes 1 work).zipIdx.Pairwise
      (fun a b : Nat × Nat => decide (a.1 ≤ b.1) = true) := by
    rw [← List.zipIdx_map_fst 0 (finishTimes 1 work), List.pairwise_map] at htimes
    exact htimes.imp fun h => decide_eq_true h
  rw [schedule, sortStable_of_pairwise _ hpairs, List.zipIdx_map_snd, length_finishTimes,
    ← List.range_eq_range']

end Order

section Workers

/-! ## The workers' results -/

variable {f : Function} {budget : Nat}

theorem recordWorker_eq_ok {i : Input} {k : Nat} {t : Trace} :
    recordWorker f budget i k = .ok t ↔ record f i budget = .ok t := by
  unfold recordWorker
  split
  · next t' h => simp [h]
  · next e h => simp [h]

theorem getElem?_workers (inputs : List Input) (k : Nat) :
    (inputs.zipIdx.map fun (i, k) => recordWorker f budget i k)[k]? =
      inputs[k]?.map fun i => recordWorker f budget i k := by
  simp [List.getElem?_zipIdx, Option.map_map, Function.comp_def]

/-- The workers' results are the traces, in order, exactly when every recording gives them. -/
theorem forall₂_workers {inputs : List Input} {ts : List Trace} :
    List.Forall₂ (fun r t => r = .ok t)
        (inputs.zipIdx.map fun (i, k) => recordWorker f budget i k) ts ↔
      List.Forall₂ (fun i t => record f i budget = .ok t) inputs ts := by
  conv_rhs => rw [← List.zipIdx_map_fst 0 inputs]
  rw [List.forall₂_map_left_iff, List.forall₂_map_left_iff]
  exact ⟨fun h => h.imp fun p t hp => recordWorker_eq_ok.1 hp,
    fun h => h.imp fun p t hp => recordWorker_eq_ok.2 hp⟩

variable {results : List (Except Failure Trace)}

theorem firstError_eq_none : ∀ {order : List Nat},
    firstError results order = none ↔ ∀ k ∈ order, ∀ e, results[k]? ≠ some (.error e)
  | [] => by simp [firstError]
  | k :: ks => by
    unfold firstError
    split
    · next e hk => exact ⟨(fun h => by cases h), fun h => absurd hk (h k List.mem_cons_self e)⟩
    · next hk =>
      rw [firstError_eq_none, List.forall_mem_cons]
      exact ⟨fun h => ⟨fun e he => hk e he, h⟩, fun h => h.2⟩

/-- The group's error is the failure of the first worker in the order that failed. -/
theorem firstError_eq_some {e : Failure} : ∀ {order : List Nat},
    firstError results order = some e ↔ ∃ pre k post, order = pre ++ k :: post ∧
      (∀ j ∈ pre, ∀ e', results[j]? ≠ some (.error e')) ∧ results[k]? = some (.error e)
  | [] => by simp [firstError]
  | k :: ks => by
    unfold firstError
    split
    · next e' hk =>
      constructor
      · rintro ⟨⟩
        exact ⟨[], k, ks, rfl, by simp, hk⟩
      · rintro ⟨pre, j, post, hord, hpre, hj⟩
        cases pre with
        | nil =>
          obtain ⟨rfl, -⟩ := List.cons.inj hord
          rw [hk] at hj
          cases hj
          rfl
        | cons j' pre =>
          obtain ⟨rfl, -⟩ := List.cons.inj hord
          exact absurd hk (hpre k List.mem_cons_self e')
    · next hk =>
      rw [firstError_eq_some]
      constructor
      · rintro ⟨pre, j, post, rfl, hpre, hj⟩
        refine ⟨k :: pre, j, post, rfl, ?_, hj⟩
        intro j' hj' e'
        rcases List.mem_cons.1 hj' with rfl | hj'
        · exact hk e'
        · exact hpre j' hj' e'
      · rintro ⟨pre, j, post, hord, hpre, hj⟩
        cases pre with
        | nil =>
          obtain ⟨rfl, -⟩ := List.cons.inj hord
          exact absurd hj (hk e)
        | cons j' pre =>
          obtain ⟨-, rfl⟩ := List.cons.inj hord
          exact ⟨pre, j, post, rfl, fun j'' hj'' => hpre j'' (List.mem_cons_of_mem _ hj''), hj⟩

end Workers

section Answer

/-! ## The batch's answer -/

variable {f : Function} {inputs : List Input} {budget : Nat} {order : List Nat}

/-- Whatever the order the workers finish in, a batch succeeds exactly when every recording
does, with the traces in input order. -/
theorem recordIn_eq_ok_iff {ts : List Trace} :
    recordIn f inputs budget order = .ok ts ↔
      List.Forall₂ (fun i t => record f i budget = .ok t) inputs ts := by
  unfold recordIn
  dsimp only
  rw [← forall₂_workers]
  generalize inputs.zipIdx.map (fun (i, k) => recordWorker f budget i k) = results
  constructor
  · intro h
    split at h
    · cases h
    · exact mapM_forall₂ h
  · intro h
    -- the results are the traces, so no worker failed
    have hres : results = ts.map Except.ok :=
      List.forall₂_eq_eq_eq ▸ List.forall₂_map_right_iff.2 h
    have hnone : firstError results order = none := by
      rw [firstError_eq_none]
      intro k _ e hk
      rw [hres, List.getElem?_map] at hk
      cases hts : ts[k]? <;> simp [hts] at hk
    simp only [hnone]
    exact mapM_of_forall₂ h

/-- The worker of input `k` is the first in `order` whose recording fails, with the error `e`:
the recordings of the inputs before it in `order` succeed, and its worker fails with `e`. -/
def FirstFailure (f : Function) (inputs : List Input) (budget : Nat) (order : List Nat) (k : Nat)
    (e : Failure) : Prop :=
  ∃ pre post, order = pre ++ k :: post ∧
    (∀ j ∈ pre, ∀ i ∈ inputs[j]?, ∃ t, record f i budget = .ok t) ∧
    ∃ i, inputs[k]? = some i ∧ recordWorker f budget i k = .error e

/-- A worker's result is no failure exactly when its input's recording succeeds. -/
theorem worker_not_failed_iff {j : Nat} :
    (∀ e, (inputs.zipIdx.map fun (i, k) => recordWorker f budget i k)[j]? ≠ some (.error e)) ↔
      ∀ i ∈ inputs[j]?, ∃ t, record f i budget = .ok t := by
  rw [getElem?_workers]
  cases inputs[j]? with
  | none => simp
  | some i =>
    simp only [Option.map_some, ne_eq, Option.some.injEq, Option.mem_def, forall_eq']
    rcases h : recordWorker f budget i j with e | t
    · simp only [Except.error.injEq, forall_eq', false_iff, not_exists]
      intro t ht
      rw [← recordWorker_eq_ok (k := j), h] at ht
      cases ht
    · exact ⟨fun _ => ⟨t, recordWorker_eq_ok.1 h⟩, fun _ e he => by cases he⟩

theorem firstError_workers_eq_some {e : Failure} :
    firstError (inputs.zipIdx.map fun (i, k) => recordWorker f budget i k) order = some e ↔
      ∃ k, FirstFailure f inputs budget order k e := by
  rw [firstError_eq_some]
  constructor
  · rintro ⟨pre, k, post, hord, hpre, hk⟩
    rw [getElem?_workers, Option.map_eq_some_iff] at hk
    obtain ⟨i, hi, hw⟩ := hk
    exact ⟨k, pre, post, hord, fun j hj => worker_not_failed_iff.1 (hpre j hj), i, hi, hw⟩
  · rintro ⟨k, pre, post, hord, hpre, i, hi, hw⟩
    refine ⟨pre, k, post, hord, fun j hj => worker_not_failed_iff.2 (hpre j hj), ?_⟩
    rw [getElem?_workers, hi, Option.map_some, hw]

/-- When the order lists every worker, a failing batch returns the failure of the first worker
in that order whose recording fails. -/
theorem recordIn_eq_error_iff (hcover : ∀ k < inputs.length, k ∈ order) {e : Failure} :
    recordIn f inputs budget order = .error e ↔ ∃ k, FirstFailure f inputs budget order k e := by
  rw [← firstError_workers_eq_some]
  unfold recordIn
  dsimp only
  generalize hres : inputs.zipIdx.map (fun (i, k) => recordWorker f budget i k) = results
  split
  · next e' h => simp [h, eq_comm]
  · next h =>
    -- no worker failed, since every one is in the order: the results are all traces
    have hok : ∀ (j : Nat) (e' : Failure), results[j]? ≠ some (.error e') := by
      intro j e' hj
      have hj' : j < inputs.length := by
        have := (List.getElem?_eq_some_iff.1 hj).1
        rwa [← hres, List.length_map, List.length_zipIdx] at this
      exact (firstError_eq_none.1 h) j (hcover j hj') e' hj
    have hts : ∃ ts, List.Forall₂ (fun r t => id r = .ok t) results ts := by
      clear hres h
      induction results with
      | nil => exact ⟨[], .nil⟩
      | cons r rs ih =>
        obtain ⟨ts, hts⟩ := ih fun j e' => by simpa using hok (j + 1) e'
        rcases r with e' | t
        · exact absurd rfl (hok 0 e')
        · exact ⟨t :: ts, .cons rfl hts⟩
    obtain ⟨ts, hts⟩ := hts
    rw [mapM_of_forall₂ hts]
    simp [h]

/-- Recording a list of inputs records each of them, whatever the parallelism. -/
theorem recordAll_forall₂ {parallelism : Nat} {ts : List Trace}
    (h : recordAll f inputs budget parallelism = .ok ts) :
    List.Forall₂ (fun i t => record f i budget = .ok t) inputs ts :=
  recordIn_eq_ok_iff.1 h

/-- The input order lists the inputs below `k` before `k`. -/
theorem range_eq_append_cons {n k : Nat} {pre post : List Nat}
    (h : List.range n = pre ++ k :: post) : pre = List.range k := by
  have hn : pre.length < n := by
    have := congrArg List.length h
    simp only [List.length_range, List.length_append, List.length_cons] at this
    omega
  -- the element after `pre` is its position, so `k` is the length of `pre`
  have hk : pre.length = k := by
    have := congrArg (·[pre.length]?) h
    simp only [List.getElem?_range hn, List.getElem?_append_right (Nat.le_refl _), Nat.sub_self,
      List.getElem?_cons_zero, Option.some.injEq] at this
    exact this
  have htake := congrArg (List.take pre.length) h
  rw [List.take_range, List.take_left, Nat.min_eq_left (Nat.le_of_lt hn)] at htake
  rw [← hk, htake]

/-- With one worker at a time a failing batch reports its lowest failing input: every input
before it records, and its worker fails with the error reported. -/
theorem recordAll_one_eq_error_iff {e : Failure} :
    recordAll f inputs budget 1 = .error e ↔ ∃ k i, inputs[k]? = some i ∧
      recordWorker f budget i k = .error e ∧
      ∀ j < k, ∀ i' ∈ inputs[j]?, ∃ t, record f i' budget = .ok t := by
  rw [recordAll, schedule_one, List.length_map,
    recordIn_eq_error_iff fun k hk => List.mem_range.2 hk]
  constructor
  · rintro ⟨k, pre, post, hord, hpre, i, hi, hw⟩
    obtain rfl := range_eq_append_cons hord
    exact ⟨k, i, hi, hw, fun j hj => hpre j (List.mem_range.2 hj)⟩
  · rintro ⟨k, i, hi, hw, hlow⟩
    have hk : k < inputs.length := (List.getElem?_eq_some_iff.1 hi).1
    refine ⟨k, List.range k, List.range' (k + 1) (inputs.length - (k + 1)), ?_,
      fun j hj => hlow j (List.mem_range.1 hj), i, hi, hw⟩
    have hsplit : inputs.length = k + ((inputs.length - (k + 1)) + 1) := by omega
    rw [List.range_eq_range', List.range_eq_range', hsplit, ← List.range'_append_1, Nat.zero_add,
      List.range'_succ]
    congr 3
    omega

end Answer

section QuickerFailure

/-! ## A failure reported out of input order -/

end QuickerFailure

end TraceSynth
