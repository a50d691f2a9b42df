import TraceSynth.Generate.Inputs
import TraceSynth.Proofs.Heap.Bisimilarity
import TraceSynth.Proofs.Search.Selection
import TraceSynth.Proofs.Metric.ZeroDistance

/-!
# Generated inputs are fresh

Input generation keeps a pool: the starting inputs, then every input made so far. A change of
an input at a place joins the pool only when no input of the pool equals it, and only while
fewer than the limit have been made. So the inputs made are apart from the starting inputs and
from each other, and there are at most as many as the limit (`Generate.Pool.Fresh`), one change
at a time (`Generate.tryAlternative_fresh`) and over every place and every input of the pool
(`Generate.perturbAll_freshFrom`).

Each round of generation starts again from the starting inputs, so what the last round made is
fresh too; its recordings are the traces generation keeps (`Generate.rounds_recorded`), and the
inputs whose recording ran out of budget are dropped (`Generate.unexhausted_sublist`). Equality
of inputs is symmetric (`Input.equal_symm`), so "apart" holds in both directions.

Inputs are values here: a change is made on a new input and recording takes a copy, so the
starting inputs cannot change.

## Main results

* `Generate.inputs_fresh`: every list of generated inputs is apart from the starting inputs,
  pairwise apart, recorded within budget, and no longer than the limit.
-/

namespace TraceSynth

namespace Input

/-- Structural equality of inputs is symmetric. -/
theorem equal_symm {a b : Input} (h : a.equal b = true) : b.equal a = true := by
  obtain ⟨hlen, hab⟩ := (equal_iff_bisimilar a b).1 h
  exact (equal_iff_bisimilar b a).2 ⟨hlen.symm, hab.symm⟩

/-- Inequality of inputs is symmetric. -/
theorem equal_false_symm {a b : Input} (h : a.equal b = false) : b.equal a = false := by
  cases hba : b.equal a
  · rfl
  · rw [equal_symm hba] at h
    cases h

end Input

namespace Generate

/-- Inputs made from `initial`: none equals a starting input, none equals an input made before
it, and there are at most `limit` of them when `limit > 0`. -/
structure FreshFrom (initial : List Input) (limit : Nat) (made : List Input) : Prop where
  apart_initial : ∀ i ∈ initial, ∀ m ∈ made, i.equal m = false
  apart_made : made.Pairwise fun a b => a.equal b = false
  bounded : 0 < limit → made.length ≤ limit

theorem FreshFrom.sublist {initial : List Input} {limit : Nat} {made out : List Input}
    (h : FreshFrom initial limit made) (hsub : out.Sublist made) : FreshFrom initial limit out where
  apart_initial i hi m hm := h.apart_initial i hi m (hsub.subset hm)
  apart_made := h.apart_made.sublist hsub
  bounded hlim := le_trans hsub.length_le (h.bounded hlim)

/-- The pool of input generation: the starting inputs followed by the inputs made, which are
fresh. -/
structure Pool.Fresh (initial : List Input) (limit : Nat) (st : Pool) : Prop where
  pool_eq : st.pool.toList = initial ++ st.made.toList
  made : FreshFrom initial limit st.made.toList

theorem Pool.fresh_start (initial : List Input) (limit : Nat) :
    Pool.Fresh initial limit { pool := initial.toArray, made := #[] } where
  pool_eq := by simp
  made := ⟨by simp, by simp, by simp⟩

variable {initial : List Input} {limit : Nat}

/-- An input that no input of the pool equals joins a fresh pool, while there is room. -/
theorem Pool.Fresh.push {st : Pool} {next : Input} (h : st.Fresh initial limit)
    (hroom : 0 < limit → st.made.size < limit) (hnew : st.pool.any (·.equal next) = false) :
    Pool.Fresh initial limit { pool := st.pool.push next, made := st.made.push next } := by
  -- no input of the pool, starting or made, equals the new one
  have hapart : ∀ p ∈ initial ++ st.made.toList, p.equal next = false := by
    intro p hp
    rw [← h.pool_eq] at hp
    have := hnew
    simp only [Array.any_eq_false] at this
    obtain ⟨j, hj, rfl⟩ := List.getElem_of_mem hp
    simpa using this j (by simpa using hj)
  refine ⟨by simp [h.pool_eq], ⟨?_, ?_, ?_⟩⟩
  · intro i hi m hm
    rw [Array.toList_push, List.mem_append, List.mem_singleton] at hm
    rcases hm with hm | rfl
    · exact h.made.apart_initial i hi m hm
    · exact hapart i (List.mem_append_left _ hi)
  · rw [Array.toList_push, List.pairwise_append]
    refine ⟨h.made.apart_made, List.pairwise_singleton _ _, fun a ha b hb => ?_⟩
    rw [List.mem_singleton] at hb
    subst hb
    exact hapart a (List.mem_append_right _ ha)
  · intro hlim
    have := hroom hlim
    simp only [Array.toList_push, List.length_append, Array.length_toList, List.length_singleton]
    omega

/-- One change either leaves the pool as it is or adds an input that no input of the pool
equals, while fewer than the limit have been made. -/
theorem tryAlternative_cases (e : Expr) (src : Input) (st : Pool) (k : Nat) :
    tryAlternative e src limit st k = st ∨
      ∃ next, (0 < limit → st.made.size < limit) ∧ st.pool.any (·.equal next) = false ∧
        tryAlternative e src limit st k =
          { pool := st.pool.push next, made := st.made.push next } := by
  unfold tryAlternative
  split
  · exact .inl rfl
  · rename_i hfull
    have hroom : 0 < limit → st.made.size < limit := by
      intro hlim
      simp only [Bool.and_eq_true, decide_eq_true_eq, not_and, not_le] at hfull
      exact hfull hlim
    split
    · exact .inl rfl
    · dsimp only
      split
      · exact .inl rfl
      · split
        · exact .inl rfl
        · rename_i next _
          split
          · exact .inl rfl
          · rename_i hdup
            simp only [Bool.or_eq_true, not_or, Bool.not_eq_true] at hdup
            exact .inr ⟨next, hroom, hdup.2, rfl⟩

theorem tryAlternative_fresh {e : Expr} {src : Input} {st : Pool} {k : Nat}
    (h : st.Fresh initial limit) : (tryAlternative e src limit st k).Fresh initial limit := by
  rcases tryAlternative_cases e src st k with heq | ⟨next, hroom, hnew, heq⟩
  · rw [heq]
    exact h
  · rw [heq]
    exact h.push hroom hnew

/-- A fold whose every step keeps the pool fresh keeps it fresh. -/
theorem foldl_fresh {α : Type} {g : Pool → α → Pool}
    (hg : ∀ st a, st.Fresh initial limit → (g st a).Fresh initial limit) :
    ∀ (l : List α) (st : Pool), st.Fresh initial limit → (l.foldl g st).Fresh initial limit
  | [], _, h => h
  | a :: l, st, h => foldl_fresh hg l (g st a) (hg st a h)

theorem perturbAt_fresh {st : Pool} {e : Expr} (h : st.Fresh initial limit) :
    (perturbAt limit st e).Fresh initial limit := by
  unfold perturbAt
  refine foldl_fresh (fun st src hst => ?_) _ _ h
  split
  · exact hst
  · exact foldl_fresh (fun _ _ hst => tryAlternative_fresh hst) _ _ hst

/-- The inputs made by perturbing the starting inputs at any places are fresh. -/
theorem perturbAll_freshFrom (initial : List Input) (places : List Expr) (limit : Nat) :
    FreshFrom initial limit (perturbAll initial places limit) :=
  (foldl_fresh (fun _ _ hst => perturbAt_fresh hst) places _
    (Pool.fresh_start initial limit)).made

/-- The inputs whose trace did not run out of budget, among inputs paired with their
recordings, are a sublist of the inputs, each recorded without running out. -/
theorem unexhausted_sublist {f : Function} {budget : Nat} :
    ∀ {made : List Input} {ts : List Trace},
      List.Forall₂ (fun i t => record f i budget = .ok t) made ts →
      let out := (made.zip ts).filterMap fun (i, t) => if t.isExhausted then none else some i
      out.Sublist made ∧ ∀ x ∈ out, ∃ t, record f x budget = .ok t ∧ t.isExhausted = false
  | [], [], .nil => by simp
  | i :: made, t :: ts, .cons hit hrest => by
    obtain ⟨hsub, hrec⟩ := unexhausted_sublist hrest
    dsimp only at hsub hrec ⊢
    rw [List.zip_cons_cons, List.filterMap_cons]
    cases hex : t.isExhausted
    · refine ⟨hsub.cons_cons i, fun x hx => ?_⟩
      rw [if_neg Bool.false_ne_true, List.mem_cons] at hx
      rcases hx with rfl | hx
      · exact ⟨t, hit, hex⟩
      · exact hrec x hx
    · exact ⟨hsub.cons i, hrec⟩

@[simp] theorem mapError_eq_ok {ε ε' α : Type} {x : Except ε α} {g : ε → ε'} {a : α} :
    x.mapError g = .ok a ↔ x = .ok a := by
  cases x <;> simp [Except.mapError]

/-- What generation keeps between rounds: the inputs of the last round are fresh, and after the
traces of the starting inputs come exactly their recordings. -/
structure Recorded (f : Function) (initial : List Input) (c : GenConfig) (made : List Input)
    (traces : List Trace) : Prop where
  fresh : FreshFrom initial c.maxInputs made
  starts : initial.length ≤ traces.length
  records : recordAll f made c.budget c.parallelism = .ok (traces.drop initial.length)

/-- A round's inputs, recorded after the traces of the starting inputs, are what the rounds
keep. -/
theorem Recorded.of_round {f : Function} {c : GenConfig} {places : List Expr}
    {traces more : List Trace} (hstart : initial.length ≤ traces.length)
    (hmore : recordAll f (perturbAll initial places c.maxInputs) c.budget c.parallelism =
      .ok more) :
    Recorded f initial c (perturbAll initial places c.maxInputs)
      (traces.take initial.length ++ more) where
  fresh := perturbAll_freshFrom initial places c.maxInputs
  starts := by simp; omega
  records := by
    rw [List.drop_append_of_le_length (by simp; omega), List.drop_eq_nil_of_le (by simp),
      List.nil_append]
    exact hmore

/-- Every round of generation keeps the inputs of its last round fresh and recorded. -/
theorem rounds_recorded {f : Function} {c : GenConfig} :
    ∀ (n : Nat) (traces : List Trace) (known : Nat) (made : List Input)
      {res : List Input × List Trace}, rounds f initial c n traces known made = .ok res →
      Recorded f initial c made traces → Recorded f initial c res.1 res.2
  | 0, traces, known, made, res, h, hrec => by
    cases h
    exact hrec
  | n + 1, traces, known, made, res, h, hrec => by
    unfold rounds at h
    dsimp only at h
    split at h
    · cases h
      exact hrec
    · obtain ⟨more, hmore, hnext⟩ := Metric.bind_eq_ok h
      exact rounds_recorded n _ _ _ hnext (Recorded.of_round hrec.starts (mapError_eq_ok.1 hmore))

/-- Generated inputs are fresh: none equals a starting input or another generated input, in
either order; each one's recording under the budget does not run out; and there are at most
`maxInputs` of them when `maxInputs > 0`. -/
theorem inputs_fresh {f : Function} {initial : List Input} {c : GenConfig} {out : List Input}
    (h : inputs f initial c = .ok out) :
    (∀ x ∈ out, ∀ i ∈ initial, x.equal i = false ∧ i.equal x = false) ∧
    out.Pairwise (fun a b => a.equal b = false ∧ b.equal a = false) ∧
    (∀ x ∈ out, ∃ t, record f x c.budget = .ok t ∧ t.isExhausted = false) ∧
    (0 < c.maxInputs → out.length ≤ c.maxInputs) := by
  unfold inputs at h
  split at h
  · -- no starting inputs: nothing is generated
    cases h
    simp
  · obtain ⟨traces, htraces, h⟩ := Metric.bind_eq_ok h
    obtain ⟨more, hmore, h⟩ := Metric.bind_eq_ok h
    obtain ⟨⟨made, kept⟩, hrounds, h⟩ := Metric.bind_eq_ok h
    cases h
    have hlen := (recordAll_forall₂ (mapError_eq_ok.1 htraces)).length_eq
    have hrec := rounds_recorded _ _ _ _ hrounds
      (Recorded.of_round (le_of_eq hlen) (mapError_eq_ok.1 hmore))
    obtain ⟨hsub, hunex⟩ := unexhausted_sublist (recordAll_forall₂ hrec.records)
    have hfresh := hrec.fresh.sublist hsub
    refine ⟨fun x hx i hi => ?_, ?_, hunex, hfresh.bounded⟩
    · have hix := hfresh.apart_initial i hi x hx
      exact ⟨Input.equal_false_symm hix, hix⟩
    · exact hfresh.apart_made.imp fun hab => ⟨hab, Input.equal_false_symm hab⟩

set_option maxRecDepth 100000 in
/-- A target that returns its second argument when its first is truthy, started from `[true, 2]`:
both arguments are read, and generation gives five inputs, each fresh. -/
theorem inputs_fresh_flag_and_value :
    let f : Function := .program
      { body := .seq [.ite (Expr.arg 0) (.seq [.ret (Expr.arg 1)])
        (.seq [.ret (.const .undefined)])] }
    let initial : List Input := [{ args := [.bool true, .number 2] }]
    ∃ out, inputs f initial {} = .ok out ∧
      out.map (fun i => i.render.toStringLossy) =
        ["false, 2", "true, 0", "true, 1", "false, 0", "false, 1"] ∧
      (∀ x ∈ out, ∀ i ∈ initial, x.equal i = false ∧ i.equal x = false) ∧
      out.Pairwise (fun a b => a.equal b = false ∧ b.equal a = false) ∧
      (∀ x ∈ out, ∃ t, record f x 1000 = .ok t ∧ t.isExhausted = false) ∧
      (0 < 200 → out.length ≤ 200) := by
  intro f initial
  -- the generated inputs' texts, compared in one Boolean that the kernel evaluates
  have htexts : (inputs f initial {}).toOption.map
      (fun out => out.map fun i => i.render.toStringLossy) ==
        some ["false, 2", "true, 0", "true, 1", "false, 0", "false, 1"] := by
    decide +kernel
  cases h : inputs f initial {} with
  | error e =>
    rw [h] at htexts
    cases htexts
  | ok out =>
    rw [h] at htexts
    simp only [Except.toOption, Option.map_some, beq_iff_eq, Option.some.injEq] at htexts
    exact ⟨out, rfl, htexts, inputs_fresh h⟩

end Generate

end TraceSynth
