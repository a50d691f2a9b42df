import TraceSynth.Proofs.Search.Steps
import TraceSynth.Proofs.Program.Splice

/-!
# Shortening by deletion

`Engine.shorten` scores a program, then tries a number of times to delete the statement at a
random position, keeping the shorter program whenever it scores no worse. A deletion at
position `k` drops the whole subtree addressed there, so the count falls by that subtree's
count (`Program.numStmts_delete`).

Shortening never grows a program and returns one scored no worse than the program it was
given, as long as that score is a number. The tries stop once a single statement is addressed,
which keeps a statement only when every deletion drops exactly one: on programs whose
statements are leaves or empty blocks (`Program.Flat`) the result keeps a statement
(`Engine.shorten_no_worse`), while a program that is one conditional around a single statement
addresses two, and deleting the conditional empties it (`Engine.shorten_empties_conditional`).
-/

namespace TraceSynth

namespace Stmt

/-- Deleting at a position drops the subtree there, as many statements as it counts. -/
theorem length_splice_delete (s : Stmt) {k : Nat} (hk : k < s.count) :
    (splice s.all k .delete).length + (s.all.getD k default).count = s.count := by
  have hfit := count_getD_le s k hk
  have hlen := length_all s
  have hnone : Replacement.delete.stmts = [] := rfl
  simp only [splice, hnone, List.append_nil, List.length_append, List.length_mapIdx,
    List.length_take, List.length_drop]
  omega

/-- In a list of statements that each count one, a deletion rebuilds nothing: every statement
of the result is one of the list. -/
theorem mem_splice_delete {L : List Stmt} (hL : ∀ u ∈ L, u.count = 1) {k : Nat} {v : Stmt}
    (hv : v ∈ splice L k .delete) : v ∈ L := by
  have hnone : Replacement.delete.stmts = [] := rfl
  simp only [splice, hnone, List.append_nil, List.mem_append] at hv
  rcases hv with hv | hv
  · obtain ⟨j, hj, rfl⟩ := List.mem_mapIdx.1 hv
    have hjk : j < k := by
      rw [List.length_take] at hj
      omega
    have hmem : (L.take k)[j] ∈ L := List.mem_of_mem_take (List.getElem_mem hj)
    rw [rebuildAt_of_le _ (by rw [hL _ hmem]; omega)]
    exact hmem
  · exact List.mem_of_mem_drop hv

end Stmt

namespace Program

/-- Every statement the program addresses counts one: it is a leaf, or a conditional or loop
with empty arms. A deletion in such a program drops exactly one statement. -/
def Flat (p : Program) : Prop := ∀ u ∈ p.stmts, u.count = 1

instance : DecidablePred Flat := fun p => inferInstanceAs (Decidable (∀ u ∈ p.stmts, u.count = 1))

/-- A replacement the program accepts is at a position in range, and the program's statements
are the old ones spliced there. -/
theorem replace_ok {p q : Program} {i : Int} {r : Replacement} (h : p.replace i r = .ok q) :
    0 ≤ i ∧ i < p.numStmts ∧ q.stmts = Stmt.splice p.stmts i.toNat r := by
  unfold replace at h
  split at h
  · cases h
  · next hin =>
    simp only [Bool.or_eq_true, decide_eq_true_eq, not_or, not_lt, not_le] at hin
    cases h
    exact ⟨hin.1, hin.2, Stmt.all_replaceAt p.body i.toNat (by unfold numStmts at hin; omega) r⟩

/-- A deletion lowers the count by the count of the statement deleted. -/
theorem numStmts_delete {p q : Program} {i : Int} (h : p.replace i .delete = .ok q) :
    q.numStmts + (p.stmts.getD i.toNat default).count = p.numStmts := by
  obtain ⟨h0, hlt, hq⟩ := replace_ok h
  have hk : i.toNat < p.body.count := by unfold numStmts at hlt; omega
  unfold numStmts stmts at *
  rw [← Stmt.length_all q.body, hq]
  exact Stmt.length_splice_delete p.body hk

/-- A deletion in a flat program drops exactly one statement and leaves it flat. -/
theorem Flat.delete {p q : Program} {i : Int} (hp : p.Flat) (h : p.replace i .delete = .ok q) :
    q.Flat ∧ q.numStmts + 1 = p.numStmts := by
  obtain ⟨h0, hlt, hq⟩ := replace_ok h
  have hin : i.toNat < p.stmts.length := by
    unfold numStmts at hlt
    rw [← Stmt.length_all p.body] at hlt
    unfold stmts
    omega
  have hone : (p.stmts.getD i.toNat default).count = 1 := by
    rw [List.getD_eq_getElem _ _ hin]
    exact hp _ (List.getElem_mem hin)
  refine ⟨fun v hv => hp v (Stmt.mem_splice_delete hp (hq ▸ hv)), ?_⟩
  have hcount := numStmts_delete h
  omega

end Program

namespace Engine

open EngineM

section Shortening

variable (prob : SearchProblem)

/-- What shortening keeps along its tries, against the program `p₀` it started from, scored
`s₀`: the current program is scored at the current score, which is no higher than `s₀` while
that is a number; it counts no more statements than `p₀`; and when `p₀` is flat and addresses a
statement, so does the current program. -/
structure Shortened (p₀ : Program) (s₀ : Float) (st : Program × Float × Nat × Rng) : Prop where
  scored : Metric.evaluate st.1 prob.inputs prob.traces false = .ok st.2.1
  le : s₀.isNaN = false → st.2.1 ≤ s₀
  count_le : st.1.numStmts ≤ p₀.numStmts
  flat : p₀.Flat → 1 ≤ p₀.numStmts → st.1.Flat ∧ 1 ≤ st.1.numStmts

/-- A deleted candidate taken from a program with the invariant, at a score no higher, keeps
it: the count only falls, and a flat program above one statement keeps one. -/
theorem Shortened.take {p₀ p cand : Program} {s₀ score s : Float} {evals : Nat} {rng : Rng}
    (hst : Shortened prob p₀ s₀ (p, score, evals, rng)) (hn : ¬p.numStmts ≤ 1) {i : Int}
    (hc : p.replace i .delete = .ok cand)
    (hs : Metric.evaluate cand prob.inputs prob.traces false = .ok s) (hle : s ≤ score)
    (evals' : Nat) (rng' : Rng) : Shortened prob p₀ s₀ (cand, s, evals', rng') := by
  have hcount := Program.numStmts_delete hc
  have hbound : p.numStmts ≤ p₀.numStmts := hst.count_le
  have hflat₀ : p₀.Flat → 1 ≤ p₀.numStmts → p.Flat ∧ 1 ≤ p.numStmts := hst.flat
  refine ⟨hs, fun h => FloatOrder.le_trans hle (hst.le h),
    show cand.numStmts ≤ p₀.numStmts by omega, fun hf h1 => ?_⟩
  obtain ⟨hflat, hdrop⟩ := (hflat₀ hf h1).1.delete hc
  exact ⟨hflat, show 1 ≤ cand.numStmts by omega⟩

/-- Each try keeps the invariant: a candidate is taken only at a score no higher than the
current one, and a refused deletion ends shortening without a result. -/
theorem shortenTries_shortened (p₀ : Program) (s₀ : Float) :
    ∀ (left : Nat) (st : Program × Float × Nat × Rng), Shortened prob p₀ s₀ st →
      Framed (shortenTries prob left st) (Shortened prob p₀ s₀)
  | 0, _, hst => Framed.pure hst
  | left + 1, (p, score, evals, rng), hst => by
    rw [shortenTries.eq_2]
    refine Framed.ite (fun _ => Framed.pure hst) fun hn => ?_
    split
    next k rng' _ =>
    extract_lets step
    have hstep : ∀ cand, p.replace k .delete = .ok cand →
        Framed (step cand) (Shortened prob p₀ s₀) := by
      intro cand hc
      refine (evaluate_framed _ _ _).bind fun s hs => ?_
      refine Framed.ite (fun hle => ?_) fun _ => ?_
      · exact shortenTries_shortened p₀ s₀ left _ (hst.take prob hn hc hs hle _ _)
      · exact shortenTries_shortened p₀ s₀ left _ ⟨hst.1, hst.2, hst.3, hst.4⟩
    clear_value step
    split
    next cand hc => exact (Framed.pure rfl).bind fun c hc' => hstep c (hc' ▸ hc)
    next => exact (Framed.throw (P := fun _ => False)).bind fun _ h => h.elim

/-- Shortening returns a program that counts no more statements than `p`, scored no higher than
`p` whenever the score of `p` is a number; when every statement of `p` is a leaf or an empty
block and `p` addresses a statement, the result addresses one too. -/
theorem shorten_no_worse (cfg : SearchConfig) (p : Program) (prob : SearchProblem) (rng : Rng) :
    Framed (shorten cfg p prob rng) fun r =>
      r.1.numStmts ≤ p.numStmts ∧
      (∃ s₀ s, Metric.evaluate p prob.inputs prob.traces false = .ok s₀ ∧
        Metric.evaluate r.1 prob.inputs prob.traces false = .ok s ∧
        (s₀.isNaN = false → s ≤ s₀)) ∧
      (p.Flat → 1 ≤ p.numStmts → 1 ≤ r.1.numStmts) := by
  unfold shorten
  refine (evaluate_framed _ _ _).bind fun s₀ hs₀ => ?_
  have hstart : Shortened prob p s₀ (p, s₀, 1, rng) :=
    ⟨hs₀, FloatOrder.le_refl, le_rfl, fun hf h1 => ⟨hf, h1⟩⟩
  refine (shortenTries_shortened prob p s₀ _ _ hstart).bind fun ⟨q, s, evals, rng'⟩ hq => ?_
  exact Framed.pure ⟨hq.count_le, ⟨s₀, s, hs₀, hq.scored, hq.le⟩, fun hf h1 => (hq.flat hf h1).2⟩

set_option maxRecDepth 100000 in
/-- The guard counts addressed statements, not statements at the top:
`if (true) { return undefined }` addresses two, so shortening tries a deletion. Seeded with 2,
it draws position 0 and deletes the conditional with its arm; on an input where the conditional
returns undefined, the empty program does the same and scores as well, so it is kept. -/
theorem shorten_empties_conditional :
    let p : Program :=
      { body := .seq [.ite (.const (.bool true)) (.seq [.ret (.const .undefined)]) (.seq [])] }
    let inputs : List Input := [{ args := [.number 1] }]
    p.numStmts = 2 ∧ ∃ traces, recordAll (.program p) inputs 20 1 = .ok traces ∧
      ((shorten { shortenTries := 1 } p { inputs, traces } (Rng.seeded 2)).exec
        { seed := 0 }).1.toOption.map (fun r => r.1.numStmts) = some 0 := by
  intro p inputs
  -- the recording and the shortening, in one Boolean that the kernel evaluates
  have hok : ((recordAll (.program p) inputs 20 1).toOption.map fun traces =>
      ((shorten { shortenTries := 1 } p { inputs, traces } (Rng.seeded 2)).exec
        { seed := 0 }).1.toOption.map (fun r => r.1.numStmts)) == some (some 0) := by
    decide +kernel
  rcases hrec : recordAll (.program p) inputs 20 1 with e | traces
  · rw [hrec] at hok
    cases hok
  · rw [hrec] at hok
    simp only [Except.toOption, Option.map_some, beq_iff_eq, Option.some.injEq] at hok
    exact ⟨by decide, traces, rfl, hok⟩

end Shortening

end Engine

end TraceSynth
