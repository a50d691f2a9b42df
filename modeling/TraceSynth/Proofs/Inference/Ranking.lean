import TraceSynth.Proofs.Inference.Candidates
import TraceSynth.Proofs.Run.WellFormed
import TraceSynth.Seed.Replay
import TraceSynth.Proofs.Text.Sort

/-!
# Inferred proposals: placement, matching and ranking

A proposal places a loop in its source trace: the region `[start, start + length)`, the shared
block at its start, the then block right after it and, in a loop with a conditional, the else
block somewhere after the shared block; the compiled seed slices these blocks out of the source's
events. Mining builds each proposal from greedy scans of the skeleton (`Skeleton.repeats`,
`Skeleton.alternate`), so the blocks it records are blocks the scans read: the then block is the
first block of the region, and the else block is the one the scan took right after the copies of
the then block (`Skeleton.alternate_past_repeats`). Hence every mined proposal is well placed
(`Proposal.WellPlaced`).

Inference keeps the first proposal of each pattern, lists for each the indices of the traces its
pattern matches, and sorts the list by a ranking that compares keys lexicographically, the
pattern breaking ties (`Skeleton.ranksBefore_iff`). That ranking is total and transitive as a
preorder, so the sorted list is ordered by it.

## Main results

* `Skeleton.wellPlaced_of_mem_candidates`: every mined proposal is well placed;
* `Skeleton.infer_proposals_placed_and_ranked`: every inferred proposal is well placed, matches
  its source, lists exactly the matching traces in increasing order (its source among them), and
  compiles into a seed for every trace; the patterns are distinct and the list is ranked.
-/

namespace TraceSynth

namespace Proposal

/-- The blocks of a proposal lie where its region says, inside its source: the region ends
within the source, the then block follows the shared block and ends within the region, and in a
loop with a conditional the else block starts after the shared block, ends within the region,
and the two blocks are not both empty. -/
structure WellPlaced (p : Proposal) : Prop where
  region : p.start + p.length ≤ p.source.events.length
  thenPos : p.start + p.sharedLen = p.thenPos
  thenEnd : p.thenPos + p.thenLen ≤ p.start + p.length
  elsePos : p.branches = true → p.start + p.sharedLen ≤ p.elsePos
  elseEnd : p.branches = true → p.elsePos + p.elseLen ≤ p.start + p.length
  someBlock : p.branches = true → p.thenLen ≠ 0 ∨ p.elseLen ≠ 0

section Make

variable {source : Trace} {start length shared thenPos thenLen elsePos elseLen : Nat}
  {branches : Bool}

@[simp] theorem make_length :
    (make source start length shared thenPos thenLen elsePos elseLen branches).length = length :=
  rfl

@[simp] theorem make_sharedLen :
    (make source start length shared thenPos thenLen elsePos elseLen branches).sharedLen =
      shared :=
  rfl

@[simp] theorem make_thenPos :
    (make source start length shared thenPos thenLen elsePos elseLen branches).thenPos =
      thenPos :=
  rfl

@[simp] theorem make_thenLen :
    (make source start length shared thenPos thenLen elsePos elseLen branches).thenLen =
      thenLen :=
  rfl

@[simp] theorem make_elsePos :
    (make source start length shared thenPos thenLen elsePos elseLen branches).elsePos =
      elsePos :=
  rfl

@[simp] theorem make_elseLen :
    (make source start length shared thenPos thenLen elsePos elseLen branches).elseLen =
      elseLen :=
  rfl

end Make

@[simp] theorem size_tags (t : Trace) : t.tags.size = t.events.length := by
  simp [Trace.tags]

theorem occursAt_sliceTags {sk : Array Char} {a n : Nat} (h : a + n ≤ sk.size) :
    occursAt sk a (sliceTags sk a n) = true := by
  unfold occursAt
  rw [length_sliceTags h]
  simp [h, sliceTags]

end Proposal

namespace Skeleton

open Proposal

variable {sk : Array Char} {thn els : List Char}

/-- The copies of a block end inside the skeleton. -/
theorem repeats_end {fuel pos : Nat} (hpos : pos ≤ sk.size) :
    pos + repeats sk thn fuel pos * thn.length ≤ sk.size := by
  have hend : (alternate sk thn [] fuel pos).1 ≤ sk.size := (alternate_bounds fuel pos hpos).2
  rwa [alternate_nil] at hend

/-- A scan that passes the copies of the then block and finds the else block right after them
takes that else block: it ends past it. -/
theorem alternate_past_repeats : ∀ (fuel pos : Nat), repeats sk thn fuel pos < fuel →
    (els.length > 0 && occursAt sk (pos + repeats sk thn fuel pos * thn.length) els) = true →
    pos + repeats sk thn fuel pos * thn.length + els.length ≤ (alternate sk thn els fuel pos).1 := by
  intro fuel
  induction fuel with
  | zero => intro pos h; exact absurd h (Nat.not_lt_zero _)
  | succ fuel ih =>
    intro pos hfuel hels
    by_cases hthn : (thn.length > 0 && occursAt sk pos thn) = true
    · -- a copy of the then block: the scan takes it too, and both go on after it
      rw [repeats, if_pos hthn] at hfuel hels ⊢
      rw [alternate_then hthn]
      have hstep := ih (pos + thn.length) (by omega) (by rwa [Nat.add_mul, Nat.one_mul,
        ← Nat.add_assoc] at hels)
      rw [Nat.add_mul, Nat.one_mul, ← Nat.add_assoc]
      exact hstep
    · -- no copy left: the scan takes the else block here
      rw [repeats, if_neg hthn] at hels ⊢
      rw [Nat.zero_mul, Nat.add_zero] at hels ⊢
      rw [alternate_else hthn hels]
      exact (alternate_bounds fuel _ (occursAt_le (Bool.and_eq_true_iff.1 hels).2)).1

/-- A shared variant never shares both blocks whole. -/
theorem mem_sharedVariants_go_someBlock {t : Trace} {start len thenLen elsePos elseLen : Nat}
    {p : Proposal} : ∀ (fuel k₀ : Nat),
      p ∈ sharedVariants.go t start len thenLen elsePos elseLen thn els fuel k₀ →
      k₀ ≤ p.sharedLen ∧ p.sharedLen ≤ thenLen ∧ p.sharedLen ≤ elseLen ∧
        (p.sharedLen < thenLen ∨ p.sharedLen < elseLen)
  | 0, _, h => by simp [sharedVariants.go] at h
  | fuel + 1, k₀, h => by
    unfold sharedVariants.go at h
    split_ifs at h with hk hwhole
    · simp at h
    · simp only [Bool.and_eq_true, decide_eq_true_eq, beq_iff_eq] at hk hwhole
      rcases List.mem_cons.1 h with rfl | h
      · simp only [make_sharedLen]
        omega
      · have := mem_sharedVariants_go_someBlock fuel (k₀ + 1) h
        omega
    · simp at h

/-- What a mined proposal is: the copies of a block from a start, enough of them; or the scan of
a then block and the block after its copies, enough rounds, the two blocks possibly sharing up to
all but one of them their common leading tags. -/
theorem mem_candidates_cases {c : InferConfig} {t : Trace} {p : Proposal}
    (h : p ∈ candidates c t) :
    (∃ start thenLen, 0 < thenLen ∧ start + thenLen ≤ t.tags.size ∧
      c.minIterations.toNat ≤ repeats t.tags (sliceTags t.tags start thenLen) (t.tags.size + 1)
        start ∧
      p = make t start (repeats t.tags (sliceTags t.tags start thenLen) (t.tags.size + 1) start *
        thenLen) 0 start thenLen 0 0 false) ∨
    (∃ start thenLen elseLen k reps stop, 0 < thenLen ∧ start + thenLen ≤ t.tags.size ∧
      repeats t.tags (sliceTags t.tags start thenLen) (t.tags.size + 1) start = reps ∧
      0 < elseLen ∧ start + reps * thenLen + elseLen ≤ t.tags.size ∧
      (alternate t.tags (sliceTags t.tags start thenLen)
        (sliceTags t.tags (start + reps * thenLen) elseLen) (t.tags.size + 1) start).1 = stop ∧
      k ≤ thenLen ∧ k ≤ elseLen ∧ (k < thenLen ∨ k < elseLen) ∧
      p = make t start (stop - start) k (start + k) (thenLen - k) (start + reps * thenLen + k)
        (elseLen - k) true) := by
  simp only [candidates, List.mem_flatMap, List.mem_range, List.mem_append] at h
  obtain ⟨start, -, thenLen, hthenLen, hp⟩ := h
  have hthen : 0 < thenLen ∧ start + thenLen ≤ t.tags.size := by
    simp only [lengths, List.mem_map, List.mem_range] at hthenLen
    omega
  rcases hp with hplain | hbranch
  · -- a plain loop
    split_ifs at hplain with hreps
    · exact .inl ⟨start, thenLen, hthen.1, hthen.2, hreps, List.mem_singleton.1 hplain⟩
    · simp at hplain
  · -- a loop with a conditional, as scanned or sharing leading tags
    obtain ⟨elseLen, helseLen, hp⟩ := hbranch
    have helse : 0 < elseLen ∧ start + repeats t.tags (sliceTags t.tags start thenLen)
        (t.tags.size + 1) start * thenLen + elseLen ≤ t.tags.size := by
      simp only [lengths, List.mem_map, List.mem_range] at helseLen
      omega
    rcases hscan : alternate t.tags (sliceTags t.tags start thenLen)
      (sliceTags t.tags (start + repeats t.tags (sliceTags t.tags start thenLen) (t.tags.size + 1)
        start * thenLen) elseLen) (t.tags.size + 1) start with ⟨stop, iters⟩
    rw [hscan] at hp
    dsimp only at hp
    split_ifs at hp
    · simp at hp
    · simp at hp
    · refine .inr ⟨start, thenLen, elseLen, ?_⟩
      rcases List.mem_cons.1 hp with rfl | hshared
      · exact ⟨0, _, stop, hthen.1, hthen.2, rfl, helse.1, helse.2, by rw [hscan], by omega,
          by omega, by omega, rfl⟩
      · obtain ⟨k, -, hkt, hke, -, rfl⟩ := mem_sharedVariants_go _ _ hshared
        have hsome := mem_sharedVariants_go_someBlock _ _ hshared
        simp only [make_sharedLen] at hsome
        exact ⟨k, _, stop, hthen.1, hthen.2, rfl, helse.1, helse.2, by rw [hscan], hkt, hke,
          hsome.2.2.2, rfl⟩

/-- Every mined proposal is made from the trace it was mined from. -/
theorem exists_make_of_mem_candidates {c : InferConfig} {t : Trace} {p : Proposal}
    (h : p ∈ candidates c t) : ∃ start length shared thenPos thenLen elsePos elseLen branches,
      p = make t start length shared thenPos thenLen elsePos elseLen branches := by
  rcases mem_candidates_cases h with ⟨_, _, -, -, -, rfl⟩ | ⟨_, _, _, _, _, _, -, -, -, -, -, -,
    -, -, -, rfl⟩
  all_goals exact ⟨_, _, _, _, _, _, _, _, rfl⟩

/-- Every proposal mined with at least one round asked for lies where it says, inside its
source. -/
theorem wellPlaced_of_mem_candidates {c : InferConfig} {t : Trace} {p : Proposal}
    (hmin : 1 ≤ c.minIterations) (h : p ∈ candidates c t) : p.WellPlaced := by
  rcases mem_candidates_cases h with ⟨start, thenLen, hpos, hthen, hreps, rfl⟩ |
    ⟨start, thenLen, elseLen, k, reps, stop, hpos, hthen, hreps, helsePos, helse, hstop, hkt, hke,
      hsome, rfl⟩
  · -- the copies of the block end inside the skeleton, and there is at least one
    have hend : start + repeats t.tags (sliceTags t.tags start thenLen) (t.tags.size + 1) start *
        (sliceTags t.tags start thenLen).length ≤ t.tags.size := repeats_end (by omega)
    rw [length_sliceTags hthen] at hend
    have hone : thenLen ≤ repeats t.tags (sliceTags t.tags start thenLen) (t.tags.size + 1) start *
        thenLen := Nat.le_mul_of_pos_left _ (by omega)
    refine ⟨?_, ?_, ?_, fun h => absurd h (by simp), fun h => absurd h (by simp),
      fun h => absurd h (by simp)⟩ <;>
      simp only [make_source, make_start, make_length, make_sharedLen, make_thenPos,
        make_thenLen, ← size_tags] <;> omega
  · -- the scan takes the then block first and the else block right after the copies
    have hthnLen := length_sliceTags hthen
    have hthnTaken : ((sliceTags t.tags start thenLen).length > 0 &&
        occursAt t.tags start (sliceTags t.tags start thenLen)) = true := by
      simp [hthnLen, hpos, occursAt_sliceTags hthen]
    have hstopEnd : (alternate t.tags (sliceTags t.tags start thenLen)
        (sliceTags t.tags (start + reps * thenLen) elseLen) (t.tags.size + 1) start).1 ≤
        t.tags.size := (alternate_bounds _ _ (by omega)).2
    rw [hstop] at hstopEnd
    have hthenEnd : start + thenLen ≤ stop := by
      rw [← hstop, alternate_then hthnTaken, hthnLen]
      exact (alternate_bounds _ _ (by omega)).1
    have hrepsEnd : start + repeats t.tags (sliceTags t.tags start thenLen) (t.tags.size + 1)
        start * (sliceTags t.tags start thenLen).length ≤ t.tags.size := repeats_end (by omega)
    rw [hthnLen, hreps] at hrepsEnd
    have hrepsLt : reps < t.tags.size + 1 := by
      have : reps ≤ reps * thenLen := Nat.le_mul_of_pos_right _ hpos
      omega
    have helseEnd : start + reps * thenLen + elseLen ≤ stop := by
      have hpast : start + repeats t.tags (sliceTags t.tags start thenLen) (t.tags.size + 1)
          start * (sliceTags t.tags start thenLen).length +
          (sliceTags t.tags (start + reps * thenLen) elseLen).length ≤
          (alternate t.tags (sliceTags t.tags start thenLen)
            (sliceTags t.tags (start + reps * thenLen) elseLen) (t.tags.size + 1) start).1 :=
        alternate_past_repeats _ _ (by rwa [hreps]) (by
          rw [hreps, hthnLen, length_sliceTags helse, occursAt_sliceTags helse]
          simpa using helsePos)
      rwa [hreps, hthnLen, length_sliceTags helse, hstop] at hpast
    refine ⟨?_, ?_, ?_, fun _ => ?_, fun _ => ?_, fun _ => ?_⟩ <;>
      simp only [make_source, make_start, make_length, make_sharedLen, make_thenPos,
        make_thenLen, make_elsePos, make_elseLen, ← size_tags] <;> omega

/-- Every mined proposal's pattern matches the trace it was mined from. -/
theorem matches_source_of_mem_candidates {c : InferConfig} {t : Trace} {p : Proposal}
    (h : p ∈ candidates c t) : p.Matches p.source := by
  obtain ⟨_, _, _, _, _, _, _, _, hp⟩ := exists_make_of_mem_candidates h
  rw [matches_iff_numIterations_nonneg hp, (mem_candidates h).1]
  exact Int.natCast_nonneg _

/-! ### Sampling and keeping one proposal per pattern -/

theorem mem_of_mem_sample {traces : List Trace} {n : Nat} {t : Trace} (h : t ∈ sample traces n) :
    t ∈ traces := by
  unfold sample at h
  split_ifs at h
  · exact h
  · obtain ⟨i, -, hi⟩ := List.mem_filterMap.1 h
    exact List.mem_of_getElem? hi

/-- The fold behind `dedup` keeps its kept patterns as the patterns of its kept proposals, keeps
them distinct, and keeps only proposals it started with or met. -/
theorem dedup_fold : ∀ (ps : List Proposal) (acc : List Proposal × List String),
    acc.2 = acc.1.map Proposal.pattern → (acc.1.map Proposal.pattern).Nodup →
    let r := ps.foldl (fun (acc : List Proposal × List String) p =>
      if acc.2.contains p.pattern then acc else (p :: acc.1, p.pattern :: acc.2)) acc
    r.2 = r.1.map Proposal.pattern ∧ (r.1.map Proposal.pattern).Nodup ∧
      ∀ q ∈ r.1, q ∈ acc.1 ∨ q ∈ ps
  | [], acc, hkept, hnodup => ⟨hkept, hnodup, fun q hq => .inl hq⟩
  | p :: ps, acc, hkept, hnodup => by
    simp only [List.foldl_cons]
    split_ifs with hseen
    · obtain ⟨h₁, h₂, h₃⟩ := dedup_fold ps acc hkept hnodup
      exact ⟨h₁, h₂, fun q hq => (h₃ q hq).imp_right (List.mem_cons_of_mem p)⟩
    · -- a new pattern: keep the proposal
      rw [hkept, List.contains_iff_mem] at hseen
      obtain ⟨h₁, h₂, h₃⟩ := dedup_fold ps (p :: acc.1, p.pattern :: acc.2)
        (by simp [hkept]) (List.nodup_cons.2 ⟨hseen, hnodup⟩)
      refine ⟨h₁, h₂, fun q hq => ?_⟩
      rcases h₃ q hq with hq | hq
      · rcases List.mem_cons.1 hq with rfl | hq
        · exact .inr (List.mem_cons_self ..)
        · exact .inl hq
      · exact .inr (List.mem_cons_of_mem p hq)

theorem nodup_dedup (ps : List Proposal) : ((dedup ps).map Proposal.pattern).Nodup := by
  rw [dedup, List.map_reverse, List.nodup_reverse]
  exact (dedup_fold ps ([], []) rfl List.nodup_nil).2.1

theorem mem_of_mem_dedup {ps : List Proposal} {q : Proposal} (h : q ∈ dedup ps) : q ∈ ps := by
  rw [dedup, List.mem_reverse] at h
  exact ((dedup_fold ps ([], []) rfl List.nodup_nil).2.2 q h).resolve_left (by simp)

/-! ### The ranking -/

/-- Where a proposal ranks, its pattern apart: more traces explained first, then fewer
spelled-out events, then without a conditional, then the later start. -/
def rankKey (p : Proposal) : ℕᵒᵈ ×ₗ ℕ ×ₗ Bool ×ₗ ℕᵒᵈ :=
  toLex (OrderDual.toDual p.worksFor.length,
    toLex (p.numStmts, toLex (p.hasConditional, OrderDual.toDual p.start)))

/-- One proposal ranks before another when its key is smaller, or the keys tie and its pattern
comes first byte by byte. -/
theorem ranksBefore_iff {a b : Proposal} : ranksBefore a b = true ↔
    rankKey a < rankKey b ∨ (rankKey a = rankKey b ∧
      Bytes.ofString a.pattern < Bytes.ofString b.pattern) := by
  simp only [rankKey, Prod.Lex.toLex_lt_toLex, toLex_inj, Prod.mk.injEq,
    OrderDual.toDual_lt_toDual, OrderDual.toDual_inj]
  unfold ranksBefore
  split_ifs <;> simp_all
  -- the conditional flag: the loop without a conditional ranks first
  cases ha : a.hasConditional <;> cases hb : b.hasConditional <;> simp_all

/-- Of two proposals, one does not rank before the other. -/
theorem ranksBefore_total (a b : Proposal) : (!ranksBefore b a || !ranksBefore a b) = true := by
  rw [Bool.or_eq_true, Bool.not_eq_true', Bool.not_eq_true']
  by_contra h
  simp only [not_or, Bool.not_eq_false, ranksBefore_iff] at h
  obtain ⟨hba, hab⟩ := h
  rcases hba with hba | ⟨hkey, hba⟩ <;> rcases hab with hab | ⟨hkey', hab⟩
  · exact lt_asymm hba hab
  · exact hba.ne hkey'.symm
  · exact hab.ne hkey.symm
  · exact Bytes.lt_irrefl _ (Bytes.lt_trans hba hab)

/-- Not ranking before is transitive: if `b` does not rank before `a` nor `c` before `b`, then
`c` does not rank before `a`. -/
theorem ranksBefore_trans (a b c : Proposal) (hab : (!ranksBefore b a) = true)
    (hbc : (!ranksBefore c b) = true) : (!ranksBefore c a) = true := by
  rw [Bool.not_eq_true'] at hab hbc ⊢
  by_contra hca
  rw [Bool.not_eq_false, ranksBefore_iff] at hca
  have hba : ¬(rankKey b < rankKey a ∨ (rankKey b = rankKey a ∧
      Bytes.ofString b.pattern < Bytes.ofString a.pattern)) := by
    rw [← ranksBefore_iff, hab]; decide
  have hcb : ¬(rankKey c < rankKey b ∨ (rankKey c = rankKey b ∧
      Bytes.ofString c.pattern < Bytes.ofString b.pattern)) := by
    rw [← ranksBefore_iff, hbc]; decide
  simp only [not_or, not_and, not_lt] at hba hcb
  -- the keys of `a`, `b`, `c` rise, so with `c` below `a` they all tie
  have hkab := hba.1
  have hkbc := hcb.1
  rcases hca with hca | ⟨hkca, hpca⟩
  · exact absurd (hkab.trans hkbc) (not_le.2 hca)
  · have hkba : rankKey a = rankKey b := le_antisymm hkab (hkca ▸ hkbc)
    have hkcb : rankKey b = rankKey c := le_antisymm hkbc (hkca ▸ hkab)
    have hpba := hba.2 hkba.symm
    have hpcb := hcb.2 hkcb.symm
    -- byte strings: `c` before `a`, `a` not after `b`, `b` not after `c`
    by_cases hpab : Bytes.ofString a.pattern < Bytes.ofString b.pattern
    · exact hpcb (Bytes.lt_trans hpca hpab)
    · rw [Bytes.eq_of_not_lt hpab hpba] at hpca
      exact hpcb hpca

/-! ### Inference -/

/-- An inferred proposal is a mined one with the traces it explains. -/
theorem mem_infer {c : InferConfig} {traces : List Trace} {p : Proposal}
    (h : p ∈ infer c traces) : ∃ t ∈ traces, ∃ q ∈ candidates c.clamp t,
      p = { q with worksFor := (traces.zipIdx.filter fun (t, _) => q.fits t).map (·.2) } := by
  simp only [infer, mem_sortStable, List.mem_map] at h
  obtain ⟨q, hq, rfl⟩ := h
  obtain ⟨t, ht, hqt⟩ := List.mem_flatMap.1 (mem_of_mem_dedup hq)
  exact ⟨t, mem_of_mem_sample ht, q, hqt, rfl⟩

/-- The traces whose indices a proposal lists: in increasing order, exactly those that fit. -/
theorem worksFor_fits (traces : List Trace) (f : Trace → Bool) :
    ((traces.zipIdx.filter fun (t, _) => f t).map (·.2)).Pairwise (· < ·) ∧
      ∀ i, i ∈ (traces.zipIdx.filter fun (t, _) => f t).map (·.2) ↔
        ∃ t, traces[i]? = some t ∧ f t = true := by
  refine ⟨?_, fun i => ?_⟩
  · have hsub := (List.filter_sublist (p := fun (x : Trace × Nat) => f x.1)
      (l := traces.zipIdx)).map Prod.snd
    rw [List.zipIdx_map_snd] at hsub
    exact List.Pairwise.sublist hsub List.pairwise_lt_range'
  · simp only [List.mem_map, List.mem_filter, List.mem_zipIdx_iff_getElem?]
    constructor
    · rintro ⟨⟨t, j⟩, ⟨ht, hf⟩, rfl⟩
      exact ⟨t, ht, hf⟩
    · rintro ⟨t, ht, hf⟩
      exact ⟨(t, i), ⟨ht, hf⟩, rfl⟩

/-- A seed compiles from every trace with a proposal whose region lies inside its source. -/
theorem compile_ok {p : Proposal} (h : p.start + p.length ≤ p.source.events.length) (t : Trace) :
    ∃ prog, t.compile (some p) = .ok prog := by
  unfold Trace.compile
  simp only [bind, Except.bind, pure, Except.pure, if_neg (Nat.not_lt.2 h)]
  exact ⟨_, rfl⟩

/-- Inferred proposals are well formed and ranked. Every proposal inference returns lies where it
says inside its source, its pattern matches its source, it lists exactly the indices of the
traces its pattern matches, in increasing order, its source's among them, and a seed compiles
from it for every trace. The patterns are pairwise distinct, and no proposal ranks before one
listed earlier: more traces explained first, then fewer spelled-out events, then without a
conditional, then the later start, then the pattern. -/
theorem infer_proposals_placed_and_ranked (c : InferConfig) (traces : List Trace) :
    (∀ p ∈ infer c traces, p.WellPlaced ∧ p.Matches p.source ∧
      (∃ i ∈ p.worksFor, traces[i]? = some p.source) ∧ p.worksFor.Pairwise (· < ·) ∧
      (∀ i, i ∈ p.worksFor ↔ ∃ t, traces[i]? = some t ∧ p.Matches t) ∧
      ∀ t : Trace, ∃ prog, t.compile (some p) = .ok prog) ∧
    ((infer c traces).map Proposal.pattern).Nodup ∧
    (infer c traces).Pairwise fun a b => ranksBefore b a = false := by
  refine ⟨fun p hp => ?_, ?_, ?_⟩
  · obtain ⟨t, ht, q, hq, rfl⟩ := mem_infer hp
    -- inference asks for at least two rounds
    have hmin : 1 ≤ c.clamp.minIterations := by
      simp only [InferConfig.clamp]
      split <;> omega
    have hplaced := wellPlaced_of_mem_candidates hmin hq
    have hsource : q.source = t := by
      obtain ⟨_, _, _, _, _, _, _, _, rfl⟩ := exists_make_of_mem_candidates hq
      rfl
    obtain ⟨_, _, _, _, _, _, _, _, hmake⟩ := exists_make_of_mem_candidates hq
    have hfits : ∀ s, q.Matches s ↔ q.fits s = true := fun s => by
      rw [matches_iff_numIterations_nonneg hmake, Proposal.fits, decide_eq_true_iff]
    obtain ⟨hsorted, hmem⟩ := worksFor_fits traces q.fits
    obtain ⟨i, hi⟩ := List.mem_iff_getElem?.1 ht
    have hmatch : q.Matches q.source := matches_source_of_mem_candidates hq
    refine ⟨⟨hplaced.region, hplaced.thenPos, hplaced.thenEnd, hplaced.elsePos, hplaced.elseEnd,
      hplaced.someBlock⟩, hmatch, ⟨i, ?_, ?_⟩, hsorted, fun j => ?_, compile_ok hplaced.region⟩
    · exact (hmem i).2 ⟨t, hi, (hfits t).1 (hsource ▸ hmatch)⟩
    · exact hi.trans (congrArg some hsource.symm)
    · rw [hmem j]
      exact exists_congr fun s => and_congr_right fun _ => (hfits s).symm
  · -- sorting permutes the kept proposals, whose patterns are distinct
    rw [infer, ((sortStable_perm _ _).map _).nodup_iff, List.map_map]
    exact nodup_dedup _
  · rw [infer, sortStable_eq_mergeSort _ ranksBefore_trans ranksBefore_total]
    have hsorted := List.pairwise_mergeSort ranksBefore_trans ranksBefore_total
      ((dedup ((sample traces c.clamp.maxSamples.toNat).flatMap (candidates c.clamp))).map
        fun p => { p with worksFor := (traces.zipIdx.filter fun (t, _) => p.fits t).map (·.2) })
    exact hsorted.imp fun h => by simpa using h

/-- From a trace of two deletions, inference with two rounds asked for proposes a loop that lies
inside the trace, matches it, and lists it. -/
theorem infer_proposals_placed_and_ranked_two_deletes :
    let t : Trace := { events := [.delete (.const .undefined) (.const .undefined),
      .delete (.const .undefined) (.const .undefined)] }
    ∃ p ∈ infer { minIterations := 2 } [t], p.WellPlaced ∧ p.Matches p.source ∧ 0 ∈ p.worksFor := by
  intro t
  have hne : infer { minIterations := 2 } [t] ≠ [] := by
    rw [ne_eq, ← List.length_eq_zero_iff, infer, length_sortStable, List.length_map]
    decide +kernel
  obtain ⟨p, hp⟩ := List.exists_mem_of_ne_nil _ hne
  obtain ⟨hplaced, hmatch, ⟨i, hi, hsrc⟩, -⟩ :=
    (infer_proposals_placed_and_ranked { minIterations := 2 } [t]).1 p hp
  -- the one trace is the source, at index zero
  have hi0 : i = 0 := by
    rcases i with _ | i
    · rfl
    · simp at hsrc
  exact ⟨p, hp, hplaced, hmatch, hi0 ▸ hi⟩

end Skeleton

end TraceSynth
