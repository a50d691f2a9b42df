import TraceSynth.Proofs.Inference.Rounds
import TraceSynth.Inference.Skeleton

/-!
# Rounds of the mined proposals

The proposals mined from a trace come from greedy scans of its skeleton: `Skeleton.repeats`
counts copies of a block, and `Skeleton.alternate` consumes then or else blocks, then first.
The table of `Proposal.roundCounts` follows the path such a scan took: wherever the scan took
a block, the block lies within the scanned region and the rest of the region splits, so the table
takes the same block (`roundCounts_alternate`). So the count a mined proposal gives its own source
trace is the number of rounds its scan read (`numIterations_source`), and the mining keeps only
scans of at least `minIterations` rounds, which the configuration in use raises to at least two.

## Main results

* `Proposal.numIterations_counts_rounds`: for every proposal made from a trace, the count of a
  trace is non-negative exactly when its skeleton matches the pattern, and a count `n` splits the
  skeleton into the fixed prefix, `n` rounds and the fixed suffix; for every mined proposal, the
  count of its source is the number of rounds its scan read, at least `minIterations` and two.
-/

namespace TraceSynth

namespace Proposal

/-- Within a region of the skeleton, a block occurs where it occurs in the skeleton and ends
inside the region. -/
theorem occursAt_extract {sk : Array Char} {start stop pos : Nat} {alt : List Char}
    (hne : alt ≠ []) (hpos : start ≤ pos) :
    occursAt (sk.extract start stop) (pos - start) alt = true ↔
      occursAt sk pos alt = true ∧ pos + alt.length ≤ stop := by
  have hlen := List.length_pos_of_ne_nil hne
  rw [occursAt_iff hne, occursAt_iff hne, Array.toList_extract, List.extract_eq_take_drop,
    List.drop_take, List.drop_drop, List.prefix_take_iff,
    show start + (pos - start) = pos by omega]
  constructor
  · rintro ⟨h, hle⟩
    exact ⟨h, by omega⟩
  · rintro ⟨h, hle⟩
    exact ⟨h, by omega⟩

theorem occursAt_le {sk : Array Char} {pos : Nat} {alt : List Char}
    (h : occursAt sk pos alt = true) : pos + alt.length ≤ sk.size := by
  simp only [occursAt, Bool.and_eq_true, decide_eq_true_eq] at h
  exact h.1

end Proposal

namespace Skeleton

open Proposal

variable {sk : Array Char} {thn els : List Char}

theorem alternate_then {fuel pos : Nat} (h : (thn.length > 0 && occursAt sk pos thn) = true) :
    alternate sk thn els (fuel + 1) pos = ((alternate sk thn els fuel (pos + thn.length)).1,
      (alternate sk thn els fuel (pos + thn.length)).2 + 1) := by
  rw [alternate, if_pos h]

theorem alternate_else {fuel pos : Nat} (hthn : ¬(thn.length > 0 && occursAt sk pos thn) = true)
    (h : (els.length > 0 && occursAt sk pos els) = true) :
    alternate sk thn els (fuel + 1) pos = ((alternate sk thn els fuel (pos + els.length)).1,
      (alternate sk thn els fuel (pos + els.length)).2 + 1) := by
  rw [alternate, if_neg hthn, if_pos h]

theorem alternate_stop {fuel pos : Nat} (hthn : ¬(thn.length > 0 && occursAt sk pos thn) = true)
    (hels : ¬(els.length > 0 && occursAt sk pos els) = true) :
    alternate sk thn els (fuel + 1) pos = (pos, 0) := by
  rw [alternate, if_neg hthn, if_neg hels]

/-- The scan ends after its start and within the skeleton. -/
theorem alternate_bounds : ∀ (fuel pos : Nat), pos ≤ sk.size →
    pos ≤ (alternate sk thn els fuel pos).1 ∧ (alternate sk thn els fuel pos).1 ≤ sk.size := by
  intro fuel
  induction fuel with
  | zero => intro pos hpos; exact ⟨le_rfl, hpos⟩
  | succ fuel ih =>
    intro pos hpos
    by_cases hthn : (thn.length > 0 && occursAt sk pos thn) = true
    · have hle := occursAt_le (Bool.and_eq_true_iff.1 hthn).2
      have := ih (pos + thn.length) hle
      rw [alternate_then hthn]
      exact ⟨by omega, this.2⟩
    · by_cases hels : (els.length > 0 && occursAt sk pos els) = true
      · have hle := occursAt_le (Bool.and_eq_true_iff.1 hels).2
        have := ih (pos + els.length) hle
        rw [alternate_else hthn hels]
        exact ⟨by omega, this.2⟩
      · rw [alternate_stop hthn hels]
        exact ⟨le_rfl, hpos⟩

/-- Copies of one block are the scan with no else block: the scan ends after the copies. -/
theorem alternate_nil : ∀ (fuel pos : Nat), alternate sk thn [] fuel pos =
    (pos + repeats sk thn fuel pos * thn.length, repeats sk thn fuel pos) := by
  intro fuel
  induction fuel with
  | zero => intro pos; simp [alternate, repeats]
  | succ fuel ih =>
    intro pos
    by_cases hthn : (thn.length > 0 && occursAt sk pos thn) = true
    · rw [alternate_then hthn, ih, repeats, if_pos hthn, Nat.add_mul, Nat.one_mul]
      simp only [Prod.mk.injEq]
      omega
    · rw [alternate_stop hthn (by simp), repeats, if_neg hthn]
      simp

/-- A block the scan takes is non-empty and starts where the scan stands. -/
theorem taken_block {a : List Char} {pos : Nat} (h : (a.length > 0 && occursAt sk pos a) = true) :
    a ≠ [] ∧ occursAt sk pos a = true := by
  obtain ⟨hlen, hocc⟩ := Bool.and_eq_true_iff.1 h
  exact ⟨List.ne_nil_of_length_pos (by simpa using hlen), hocc⟩

/-- The table of the scanned region follows the scan: at each position the scan reached, the
table's count is the number of blocks the scan took from there. Where the scan took the then
block, the table takes it too, since the rest of the region splits; where it took the else block,
the then block did not start there in the skeleton, so not in the region either. -/
theorem roundCounts_alternate {start stop : Nat} (hstop : stop ≤ sk.size) :
    ∀ (fuel pos : Nat), start ≤ pos → (alternate sk thn els fuel pos).1 = stop →
      (roundCounts [thn, els] (sk.extract start stop)).getD (pos - start) (-1) =
        (alternate sk thn els fuel pos).2 := by
  have hsize : (sk.extract start stop).size = stop - start := by
    simp [Array.size_extract, Nat.min_eq_left hstop]
  -- a block taken at `pos` lies in the region, and the table after it is the scan's count
  have hblock : ∀ {a : List Char} {pos : Nat}, start ≤ pos → a ≠ [] → occursAt sk pos a = true →
      pos + a.length ≤ stop → occursAt (sk.extract start stop) (pos - start) a = true ∧
        pos - start < (sk.extract start stop).size := fun hpos hne hocc hend =>
    ⟨(occursAt_extract hne hpos).2 ⟨hocc, hend⟩, by
      have := List.length_pos_of_ne_nil hne
      omega⟩
  intro fuel
  induction fuel with
  | zero =>
    intro pos _ hend
    simp only [alternate] at hend ⊢
    subst hend
    rw [← hsize, roundCounts_last]
    rfl
  | succ fuel ih =>
    intro pos hpos hend
    by_cases hthn : (thn.length > 0 && occursAt sk pos thn) = true
    · -- the scan takes the then block
      rw [alternate_then hthn] at hend ⊢
      obtain ⟨hne, hocc⟩ := taken_block hthn
      have hreach : pos + thn.length ≤ (alternate sk thn els fuel (pos + thn.length)).1 :=
        (alternate_bounds fuel _ (occursAt_le hocc)).1
      obtain ⟨hin, hlt⟩ := hblock hpos hne hocc (by dsimp only at hend; omega)
      rw [roundCounts_settled hlt, roundAt_cons_take hne hin (by
        rw [show pos - start + thn.length = pos + thn.length - start by omega]
        exact ih _ (by omega) hend)]
      rfl
    · by_cases hels : (els.length > 0 && occursAt sk pos els) = true
      · -- the scan takes the else block: the then block does not start here
        rw [alternate_else hthn hels] at hend ⊢
        obtain ⟨hne, hocc⟩ := taken_block hels
        have hreach : pos + els.length ≤ (alternate sk thn els fuel (pos + els.length)).1 :=
          (alternate_bounds fuel _ (occursAt_le hocc)).1
        obtain ⟨hin, hlt⟩ := hblock hpos hne hocc (by dsimp only at hend; omega)
        have hout : ¬(thn.length > 0 && occursAt (sk.extract start stop) (pos - start) thn) =
            true := by
          intro htaken
          obtain ⟨hne', hocc'⟩ := taken_block htaken
          exact hthn (Bool.and_eq_true_iff.2 ⟨(Bool.and_eq_true_iff.1 htaken).1,
            ((occursAt_extract hne' hpos).1 hocc').1⟩)
        rw [roundCounts_settled hlt, roundAt_cons_skip hout, roundAt_cons_take hne hin (by
          rw [show pos - start + els.length = pos + els.length - start by omega]
          exact ih _ (by omega) hend)]
        rfl
      · -- the scan stops: the region ends here
        rw [alternate_stop hthn hels] at hend ⊢
        subst hend
        rw [← hsize, roundCounts_last]
        rfl

/-- The proposals sharing leading tags of the two blocks: each shares `k` tags, at least `k₀`,
that the two blocks agree on from position `k₀ - 1`, and keeps the rest of each block. -/
theorem mem_sharedVariants_go {t : Trace} {start len thenLen elsePos elseLen : Nat}
    {p : Proposal} : ∀ (fuel k₀ : Nat),
      p ∈ sharedVariants.go t start len thenLen elsePos elseLen thn els fuel k₀ →
      ∃ k, k₀ ≤ k ∧ k ≤ thenLen ∧ k ≤ elseLen ∧ (∀ j, k₀ ≤ j + 1 → j < k → thn[j]? = els[j]?) ∧
        p = make t start len k (start + k) (thenLen - k) (elsePos + k) (elseLen - k) true := by
  intro fuel
  induction fuel with
  | zero => intro k₀ h; simp [sharedVariants.go] at h
  | succ fuel ih =>
    intro k₀ h
    unfold sharedVariants.go at h
    by_cases hk : (k₀ ≤ thenLen && k₀ ≤ elseLen && thn[k₀ - 1]? == els[k₀ - 1]?) = true
    · simp only [Bool.and_eq_true, decide_eq_true_eq, beq_iff_eq] at hk
      obtain ⟨⟨hthen, helse⟩, hagree⟩ := hk
      rw [if_pos (by simp [hthen, helse, hagree])] at h
      split at h
      · simp at h
      · rcases List.mem_cons.1 h with rfl | h
        · refine ⟨k₀, le_rfl, hthen, helse, fun j hj hjk => ?_, rfl⟩
          rw [show j = k₀ - 1 by omega]
          exact hagree
        · -- a later variant: the blocks also agree at `k₀ - 1`
          obtain ⟨k, hk, hkt, hke, hall, rfl⟩ := ih (k₀ + 1) h
          refine ⟨k, by omega, hkt, hke, fun j hj hjk => ?_, rfl⟩
          rcases Nat.lt_or_ge (j + 1) (k₀ + 1) with hlt | hge
          · rw [show j = k₀ - 1 by omega]
            exact hagree
          · exact hall j hge hjk
    · rw [if_neg hk] at h
      simp at h

end Skeleton

namespace Proposal

open Skeleton

/-- The rounds the greedy scan of the source reads from the proposal's start: copies of the
round for a plain loop, then-or-else rounds, then first, for a loop with a conditional. -/
def scannedRounds (p : Proposal) : Nat :=
  if p.branches then
    (alternate p.source.tags (p.sharedTags ++ p.thenTags) (p.sharedTags ++ p.elseTags)
      (p.source.tags.size + 1) p.start).2
  else repeats p.source.tags (p.sharedTags ++ p.thenTags) (p.source.tags.size + 1) p.start

section Slices

variable {sk : Array Char}

theorem sliceTags_append {a k n : Nat} (hk : k ≤ n) :
    sliceTags sk a k ++ sliceTags sk (a + k) (n - k) = sliceTags sk a n := by
  simp only [sliceTags, Array.toList_extract, List.extract_eq_take_drop, Nat.add_sub_cancel_left]
  conv_rhs => rw [show n = k + (n - k) by omega, List.take_add, List.drop_drop]

theorem length_sliceTags {a n : Nat} (h : a + n ≤ sk.size) : (sliceTags sk a n).length = n := by
  simp [sliceTags]
  omega

theorem take_sliceTags {a k n : Nat} (hk : k ≤ n) :
    (sliceTags sk a n).take k = sliceTags sk a k := by
  simp only [sliceTags, Array.toList_extract, List.extract_eq_take_drop, Nat.add_sub_cancel_left,
    List.take_take, Nat.min_eq_left hk]

/-- A skeleton is its tags before a region, the region and its tags after. -/
theorem toList_eq_around {start stop : Nat} (hle : start ≤ stop) :
    sk.toList = sliceTags sk 0 start ++ (sk.extract start stop).toList ++
      (sk.extract stop sk.size).toList := by
  have hl : sk.toList.length = sk.size := Array.length_toList
  conv_lhs => rw [← List.take_append_drop start sk.toList,
    ← List.take_append_drop (stop - start) (sk.toList.drop start), List.drop_drop,
    show start + (stop - start) = stop by omega]
  simp [sliceTags, Array.toList_extract, List.extract_eq_take_drop, hl]

end Slices

/-- A proposal whose prefix and suffix cut its source around the region a scan covered, and
whose table is that of the scan's blocks, counts its source by the rounds of the scan. -/
theorem numIterations_source {q : Proposal} {thn els : List Char} {fuel : Nat}
    (hstart : q.start ≤ q.source.tags.size)
    (hpre : q.preTags = sliceTags q.source.tags 0 q.start)
    (hpost : q.postTags = (q.source.tags.extract
      (alternate q.source.tags thn els fuel q.start).1 q.source.tags.size).toList)
    (halts : ∀ body, roundCounts q.alternatives body = roundCounts [thn, els] body) :
    q.numIterations q.source = (alternate q.source.tags thn els fuel q.start).2 := by
  obtain ⟨hle, hstop⟩ := alternate_bounds fuel q.start hstart
  have hsplit : q.source.tags.toList = q.preTags ++ (q.source.tags.extract q.start
      (alternate q.source.tags thn els fuel q.start).1).toList ++ q.postTags := by
    rw [hpre, hpost]
    exact toList_eq_around hle
  rw [numIterations, iterationsIn_of_split hsplit, halts]
  have hscan := roundCounts_alternate hstop fuel q.start le_rfl rfl
  rwa [Nat.sub_self] at hscan

/-- A plain loop counts its source by the copies of its block. -/
theorem numIterations_plain {t : Trace} {start thenLen reps : Nat} {q : Proposal}
    (hlen : start + thenLen ≤ t.tags.size)
    (hreps : repeats t.tags (sliceTags t.tags start thenLen) (t.tags.size + 1) start = reps)
    (hq : q = make t start (reps * thenLen) 0 start thenLen 0 0 false) :
    q.numIterations q.source = q.scannedRounds ∧ q.scannedRounds = reps := by
  have hnone : sliceTags t.tags start 0 = [] := by simp [sliceTags]
  have hsrc : q.source = t := by rw [hq, make_source]
  have hstart : q.start = start := by rw [hq, make_start]
  have hscanned : q.scannedRounds = reps := by
    rw [hq, ← hreps]
    simp [scannedRounds, hnone]
  -- the plain loop is the scan with no else block, whose table ignores the empty block
  have hend : alternate t.tags (sliceTags t.tags start thenLen) [] (t.tags.size + 1) start =
      (start + reps * thenLen, reps) := by
    rw [alternate_nil, length_sliceTags hlen, hreps]
  have hcount : q.numIterations q.source = (alternate q.source.tags
      (sliceTags t.tags start thenLen) [] (q.source.tags.size + 1) q.start).2 :=
    numIterations_source (by rw [hsrc, hstart]; omega) (by rw [hq, make_preTags, make_start, make_source])
      (by rw [hsrc, hstart, hend, hq, make_postTags])
      (fun body => by
        rw [hq, ← roundCounts_append_nil]
        simp [alternatives, hnone])
  rw [hcount, hsrc, hstart, hend, hscanned]
  exact ⟨rfl, rfl⟩

/-- A loop with a conditional counts its source by the rounds of its scan, whatever the leading
tags its two blocks share. -/
theorem numIterations_branch {t : Trace} {start thenLen elsePos elseLen k stop iters : Nat}
    {q : Proposal} (hstart : start ≤ t.tags.size)
    (hscan : alternate t.tags (sliceTags t.tags start thenLen) (sliceTags t.tags elsePos elseLen)
      (t.tags.size + 1) start = (stop, iters))
    (hk : k ≤ thenLen) (hk' : k ≤ elseLen)
    (hshare : sliceTags t.tags start k = sliceTags t.tags elsePos k)
    (hq : q = make t start (stop - start) k (start + k) (thenLen - k) (elsePos + k) (elseLen - k)
      true) :
    q.numIterations q.source = q.scannedRounds ∧ q.scannedRounds = iters := by
  -- shared tags and the rest of each block make the two whole blocks the scan consumed
  have hthen : q.sharedTags ++ q.thenTags = sliceTags t.tags start thenLen := by
    rw [hq, make_sharedTags, make_thenTags, sliceTags_append hk]
  have helse : q.sharedTags ++ q.elseTags = sliceTags t.tags elsePos elseLen := by
    rw [hq, make_sharedTags, make_elseTags, if_pos rfl, hshare, sliceTags_append hk']
  have hbranches : q.branches = true := by rw [hq, make_branches]
  have hsrc : q.source = t := by rw [hq, make_source]
  have hstart' : q.start = start := by rw [hq, make_start]
  have hstop : start ≤ stop := by
    have hb : start ≤ (alternate t.tags (sliceTags t.tags start thenLen)
        (sliceTags t.tags elsePos elseLen) (t.tags.size + 1) start).1 :=
      (alternate_bounds _ _ hstart).1
    rwa [hscan] at hb
  have hscanned : q.scannedRounds = iters := by
    rw [scannedRounds, if_pos hbranches, hthen, helse, hsrc, hstart', hscan]
  have halts : q.alternatives =
      [sliceTags t.tags start thenLen, sliceTags t.tags elsePos elseLen] := by
    rw [alternatives, hthen, helse, hbranches]
    rfl
  have hcount : q.numIterations q.source = (alternate q.source.tags
      (sliceTags t.tags start thenLen) (sliceTags t.tags elsePos elseLen)
      (q.source.tags.size + 1) q.start).2 :=
    numIterations_source (by rw [hsrc, hstart']; exact hstart)
      (by rw [hq, make_preTags, make_start, make_source])
      (by rw [hsrc, hstart', hscan, hq, make_postTags, Nat.add_sub_cancel' hstop])
      (fun body => by rw [halts])
  rw [hcount, hsrc, hstart', hscan, hscanned]
  exact ⟨rfl, rfl⟩

/-- Every proposal mined from a trace counts its source by the rounds of its scan, and the
mining keeps only scans of at least `minIterations` rounds. -/
theorem mem_candidates {c : InferConfig} {t : Trace} {p : Proposal}
    (h : p ∈ candidates c t) :
    p.numIterations p.source = p.scannedRounds ∧ c.minIterations.toNat ≤ p.scannedRounds := by
  simp only [candidates, List.mem_flatMap, List.mem_range, List.mem_append] at h
  obtain ⟨start, hstart, thenLen, hthenLen, hp⟩ := h
  have hthenLen' : 0 < thenLen ∧ start + thenLen ≤ t.tags.size := by
    simp only [lengths, List.mem_map, List.mem_range] at hthenLen
    omega
  rcases hp with hplain | hbranch
  · -- a plain loop: enough copies of the block
    split_ifs at hplain with hreps
    · rcases List.mem_singleton.1 hplain with rfl
      obtain ⟨hcount, hscanned⟩ := numIterations_plain hthenLen'.2 rfl rfl
      exact ⟨hcount, hscanned ▸ hreps⟩
    · simp at hplain
  · -- a loop with a conditional: the scan reaches past the copies with enough rounds
    obtain ⟨elseLen, -, hp⟩ := hbranch
    rcases hscan : alternate t.tags (sliceTags t.tags start thenLen)
      (sliceTags t.tags (start + repeats t.tags (sliceTags t.tags start thenLen) (t.tags.size + 1)
        start * thenLen) elseLen) (t.tags.size + 1) start with ⟨stop, iters⟩
    rw [hscan] at hp
    dsimp only at hp
    split_ifs at hp with hcut hfit
    · simp at hp
    · simp at hp
    · simp only [Bool.or_eq_true, decide_eq_true_eq, not_or, not_lt] at hcut
      have hstart' : start ≤ t.tags.size := by omega
      rcases List.mem_cons.1 hp with rfl | hshared
      · -- the loop as scanned, with nothing shared
        obtain ⟨hcount, hscanned⟩ := numIterations_branch hstart' hscan (Nat.zero_le _)
          (Nat.zero_le _) (by simp [sliceTags]) rfl
        exact ⟨hcount, hscanned ▸ hcut.1⟩
      · -- a variant sharing the blocks' common leading tags
        obtain ⟨k, hk1, hkt, hke, hagree, rfl⟩ := mem_sharedVariants_go _ _ hshared
        have hshare : sliceTags t.tags start k = sliceTags t.tags
            (start + repeats t.tags (sliceTags t.tags start thenLen) (t.tags.size + 1) start *
              thenLen) k := by
          rw [← take_sliceTags hkt, ← take_sliceTags hke]
          apply List.ext_getElem?
          intro j
          simp only [List.getElem?_take]
          split_ifs with hj
          · exact hagree j (by omega) hj
          · rfl
        obtain ⟨hcount, hscanned⟩ := numIterations_branch hstart' hscan hkt hke hshare rfl
        exact ⟨hcount, hscanned ▸ hcut.1⟩

/-- For every proposal made from a trace, a trace's count is non-negative exactly when its
skeleton matches the proposal's pattern, and a count `n` splits the skeleton into the fixed
prefix, `n` non-empty rounds, each the shared block followed by the then block or, in a loop with
a conditional, by the else block, and the fixed suffix. Every proposal the mining keeps counts its
own source by the rounds its greedy scan read: at least the configured `minIterations`, and at
least two. -/
theorem numIterations_counts_rounds :
    (∀ (source : Trace) (start length shared thenPos thenLen elsePos elseLen : Nat)
        (branches : Bool) (t : Trace),
      let p := make source start length shared thenPos thenLen elsePos elseLen branches
      (p.Matches t ↔ 0 ≤ p.numIterations t) ∧
        ∀ n : Nat, p.numIterations t = n → ∃ blocks : List (List Char), blocks.length = n ∧
          t.tags.toList = p.preTags ++ blocks.flatten ++ p.postTags ∧
          ∀ b ∈ blocks, b ≠ [] ∧ (b = p.sharedTags ++ p.thenTags ∨
            (p.branches = true ∧ b = p.sharedTags ++ p.elseTags))) ∧
    ∀ (c : InferConfig) (t : Trace) (p : Proposal), p ∈ candidates c.clamp t →
      p.numIterations p.source = p.scannedRounds ∧ c.clamp.minIterations ≤ p.scannedRounds ∧
        2 ≤ p.scannedRounds := by
  refine ⟨fun source start length shared thenPos thenLen elsePos elseLen branches t => ?_,
    fun c t p hp => ?_⟩
  · intro p
    refine ⟨matches_iff_numIterations_nonneg rfl t, fun n hn => ?_⟩
    obtain ⟨m, hsk, htiled⟩ := split_of_iterationsIn hn
    obtain ⟨blocks, hlen, hall, rfl⟩ := Tiled.iff_blocks.1 htiled
    exact ⟨blocks, hlen, hsk, fun b hb => ⟨(hall b hb).2, mem_alternatives.1 (hall b hb).1⟩⟩
  · obtain ⟨hcount, hmin⟩ := mem_candidates hp
    -- the configuration in use asks for at least two rounds
    have hclamp : 2 ≤ c.clamp.minIterations := by
      simp only [InferConfig.clamp]
      split <;> omega
    refine ⟨hcount, ?_, ?_⟩ <;> omega

/-- A trace of two deletions counts two rounds of the one-deletion loop over it, and the mining
keeps a loop that counts the trace by at least two rounds. -/
theorem numIterations_counts_rounds_two_deletes :
    let t : Trace := { events := [.delete (.const .undefined) (.const .undefined),
      .delete (.const .undefined) (.const .undefined)] }
    (∃ blocks : List (List Char), blocks.length = 2 ∧ t.tags.toList =
      (make t 0 2 0 0 1 0 0 false).preTags ++ blocks.flatten ++
        (make t 0 2 0 0 1 0 0 false).postTags) ∧
    ∃ p ∈ candidates ({ minIterations := 2 } : InferConfig).clamp t,
      p.numIterations p.source = p.scannedRounds ∧ 2 ≤ p.scannedRounds := by
  intro t
  have htwo : (make t 0 2 0 0 1 0 0 false).numIterations t = ((2 : Nat) : Int) := by
    decide +kernel
  obtain ⟨blocks, hlen, hsk, -⟩ := (numIterations_counts_rounds.1 t 0 2 0 0 1 0 0 false t).2 2 htwo
  have hmined : (candidates ({ minIterations := 2 } : InferConfig).clamp t).isEmpty = false := by
    decide +kernel
  obtain ⟨p, hp⟩ := List.exists_mem_of_ne_nil _ (List.isEmpty_eq_false_iff.1 hmined)
  obtain ⟨hcount, -, hround⟩ := numIterations_counts_rounds.2 _ t p hp
  exact ⟨⟨blocks, hlen, hsk⟩, p, hp, hcount, hround⟩

end Proposal

end TraceSynth
