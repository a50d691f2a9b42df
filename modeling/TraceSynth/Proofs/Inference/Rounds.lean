import TraceSynth.Proofs.Inference.Pattern

/-!
# Round counts

`Proposal.roundCounts` fills a table from the end of a loop body: the entry at a position is the
number of rounds the rest of the body splits into from there, or `-1` if it does not split. One
step of the fold settles one position from the settled positions after it (`roundAt`), so after
the whole fold every entry obeys that recurrence (`roundCounts_settled`). From the recurrence,
an entry `n ≥ 0` means the rest splits into `n` rounds (`tiled_of_roundCounts`), and an entry is
non-negative whenever the rest splits at all (`roundCounts_nonneg_of_tiled`).

A proposal counts the rounds of a skeleton that is its fixed prefix, a body and its fixed suffix
by the table of that body, and gives `-1` to every other skeleton. So the count is non-negative
exactly when the skeleton matches the proposal's pattern (`matches_iff_numIterations_nonneg`),
and a count `n` splits the skeleton into the prefix, `n` rounds and the suffix
(`split_of_iterationsIn`).
-/

namespace TraceSynth

/-- `w` splits into `n` rounds, each a non-empty one of `alts`. -/
inductive Tiled (alts : List (List Char)) : List Char → Nat → Prop
  | nil : Tiled alts [] 0
  | cons {a w : List Char} {n : Nat} (ha : a ∈ alts) (hne : a ≠ []) (hw : Tiled alts w n) :
      Tiled alts (a ++ w) (n + 1)

namespace Tiled

variable {alts : List (List Char)}

/-- The rounds of a split, as a list. -/
theorem iff_blocks {w : List Char} {n : Nat} : Tiled alts w n ↔
    ∃ blocks : List (List Char), blocks.length = n ∧ (∀ b ∈ blocks, b ∈ alts ∧ b ≠ []) ∧
      w = blocks.flatten := by
  constructor
  · intro h
    induction h with
    | nil => exact ⟨[], rfl, by simp, rfl⟩
    | @cons a w n ha hne _ ih =>
      obtain ⟨blocks, hlen, hall, rfl⟩ := ih
      refine ⟨a :: blocks, by simp [hlen], ?_, by simp⟩
      intro b hb
      rcases List.mem_cons.1 hb with rfl | hb
      · exact ⟨ha, hne⟩
      · exact hall b hb
  · rintro ⟨blocks, rfl, hall, rfl⟩
    induction blocks with
    | nil => exact .nil
    | cons b blocks ih =>
      have hb := hall b (List.mem_cons_self ..)
      exact .cons hb.1 hb.2 (ih fun b' hb' => hall b' (List.mem_cons_of_mem _ hb'))

/-- Empty alternatives add nothing: a word of alternatives splits into its non-empty ones. -/
theorem of_flatten (blocks : List (List Char)) (h : ∀ b ∈ blocks, b ∈ alts) :
    ∃ n, Tiled alts blocks.flatten n := by
  induction blocks with
  | nil => exact ⟨0, .nil⟩
  | cons b blocks ih =>
    obtain ⟨n, hn⟩ := ih fun b' hb' => h b' (List.mem_cons_of_mem _ hb')
    by_cases hb : b = []
    · exact ⟨n, by simpa [hb] using hn⟩
    · exact ⟨n + 1, by simpa using Tiled.cons (h b (List.mem_cons_self ..)) hb hn⟩

end Tiled

namespace Proposal

variable {alts : List (List Char)} {body : Array Char}

theorem occursAt_iff {pos : Nat} {alt : List Char} (hne : alt ≠ []) :
    occursAt body pos alt = true ↔ alt <+: body.toList.drop pos := by
  rw [List.prefix_iff_eq_take]
  simp only [occursAt, Bool.and_eq_true, decide_eq_true_eq, beq_iff_eq, Array.toList_extract,
    List.extract_eq_take_drop, Nat.add_sub_cancel_left]
  constructor
  · rintro ⟨-, h⟩
    exact h.symm
  · intro h
    -- a non-empty prefix has its full length, so it fits in the body
    have hlen := congrArg List.length h
    have hpos := List.length_pos_of_ne_nil hne
    simp only [List.length_take, List.length_drop, Array.length_toList] at hlen
    exact ⟨by omega, h.symm⟩

/-- One entry of the round-count table, from the entries after it: one more than the count
after the first alternative, in order, that starts at `pos` and leaves a rest that splits. -/
def roundAt (alts : List (List Char)) (body : Array Char) (res : Array Int) (pos : Nat) : Int :=
  (alts.findSome? fun alt =>
    if alt.length > 0 && occursAt body pos alt then
      let rest := res.getD (pos + alt.length) (-1)
      if rest ≥ 0 then some (rest + 1) else none
    else none).getD (-1)

theorem roundCounts_eq : roundCounts alts body =
    (List.range body.size).reverse.foldl (fun res pos => res.set! pos (roundAt alts body res pos))
      ((Array.replicate (body.size + 1) (-1 : Int)).set! body.size 0) :=
  rfl

/-- An entry reads only the entries after it. -/
theorem roundAt_congr {res res' : Array Int} {pos : Nat}
    (h : ∀ j, pos < j → res.getD j (-1) = res'.getD j (-1)) :
    roundAt alts body res pos = roundAt alts body res' pos := by
  unfold roundAt
  congr 2
  funext alt
  by_cases hocc : (alt.length > 0 && occursAt body pos alt) = true
  · have hpos : pos < pos + alt.length := by
      simp only [Bool.and_eq_true, decide_eq_true_eq] at hocc
      omega
    simp only [hocc, if_true, h _ hpos]
  · simp only [hocc]
    rfl

/-- The table is settled from position `k` on: its last entry is `0` and every entry from `k`
obeys the recurrence. -/
structure Settled (alts : List (List Char)) (body : Array Char) (k : Nat) (res : Array Int) :
    Prop where
  size : res.size = body.size + 1
  last : res.getD body.size (-1) = 0
  settled : ∀ j, k ≤ j → j < body.size → res.getD j (-1) = roundAt alts body res j

/-- Settling position `k` keeps the later positions settled: none of them reads position `k`. -/
theorem Settled.step {k : Nat} {res : Array Int} (h : Settled alts body (k + 1) res)
    (hk : k < body.size) :
    Settled alts body k (res.set! k (roundAt alts body res k)) := by
  have hres : res.size = body.size + 1 := h.size
  -- the new table differs from the old one at `k` only
  have hsame : ∀ j, k < j →
      (res.set! k (roundAt alts body res k)).getD j (-1) = res.getD j (-1) := by
    intro j hj
    simp only [Array.set!_eq_setIfInBounds, Array.getD_eq_getD_getElem?,
      Array.getElem?_setIfInBounds_ne (Nat.ne_of_lt hj)]
  refine ⟨by simp [hres], ?_, fun j hkj hj => ?_⟩
  · rw [hsame _ hk, h.last]
  · rcases Nat.eq_or_lt_of_le hkj with rfl | hlt
    · rw [roundAt_congr (fun j hj => hsame j hj)]
      simp [Array.set!_eq_setIfInBounds, Array.getD_eq_getD_getElem?, hres,
        show k < body.size + 1 by omega]
    · rw [hsame _ hlt, h.settled j hlt hj, roundAt_congr]
      intro i hi
      exact (hsame i (Nat.lt_trans hlt hi)).symm

/-- The fold settles the positions below `k`, from the top down. -/
theorem Settled.fold : ∀ (k : Nat) (res : Array Int), k ≤ body.size → Settled alts body k res →
    Settled alts body 0 ((List.range k).reverse.foldl
      (fun res pos => res.set! pos (roundAt alts body res pos)) res) := by
  intro k
  induction k with
  | zero => intro res _ h; exact h
  | succ k ih =>
    intro res hk h
    rw [List.range_succ, List.reverse_append, List.reverse_singleton, List.singleton_append,
      List.foldl_cons]
    exact ih _ (by omega) (h.step (by omega))

theorem settled_roundCounts : Settled alts body 0 (roundCounts alts body) := by
  rw [roundCounts_eq]
  refine Settled.fold _ _ le_rfl ⟨by simp, ?_, fun j hj hj' => absurd hj' (by omega)⟩
  simp [Array.set!_eq_setIfInBounds, Array.getD_eq_getD_getElem?]

/-- The count after the body is `0`: nothing is left to split. -/
theorem roundCounts_last : (roundCounts alts body).getD body.size (-1) = 0 :=
  settled_roundCounts.last

/-- Every entry of the table obeys the recurrence. -/
theorem roundCounts_settled {j : Nat} (hj : j < body.size) :
    (roundCounts alts body).getD j (-1) = roundAt alts body (roundCounts alts body) j :=
  settled_roundCounts.settled j (Nat.zero_le j) hj

/-- The table tries the alternatives one at a time, in order. -/
theorem roundAt_cons {res : Array Int} {pos : Nat} (a : List Char) (alts : List (List Char)) :
    roundAt (a :: alts) body res pos =
      if (a.length > 0 && occursAt body pos a) = true ∧ 0 ≤ res.getD (pos + a.length) (-1) then
        res.getD (pos + a.length) (-1) + 1
      else roundAt alts body res pos := by
  unfold roundAt
  rw [List.findSome?_cons]
  by_cases hocc : (a.length > 0 && occursAt body pos a) = true
  · by_cases hrest : 0 ≤ res.getD (pos + a.length) (-1)
    · simp only [hocc, hrest, if_true, ge_iff_le, and_self, Option.getD_some]
    · simp only [hocc, hrest, if_true, if_false, ge_iff_le, and_false]
  · simp only [hocc, Bool.false_eq_true, false_and, if_false]

theorem roundAt_nil {res : Array Int} {pos : Nat} : roundAt [] body res pos = -1 :=
  rfl

/-- A non-empty alternative that starts at `pos`, with a rest counted `k`, counts `k + 1` when
it is tried first. -/
theorem roundAt_cons_take {res : Array Int} {pos k : Nat} {a : List Char} (hne : a ≠ [])
    (hocc : occursAt body pos a = true) (hrest : res.getD (pos + a.length) (-1) = k) :
    roundAt (a :: alts) body res pos = k + 1 := by
  have htaken : (a.length > 0 && occursAt body pos a) = true :=
    Bool.and_eq_true_iff.2 ⟨decide_eq_true (List.length_pos_of_ne_nil hne), hocc⟩
  rw [roundAt_cons, if_pos ⟨htaken, by omega⟩, hrest]

/-- An alternative that is empty or does not start at `pos` is passed over. -/
theorem roundAt_cons_skip {res : Array Int} {pos : Nat} {a : List Char}
    (hout : ¬(a.length > 0 && occursAt body pos a) = true) :
    roundAt (a :: alts) body res pos = roundAt alts body res pos := by
  rw [roundAt_cons, if_neg]
  rintro ⟨htaken, -⟩
  exact hout htaken

/-- An empty alternative is never taken. -/
theorem roundCounts_append_nil (alts : List (List Char)) (body : Array Char) :
    roundCounts (alts ++ [[]]) body = roundCounts alts body := by
  have hstep : ∀ res pos, roundAt (alts ++ [[]]) body res pos = roundAt alts body res pos := by
    intro res pos
    induction alts with
    | nil => simp [roundAt_cons, roundAt_nil]
    | cons a alts ih => rw [List.cons_append, roundAt_cons, roundAt_cons, ih]
  simp only [roundCounts_eq, hstep]

/-- A count `n ≥ 0` at a position comes from an alternative that starts there and a rest with
one round fewer. -/
theorem roundAt_eq_succ {res : Array Int} {pos n : Nat} (h : roundAt alts body res pos = n) :
    ∃ a ∈ alts, a ≠ [] ∧ a <+: body.toList.drop pos ∧ ∃ k : Nat, n = k + 1 ∧
      res.getD (pos + a.length) (-1) = k := by
  induction alts with
  | nil =>
    rw [roundAt_nil] at h
    omega
  | cons a alts ih =>
    rw [roundAt_cons] at h
    split_ifs at h with htaken
    · -- the first alternative is taken
      obtain ⟨hocc, hrest⟩ := htaken
      obtain ⟨hlen, hocc⟩ := Bool.and_eq_true_iff.1 hocc
      have hne : a ≠ [] := List.ne_nil_of_length_pos (by simpa using hlen)
      exact ⟨a, List.mem_cons_self .., hne, (occursAt_iff hne).1 hocc,
        (res.getD (pos + a.length) (-1)).toNat, by omega, by omega⟩
    · obtain ⟨b, hb, hrest⟩ := ih h
      exact ⟨b, List.mem_cons_of_mem _ hb, hrest⟩

/-- An alternative that starts at a position and leaves a rest that splits makes the count
there non-negative: the search stops at it, or at an earlier alternative that also counts. -/
theorem roundAt_nonneg {res : Array Int} {pos : Nat} {a : List Char} (ha : a ∈ alts)
    (hne : a ≠ []) (hpre : a <+: body.toList.drop pos)
    (hrest : 0 ≤ res.getD (pos + a.length) (-1)) : 0 ≤ roundAt alts body res pos := by
  induction alts with
  | nil => cases ha
  | cons b alts ih =>
    rw [roundAt_cons]
    split_ifs with htaken
    · omega
    · rcases List.mem_cons.1 ha with rfl | ha
      · refine absurd ⟨?_, hrest⟩ htaken
        exact Bool.and_eq_true_iff.2
          ⟨decide_eq_true (List.length_pos_of_ne_nil hne), (occursAt_iff hne).2 hpre⟩
      · exact ih ha

/-- A count `n ≥ 0` in the table splits the rest of the body into `n` rounds. The recursion
follows the alternative the table took, to a later position. -/
theorem tiled_of_roundCounts {j n : Nat} (hj : j ≤ body.size)
    (h : (roundCounts alts body).getD j (-1) = n) : Tiled alts (body.toList.drop j) n := by
  rcases Nat.lt_or_ge j body.size with hlt | hge
  · rw [roundCounts_settled hlt] at h
    obtain ⟨a, ha, hne, hpre, k, rfl, hrest⟩ := roundAt_eq_succ h
    have hlen : j + a.length ≤ body.size := by
      have := hpre.length_le
      simp only [List.length_drop, Array.length_toList] at this
      omega
    have hrest' := tiled_of_roundCounts hlen hrest
    obtain ⟨tail, htail⟩ := hpre
    -- the rest of the body after `a` is where the table looked next
    have htail' : tail = body.toList.drop (j + a.length) := by
      rw [← List.drop_drop, ← htail, List.drop_left]
    rw [← htail, htail']
    exact .cons ha hne hrest'
  · have hj' : j = body.size := by omega
    subst hj'
    rw [roundCounts_last] at h
    have hn : n = 0 := by omega
    subst hn
    rw [List.drop_eq_nil_of_le (by simp)]
    exact .nil
termination_by body.size - j
decreasing_by
  have := List.length_pos_of_ne_nil hne
  omega

/-- A rest that splits has a non-negative count. -/
theorem roundCounts_nonneg_of_tiled {j n : Nat} (hj : j ≤ body.size)
    (h : Tiled alts (body.toList.drop j) n) : 0 ≤ (roundCounts alts body).getD j (-1) := by
  generalize hw : body.toList.drop j = w at h
  induction h generalizing j with
  | nil =>
    have hj' : j = body.size := by
      have := congrArg List.length hw
      simp only [List.length_drop, Array.length_toList, List.length_nil] at this
      omega
    subst hj'
    rw [roundCounts_last]
  | @cons a w n ha hne _ ih =>
    have hlen : j + a.length ≤ body.size := by
      have := congrArg List.length hw
      simp only [List.length_drop, Array.length_toList, List.length_append] at this
      omega
    have hlt : j < body.size := by
      have := List.length_pos_of_ne_nil hne
      omega
    have hrest : body.toList.drop (j + a.length) = w := by
      rw [← List.drop_drop, hw, List.drop_left]
    rw [roundCounts_settled hlt]
    exact roundAt_nonneg ha hne ⟨w, hw.symm⟩ (ih hlen hrest)

/-- The count at the start of the body is non-negative exactly when the body splits. -/
theorem roundCounts_nonneg_iff :
    0 ≤ (roundCounts alts body).getD 0 (-1) ↔ ∃ n, Tiled alts body.toList n := by
  constructor
  · intro h
    exact ⟨(roundCounts alts body).getD 0 (-1) |>.toNat,
      by simpa using tiled_of_roundCounts (Nat.zero_le _) (Int.toNat_of_nonneg h).symm⟩
  · rintro ⟨n, hn⟩
    exact roundCounts_nonneg_of_tiled (Nat.zero_le _) (by simpa using hn)

/-- The alternatives of a round: the shared block with the then block, and with the else block
when the loop branches. -/
theorem mem_alternatives {p : Proposal} {b : List Char} : b ∈ p.alternatives ↔
    b = p.sharedTags ++ p.thenTags ∨ (p.branches = true ∧ b = p.sharedTags ++ p.elseTags) := by
  unfold alternatives
  cases p.branches <;> simp

/-- The three checks on a skeleton hold exactly when it is the prefix, a middle and the suffix. -/
theorem split_iff {l pre post : List Char} :
    (pre.length + post.length ≤ l.length ∧ l.take pre.length = pre ∧
      l.drop (l.length - post.length) = post) ↔ ∃ m, l = pre ++ m ++ post := by
  constructor
  · rintro ⟨hlen, hpre, hpost⟩
    refine ⟨(l.drop pre.length).take (l.length - post.length - pre.length), ?_⟩
    -- cut `l` at the end of the prefix, then at the start of the suffix
    conv_lhs => rw [← List.take_append_drop pre.length l,
      ← List.take_append_drop (l.length - post.length - pre.length) (l.drop pre.length)]
    rw [hpre, List.drop_drop, show pre.length + (l.length - post.length - pre.length) =
      l.length - post.length by omega, hpost, List.append_assoc]
  · rintro ⟨m, rfl⟩
    refine ⟨by simp, by simp [List.append_assoc], ?_⟩
    rw [show (pre ++ m ++ post).length - post.length = (pre ++ m).length by simp; omega,
      List.drop_left]

variable {p : Proposal} {sk : Array Char}

/-- Around a body, the count of a skeleton is the table's entry at the start of the body. -/
theorem iterationsIn_of_split {body : Array Char}
    (h : sk.toList = p.preTags ++ body.toList ++ p.postTags) :
    p.iterationsIn sk = (roundCounts p.alternatives body).getD 0 (-1) := by
  have hsize : sk.size = p.preTags.length + body.size + p.postTags.length := by
    have hlen := congrArg List.length h
    simp only [Array.length_toList, List.length_append] at hlen
    exact hlen
  obtain ⟨hlen, hpre, hpost⟩ := split_iff.2 ⟨body.toList, h⟩
  -- the body the count reads is the middle of the split
  have hbody : sk.extract p.preTags.length (sk.size - p.postTags.length) = body := by
    apply Array.ext'
    rw [Array.toList_extract, List.extract_eq_take_drop, h, List.append_assoc,
      List.drop_left, hsize, show p.preTags.length + body.size + p.postTags.length -
        p.postTags.length - p.preTags.length = body.toList.length by simp]
    simp
  unfold iterationsIn
  rw [if_pos, hbody]
  simp only [Array.toList_extract, List.extract_eq_take_drop, List.drop_zero, Nat.sub_zero,
    Bool.and_eq_true, decide_eq_true_eq, beq_iff_eq]
  refine ⟨⟨by simpa using hlen, hpre⟩, ?_⟩
  rw [List.take_of_length_le (by simp), ← Array.length_toList, hpost]

/-- A skeleton that is not the prefix, a middle and the suffix counts `-1`. -/
theorem iterationsIn_of_not_split (h : ¬∃ m, sk.toList = p.preTags ++ m ++ p.postTags) :
    p.iterationsIn sk = -1 := by
  unfold iterationsIn
  rw [if_neg]
  intro hc
  simp only [Array.toList_extract, List.extract_eq_take_drop, List.drop_zero, Nat.sub_zero,
    Bool.and_eq_true, decide_eq_true_eq, beq_iff_eq] at hc
  obtain ⟨⟨hlen, hpre⟩, hpost⟩ := hc
  rw [List.take_of_length_le (by simp)] at hpost
  exact h (split_iff.1 ⟨by simpa using hlen, hpre, by simpa using hpost⟩)

/-- The count of a skeleton is non-negative exactly when the skeleton is the prefix, a middle
that splits into rounds, and the suffix. -/
theorem iterationsIn_nonneg_iff : 0 ≤ p.iterationsIn sk ↔
    ∃ m n, sk.toList = p.preTags ++ m ++ p.postTags ∧ Tiled p.alternatives m n := by
  by_cases hsplit : ∃ m, sk.toList = p.preTags ++ m ++ p.postTags
  · obtain ⟨m, hm⟩ := hsplit
    rw [iterationsIn_of_split (show sk.toList = p.preTags ++ m.toArray.toList ++ p.postTags by
      simpa using hm), roundCounts_nonneg_iff]
    constructor
    · rintro ⟨n, hn⟩
      exact ⟨m, n, hm, by simpa using hn⟩
    · rintro ⟨m', n, hm', hn⟩
      -- the middle is fixed by the prefix and the suffix around it
      have hmid : m' = m := by
        rw [hm] at hm'
        simpa using hm'.symm
      exact ⟨n, by simpa [hmid] using hn⟩
  · rw [iterationsIn_of_not_split hsplit]
    simp only [Int.reduceLE, false_iff, not_exists, not_and]
    intro m n hm
    exact absurd ⟨m, hm⟩ hsplit

/-- A count `n` splits the skeleton into the prefix, `n` rounds and the suffix. -/
theorem split_of_iterationsIn {n : Nat} (h : p.iterationsIn sk = n) :
    ∃ m, sk.toList = p.preTags ++ m ++ p.postTags ∧ Tiled p.alternatives m n := by
  by_cases hsplit : ∃ m, sk.toList = p.preTags ++ m ++ p.postTags
  · obtain ⟨m, hm⟩ := hsplit
    rw [iterationsIn_of_split (show sk.toList = p.preTags ++ m.toArray.toList ++ p.postTags by
      simpa using hm)] at h
    exact ⟨m, hm, by simpa using tiled_of_roundCounts (Nat.zero_le _) h⟩
  · rw [iterationsIn_of_not_split hsplit] at h
    omega

/-- For a proposal made from a source trace, the count of a trace is non-negative exactly when
the trace's skeleton matches the proposal's pattern. -/
theorem matches_iff_numIterations_nonneg {source : Trace}
    {start length shared thenPos thenLen elsePos elseLen : Nat} {branches : Bool}
    (hp : p = make source start length shared thenPos thenLen elsePos elseLen branches)
    (t : Trace) : p.Matches t ↔ 0 ≤ p.numIterations t := by
  rw [matches_iff hp, numIterations, iterationsIn_nonneg_iff]
  constructor
  · rintro ⟨blocks, hblocks, hsk⟩
    obtain ⟨n, hn⟩ := Tiled.of_flatten blocks hblocks
    exact ⟨_, n, hsk, hn⟩
  · rintro ⟨m, n, hsk, hn⟩
    obtain ⟨blocks, -, hall, rfl⟩ := Tiled.iff_blocks.1 hn
    exact ⟨blocks, fun b hb => (hall b hb).1, hsk⟩

end Proposal

end TraceSynth
