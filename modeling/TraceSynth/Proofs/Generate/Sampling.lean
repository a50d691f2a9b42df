import Mathlib.Data.List.Nodup
import Mathlib.Data.List.Sort
import TraceSynth.Generate.Selection
import TraceSynth.Proofs.Random.Draws
import TraceSynth.Proofs.Heap.Bisimilarity
import TraceSynth.Proofs.Text.Sort
import TraceSynth.Proofs.Text.Sort

/-!
# Selecting inputs keeps the first ones and the pool order

A large pool of inputs is cut down before a search scores it (`Generate.selectInputs`). This
module shows what the selection keeps, whatever the random stream and whatever the scores.

The draws take elements without repetition: a draw of up to `n` elements of a list is a
sub-permutation of it (`Generate.pickN_subperm`), since the shuffle under it permutes the
places (`Random.perm_perm`). The buckets hold every scored position once, under keys that are
pairwise unequal as floats, and a bucket whose key is no NaN holds only positions scored with a
key equal to it (`Generate.BucketsOk`, kept by each `addToBucket`). Float equality is an
equivalence off NaN, so the keys drawn are pairwise unequal too, and the positions drawn for
two keys are apart; every key is equal to at most one key drawn, so at most two positions
drawn share a key (`Generate.draws_apart`).

## Main results

* `Generate.selectInputs_keeps_order`: for every pool, every `keep` up to its size, every
  scorer that does not fail and every random source, a pool of fewer than twenty inputs comes
  back unchanged, and a larger one gives the inputs and traces at increasing positions of the
  pool that start with `0, …, keep - 1`, number at most `keep + 20`, and hold at most two
  positions past `keep` of each bucket key.
-/

namespace TraceSynth

namespace FloatOrder

/-- A float equal to some float is no NaN, so it equals itself. -/
theorem beq_self_of_beq {a b : Float} (h : (a == b) = true) : (a == a) = true := by
  obtain ⟨ha, -, -⟩ := beq_iff.1 h
  exact beq_iff.2 ⟨ha, ha, rfl⟩

end FloatOrder

namespace Generate

open RandM FloatOrder

/-! ### Drawing without repetition -/

/-- Reading a list at each of its positions gives it back. -/
theorem map_getD_range {α : Type} [Inhabited α] (xs : List α) :
    (List.range xs.length).map (xs.getD · default) = xs :=
  List.ext_getElem (by simp) fun k _ h => by simp [List.getElem?_eq_getElem h]

/-- A draw of up to `n` elements takes elements of the list without repetition: a
sub-permutation of at most `n` of them. -/
theorem pickN_subperm {α : Type} [Inhabited α] (xs : List α) (n : Nat) :
    Always (pickN xs n) fun ys => ys.Subperm xs ∧ ys.length ≤ n := by
  unfold pickN
  split
  · exact Always.pure ⟨List.Subperm.refl xs, ‹_›⟩
  · refine (Random.perm_perm xs.length).bind fun perm hperm => Always.pure ⟨?_, by simp⟩
    -- the first `n` places of a permutation are distinct places of the list
    obtain ⟨l, hl, hsub⟩ : (perm.take n).Subperm (List.range xs.length) :=
      (List.take_sublist n perm).subperm.trans hperm.subperm
    refine ⟨l.map (xs.getD · default), hl.map _, ?_⟩
    simpa only [map_getD_range] using hsub.map (xs.getD · default)

/-! ### Buckets -/

/-- Keys that are pairwise unequal as floats. -/
def Apart (ks : List Float) : Prop := ks.Pairwise fun a c => (a == c) = false

/-- At most one of pairwise unequal keys equals a given key. -/
theorem Apart.filter_length_le {ks : List Float} (h : Apart ks) (k : Float) :
    (ks.filter (· == k)).length ≤ 1 := by
  have hf : Apart (ks.filter (· == k)) := h.sublist List.filter_sublist
  have hall : ∀ a ∈ ks.filter (· == k), (a == k) = true := fun a ha => (List.mem_filter.1 ha).2
  match hl : ks.filter (· == k), hf, hall with
  | [], _, _ => simp
  | [_], _, _ => simp
  | a :: c :: _, hf, hall =>
    have hac := List.rel_of_pairwise_cons hf List.mem_cons_self
    have := beq_trans (hall a List.mem_cons_self)
      ((beq_comm _ _).trans (hall c (List.mem_cons_of_mem _ List.mem_cons_self)))
    rw [hac] at this
    cases this

/-- Drawing keys without repetition keeps them apart. -/
theorem Apart.subperm {ks K : List Float} (hK : Apart K) (h : ks.Subperm K) : Apart ks := by
  obtain ⟨l, hl, hsub⟩ := h
  exact (hl.pairwise_iff fun {a c} h => (beq_comm c a).trans h).1 (hK.sublist hsub)

/-- What the buckets of the scored positions `keyed` keep: every position once, keys that are
pairwise unequal, and in a bucket whose key is no NaN only positions scored with a key equal to
it. -/
structure BucketsOk (keyed : List (Nat × Float)) (bs : List (Float × List Nat)) : Prop where
  members : (bs.map (·.2)).flatten.Perm (keyed.map (·.1))
  keys_apart : Apart (bs.map (·.1))
  key_eq : ∀ b ∈ bs, (b.1 == b.1) = true → ∀ i ∈ b.2, ∃ s, (i, s) ∈ keyed ∧ (s == b.1) = true

/-- A position goes to the one bucket whose key equals its own. -/
theorem flatten_append_to_bucket (i : Nat) {k : Float} :
    ∀ {bs : List (Float × List Nat)}, Apart (bs.map (·.1)) → (∃ b ∈ bs, (b.1 == k) = true) →
      ((bs.map fun b => if b.1 == k then (b.1, b.2 ++ [i]) else b).map (·.2)).flatten.Perm
        ((bs.map (·.2)).flatten ++ [i])
  | [], _, ⟨_, hb, _⟩ => absurd hb List.not_mem_nil
  | b :: rest, hapart, hk => by
    have hhead : ∀ c ∈ rest, (b.1 == c.1) = false := fun c hc =>
      List.rel_of_pairwise_cons hapart (List.mem_map_of_mem hc)
    by_cases hb : (b.1 == k) = true
    · -- no other bucket's key equals `k`, so the rest is unchanged
      have hrest : ∀ c ∈ rest, (if c.1 == k then (c.1, c.2 ++ [i]) else c) = c := fun c hc => by
        have hck : (c.1 == k) = false := by
          cases hck : c.1 == k
          · rfl
          · have := beq_trans hb ((beq_comm _ _).trans hck)
            rw [hhead c hc] at this
            cases this
        simp [hck]
      simp only [List.map_cons, hb, ↓reduceIte, List.map_congr_left hrest, List.map_id',
        List.flatten_cons, List.append_assoc]
      exact List.Perm.append_left _ List.perm_append_comm
    · have hk' : ∃ c ∈ rest, (c.1 == k) = true := by
        obtain ⟨c, hc, hck⟩ := hk
        rcases List.mem_cons.1 hc with rfl | hc
        · exact absurd hck hb
        · exact ⟨c, hc, hck⟩
      simp only [List.map_cons, hb, Bool.false_eq_true, ↓reduceIte, List.flatten_cons,
        List.append_assoc]
      exact List.Perm.append_left _ (flatten_append_to_bucket i (List.pairwise_cons.1 hapart).2 hk')

/-- Each position added keeps the buckets right. -/
theorem addToBucket_ok {keyed : List (Nat × Float)} {bs : List (Float × List Nat)}
    (h : BucketsOk keyed bs) (p : Nat × Float) : BucketsOk (keyed ++ [p]) (addToBucket bs p) := by
  obtain ⟨i, s⟩ := p
  have hold : ∀ {j t}, (j, t) ∈ keyed → (j, t) ∈ keyed ++ [(i, s)] := List.mem_append_left _
  unfold addToBucket
  split
  · next hany =>
    -- the bucket of an equal key takes the position
    obtain ⟨b, hb, hbs⟩ := List.any_eq_true.1 hany
    refine ⟨?_, ?_, ?_⟩
    · simpa using (flatten_append_to_bucket i h.keys_apart ⟨b, hb, hbs⟩).trans
        (h.members.append_right [i])
    · have hkeys : ((bs.map fun b => if b.1 == s then (b.1, b.2 ++ [i]) else b).map (·.1)) =
          bs.map (·.1) := by
        simp only [List.map_map]
        exact List.map_congr_left fun c _ => by by_cases hc : (c.1 == s) = true <;> simp [hc]
      rw [hkeys]
      exact h.keys_apart
    · intro b' hb' hself j hj
      obtain ⟨c, hc, rfl⟩ := List.mem_map.1 hb'
      by_cases hcs : (c.1 == s) = true
      · simp only [hcs, ↓reduceIte, List.mem_append, List.mem_singleton] at hself hj ⊢
        rcases hj with hj | rfl
        · obtain ⟨t, ht, htc⟩ := h.key_eq c hc hself j hj
          exact ⟨t, .inl ht, htc⟩
        · exact ⟨s, .inr rfl, (beq_comm _ _).trans hcs⟩
      · simp only [hcs, Bool.false_eq_true, ↓reduceIte] at hself hj ⊢
        obtain ⟨t, ht, htc⟩ := h.key_eq c hc hself j hj
        exact ⟨t, hold ht, htc⟩
  · next hnone =>
    -- no key equals it: a new bucket
    have hall : ∀ b ∈ bs, (b.1 == s) = false := by simpa using hnone
    refine ⟨?_, ?_, ?_⟩
    · simpa using h.members.append_right [i]
    · simp only [List.map_append, List.map_cons, List.map_nil]
      refine List.pairwise_append.2 ⟨h.keys_apart, List.pairwise_singleton _ _, ?_⟩
      intro a ha c hc
      obtain ⟨b, hb, rfl⟩ := List.mem_map.1 ha
      rw [List.mem_singleton.1 hc]
      exact hall b hb
    · intro b hb hself j hj
      rcases List.mem_append.1 hb with hb | hb
      · obtain ⟨t, ht, htb⟩ := h.key_eq b hb hself j hj
        exact ⟨t, hold ht, htb⟩
      · rw [List.mem_singleton.1 hb] at hself hj ⊢
        rw [List.mem_singleton.1 hj]
        exact ⟨s, List.mem_append_right _ List.mem_cons_self, hself⟩

theorem foldl_addToBucket_ok :
    ∀ (ps keyed : List (Nat × Float)) (bs : List (Float × List Nat)), BucketsOk keyed bs →
      BucketsOk (keyed ++ ps) (ps.foldl addToBucket bs)
  | [], keyed, bs, h => by simpa using h
  | p :: ps, keyed, bs, h => by
    simpa using foldl_addToBucket_ok ps (keyed ++ [p]) _ (addToBucket_ok h p)

/-- The buckets of the scored positions are right. -/
theorem buckets_ok (keyed : List (Nat × Float)) : BucketsOk keyed (buckets keyed) := by
  simpa [buckets] using foldl_addToBucket_ok keyed [] [] ⟨by simp, List.Pairwise.nil, by simp⟩

/-- A position in the bucket of a key lies in a bucket whose key equals it. -/
theorem mem_bucketOf {bs : List (Float × List Nat)} {k : Float} {i : Nat}
    (h : i ∈ bucketOf bs k) : ∃ b ∈ bs, (b.1 == k) = true ∧ i ∈ b.2 := by
  unfold bucketOf at h
  cases hf : bs.find? (·.1 == k) with
  | none =>
    rw [hf] at h
    cases h
  | some b =>
    rw [hf] at h
    exact ⟨b, List.mem_of_find?_eq_some hf, by simpa using List.find?_some hf, h⟩

/-- The bucket of a key holds distinct positions when the positions scored are distinct. -/
theorem bucketOf_nodup {keyed : List (Nat × Float)} {bs : List (Float × List Nat)}
    (hb : BucketsOk keyed bs) (hnd : (keyed.map (·.1)).Nodup) (k : Float) :
    (bucketOf bs k).Nodup := by
  have hall := (List.nodup_flatten.1 (hb.members.nodup_iff.2 hnd)).1
  unfold bucketOf
  cases hf : bs.find? (·.1 == k) with
  | none => exact List.nodup_nil
  | some b => exact hall _ (List.mem_map_of_mem (List.mem_of_find?_eq_some hf))

/-! ### Drawing from the buckets -/

/-- What a draw from the buckets `bs` is made of: the keys drawn `ks`, without repetition and
at most ten, each with the positions `p` drawn from its bucket, without repetition and at most
two. -/
def Drawn (bs : List (Float × List Nat)) (ks : List Float) (picks : List (List Nat)) : Prop :=
  List.Forall₂ (fun k p => p.Subperm (bucketOf bs k) ∧ p.length ≤ 2) ks picks

theorem drawFrom_foldlM (bs : List (Float × List Nat)) :
    ∀ (ks : List Float) (acc : List Nat),
      Always (ks.foldlM (fun chosen k => do pure (chosen ++ (← pickN (bucketOf bs k) 2))) acc)
        fun r => ∃ picks, r = acc ++ picks.flatten ∧ Drawn bs ks picks
  | [], acc => Always.pure ⟨[], by simp, .nil⟩
  | k :: ks, acc => by
    rw [List.foldlM_cons]
    refine Always.bind (P := fun acc' => ∃ p, acc' = acc ++ p ∧ p.Subperm (bucketOf bs k) ∧
      p.length ≤ 2) ((pickN_subperm _ 2).bind fun p hp => Always.pure ⟨p, rfl, hp⟩) ?_
    rintro _ ⟨p, rfl, hp⟩
    refine (drawFrom_foldlM bs ks (acc ++ p)).mono fun r ⟨picks, hr, hpicks⟩ => ?_
    exact ⟨p :: picks, by simp [hr], .cons hp hpicks⟩

/-- A draw from the buckets: up to ten of their keys without repetition, and up to two
positions of the bucket of each. -/
theorem drawBuckets_drawn (bs : List (Float × List Nat)) :
    Always (drawBuckets bs) fun drawn => ∃ ks picks,
      ks.Subperm (bs.map (·.1)) ∧ ks.length ≤ 10 ∧ drawn = picks.flatten ∧ Drawn bs ks picks :=
  (pickN_subperm _ 10).bind fun ks ⟨hks, hlen⟩ =>
    (drawFrom_foldlM bs ks []).mono fun _ ⟨picks, hr, hpicks⟩ =>
      ⟨ks, picks, hks, hlen, by simpa using hr, hpicks⟩

/-- Every position drawn lies in a bucket. -/
theorem Drawn.mem {bs : List (Float × List Nat)} {ks : List Float} {picks : List (List Nat)}
    (h : Drawn bs ks picks) {i : Nat} (hi : i ∈ picks.flatten) :
    ∃ k ∈ ks, ∃ b ∈ bs, (b.1 == k) = true ∧ i ∈ b.2 := by
  induction h with
  | nil => cases hi
  | cons hp _ ih =>
    rcases List.mem_append.1 hi with hi | hi
    · exact ⟨_, List.mem_cons_self, mem_bucketOf (hp.1.subset hi)⟩
    · obtain ⟨k, hk, rest⟩ := ih hi
      exact ⟨k, List.mem_cons_of_mem _ hk, rest⟩

section Keyed

variable {key : Nat → Float} {ps : List Nat} {bs : List (Float × List Nat)}

/-- The positions of the positions scored by `key`. -/
theorem map_fst_keyed (key : Nat → Float) (ps : List Nat) :
    (ps.map fun i => (i, key i)).map (·.1) = ps := by
  simp [List.map_map, Function.comp_def]

/-- In the buckets of positions scored by `key`, a position drawn for a key has a key equal to
it. -/
theorem key_beq_of_drawn (hb : BucketsOk (ps.map fun i => (i, key i)) bs) {k : Float}
    {p : List Nat} (hp : p.Subperm (bucketOf bs k)) {i : Nat} (hi : i ∈ p) :
    (key i == k) = true := by
  obtain ⟨b, hbm, hbk, hib⟩ := mem_bucketOf (hp.subset hi)
  obtain ⟨s, hs, hsb⟩ := hb.key_eq b hbm (beq_self_of_beq hbk) i hib
  obtain ⟨j, -, hj⟩ := List.mem_map.1 hs
  cases hj
  exact beq_trans hsb hbk

/-- The positions drawn for keys that are apart: distinct, at most two per key drawn, and at
most two of any one key. -/
theorem draws_apart (hb : BucketsOk (ps.map fun i => (i, key i)) bs) (hnd : ps.Nodup)
    {ks : List Float} {picks : List (List Nat)} (hks : Apart ks) (h : Drawn bs ks picks) :
    picks.flatten.Nodup ∧ picks.flatten.length ≤ 2 * ks.length ∧
      ∀ k, (picks.flatten.filter (key · == k)).length ≤ 2 * (ks.filter (· == k)).length := by
  have hnd' : ((ps.map fun i => (i, key i)).map (·.1)).Nodup := by rwa [map_fst_keyed]
  induction h with
  | nil => simp
  | @cons k p ks picks hp hrest ih =>
    obtain ⟨hhead, hks⟩ := List.pairwise_cons.1 hks
    obtain ⟨ihnd, ihlen, ihcount⟩ := ih hks
    refine ⟨?_, ?_, fun k' => ?_⟩
    · -- a position drawn for `k` and for a later key would make the two keys equal
      refine List.nodup_append.2 ⟨?_, ihnd, fun i hi j hj hij => ?_⟩
      · obtain ⟨l, hl, hsub⟩ := hp.1
        exact hl.nodup_iff.1 ((bucketOf_nodup hb hnd' k).sublist hsub)
      · subst hij
        obtain ⟨k'', hk'', b, hbm, hbk, hib⟩ := Drawn.mem hrest hj
        obtain ⟨s, hs, hsb⟩ := hb.key_eq b hbm (beq_self_of_beq hbk) i hib
        obtain ⟨j, -, hj'⟩ := List.mem_map.1 hs
        cases hj'
        have := beq_trans ((beq_comm _ _).trans (key_beq_of_drawn hb hp.1 hi))
          (beq_trans hsb hbk)
        rw [hhead k'' hk''] at this
        cases this
    · simp only [List.flatten_cons, List.length_append, List.length_cons]
      omega
    · rw [List.flatten_cons, List.filter_append, List.length_append, List.filter_cons]
      by_cases hk : (k == k') = true
      · have := (List.length_filter_le (key · == k') p).trans hp.2
        simp only [hk, ↓reduceIte, List.length_cons]
        have := ihcount k'
        omega
      · -- no position drawn for `k` has a key equal to `k'`
        have hnone : p.filter (key · == k') = [] := List.filter_eq_nil_iff.2 fun i hi hik => hk (by
          exact beq_trans ((beq_comm _ _).trans (key_beq_of_drawn hb hp.1 hi)) hik)
        simp only [hnone, hk, Bool.false_eq_true, ↓reduceIte, List.length_nil, Nat.zero_add]
        exact ihcount k'

end Keyed

/-! ### The positions kept -/

theorem mem_drop_range {n keep i : Nat} : i ∈ (List.range n).drop keep ↔ keep ≤ i ∧ i < n := by
  rw [List.range_eq_range', List.drop_range', List.mem_range'_1]
  omega

/-- A list in increasing order is its own sort. -/
theorem pairwise_lt_of_sorted_nodup {l : List Nat} (hs : l.Pairwise (· ≤ ·)) (hnd : l.Nodup) :
    l.Pairwise (· < ·) :=
  (hs.and hnd).imp fun ⟨hle, hne⟩ => Nat.lt_of_le_of_ne hle hne

/-- Distinct positions past `keep`, sorted, continue the first `keep` positions in increasing
order. -/
theorem pairwise_range_append_mergeSort {keep : Nat} {ds : List Nat} (hnd : ds.Nodup)
    (hpast : ∀ i ∈ ds, keep ≤ i) : (List.range keep ++ ds.mergeSort (· ≤ ·)).Pairwise (· < ·) := by
  have hsorted : (ds.mergeSort (· ≤ ·)).Pairwise (· < ·) := pairwise_lt_of_sorted_nodup
    (List.pairwise_mergeSort' (· ≤ ·) ds) ((List.mergeSort_perm _ _).nodup_iff.2 hnd)
  refine List.pairwise_append.2 ⟨List.pairwise_lt_range, hsorted, fun a ha b hb => ?_⟩
  have := hpast b ((List.mergeSort_perm _ _).subset hb)
  have := List.mem_range.1 ha
  omega

/-- When the drawn positions are distinct and lie past `keep`, the positions kept are the first
`keep` followed by the drawn ones in increasing order. -/
theorem chosenPositions_eq_append {n keep : Nat} {keyed : List (Nat × Float)} {rng : Rng}
    (hkeep : keep ≤ n) (hnd : ((drawBuckets (buckets keyed)).run rng).1.Nodup)
    (hpast : ∀ i ∈ ((drawBuckets (buckets keyed)).run rng).1, keep ≤ i) :
    chosenPositions n keep keyed rng =
      List.range keep ++ ((drawBuckets (buckets keyed)).run rng).1.mergeSort (· ≤ ·) := by
  have hcat := pairwise_range_append_mergeSort hnd hpast
  -- both lists hold the same positions, and both are increasing
  have hperm : (chosenPositions n keep keyed rng).Perm
      (List.range keep ++ ((drawBuckets (buckets keyed)).run rng).1.mergeSort (· ≤ ·)) := by
    refine (sortStable_perm _ _).trans ?_
    rw [Nat.min_eq_left hkeep]
    exact List.Perm.append_left _ (List.mergeSort_perm _ _).symm
  refine List.Perm.eq_of_pairwise' ?_ hcat hperm
  have hnodup := hperm.nodup_iff.2 (hcat.imp Nat.ne_of_lt)
  rw [chosenPositions, sortStable_le_eq_mergeSort] at hnodup ⊢
  exact pairwise_lt_of_sorted_nodup (List.pairwise_mergeSort' (· ≤ ·) _) hnodup

/-- The positions kept from a pool of `n`, drawn from the buckets of the positions past `keep`
scored by `key`: increasing positions of the pool starting with `0, …, keep - 1`, at most
`keep + 20` of them, and at most two past `keep` with keys equal to any one key. -/
theorem chosenPositions_spec {n keep : Nat} (hkeep : keep ≤ n) (key : Nat → Float) (rng : Rng) :
    let idx := chosenPositions n keep (((List.range n).drop keep).map fun i => (i, key i)) rng
    idx.Pairwise (· < ·) ∧ (∀ i ∈ idx, i < n) ∧ List.range keep <+: idx ∧
      idx.length ≤ keep + 20 ∧ ∀ k, (idx.filter fun i => decide (keep ≤ i) && key i == k).length ≤ 2 := by
  intro idx
  set ps := (List.range n).drop keep
  have hnd : ps.Nodup := List.nodup_range.sublist (List.drop_sublist _ _)
  have hb := buckets_ok (ps.map fun i => (i, key i))
  -- what the draw gives, for this random stream
  obtain ⟨ks, picks, hks, hklen, hdrawn, hpicks⟩ := drawBuckets_drawn _ rng
  set drawn := ((drawBuckets (buckets (ps.map fun i => (i, key i)))).run rng).1
  obtain ⟨hdnd, hdlen, hdcount⟩ :=
    draws_apart hb hnd (hb.keys_apart.subperm hks) hpicks
  rw [← hdrawn] at hdnd hdlen hdcount
  have hdpos : ∀ i ∈ drawn, keep ≤ i ∧ i < n := fun i hi => by
    rw [hdrawn] at hi
    obtain ⟨-, -, b, hbm, -, hib⟩ := Drawn.mem hpicks hi
    have := hb.members.subset (List.mem_flatten.2 ⟨_, List.mem_map_of_mem hbm, hib⟩)
    rw [map_fst_keyed] at this
    exact mem_drop_range.1 this
  -- the positions kept are the first `keep` followed by the drawn ones in order
  have hpast : ∀ i ∈ drawn, keep ≤ i := fun i hi => (hdpos i hi).1
  rw [show idx = _ from chosenPositions_eq_append hkeep hdnd hpast]
  set sorted := drawn.mergeSort (· ≤ ·)
  have hspos : ∀ i ∈ sorted, keep ≤ i ∧ i < n := fun i hi =>
    hdpos i ((List.mergeSort_perm _ _).subset hi)
  refine ⟨pairwise_range_append_mergeSort hdnd hpast, fun i hi => ?_, List.prefix_append _ _, ?_,
    fun k => ?_⟩
  · rcases List.mem_append.1 hi with hi | hi
    · have := List.mem_range.1 hi
      omega
    · exact (hspos i hi).2
  · have hslen : sorted.length = drawn.length := (List.mergeSort_perm _ _).length_eq
    simp only [List.length_append, List.length_range]
    omega
  · -- no position before `keep` counts, and the drawn ones count by key
    have hfirst : (List.range keep).filter (fun i => decide (keep ≤ i) && key i == k) = [] :=
      List.filter_eq_nil_iff.2 fun i hi => by simp [List.mem_range.1 hi]
    have hrest : sorted.filter (fun i => decide (keep ≤ i) && key i == k) =
        sorted.filter (key · == k) :=
      List.filter_congr fun i hi => by simp [(hspos i hi).1]
    rw [List.filter_append, hfirst, List.nil_append, hrest,
      ((List.mergeSort_perm drawn _).filter _).length_eq]
    have := (hb.keys_apart.subperm hks).filter_length_le k
    have := hdcount k
    omega

/-- The inputs `out` are those of a pool at the positions `idx`, each with its own trace: the
positions increase and lie in the pool, start with `0, …, keep - 1`, number at most
`keep + 20`, and at most two past `keep` have keys equal to any one key. -/
structure SelectedFrom (inputs : List Input) (traces : List Trace) (keep : Nat)
    (key : Nat → Float) (out : List Input × List Trace) (idx : List Nat) : Prop where
  increasing : idx.Pairwise (· < ·)
  in_pool : ∀ i ∈ idx, i < inputs.length
  keeps_first : List.range keep <+: idx
  bounded : idx.length ≤ keep + 20
  per_bucket : ∀ k, (idx.filter fun i => decide (keep ≤ i) && key i == k).length ≤ 2
  inputs_eq : out.1 = idx.map (inputs.getD · default)
  traces_eq : out.2 = idx.map (traces.getD · default)

/-- Input selection keeps the first inputs and the pool order. For every pool, every `keep` up
to its size, every scorer that does not fail and every random source, selection returns: the
pool unchanged when it has fewer than twenty inputs, and otherwise the inputs and traces at a
selection of the pool's positions keeping the first `keep`, with at most two past `keep` from
each bucket of equal key (trace length times 1000 plus score). -/
theorem selectInputs_keeps_order (inputs : List Input) (traces : List Trace) (keep : Nat)
    (score : Nat → Except Failure Float) (f : Nat → Float) (rng : Rng)
    (hkeep : keep ≤ inputs.length) (hscore : ∀ i, score i = .ok (f i)) :
    ∃ out, selectInputs inputs traces keep score rng = .ok out ∧
      (inputs.length < 20 → out = (inputs, traces)) ∧
      (20 ≤ inputs.length → ∃ idx,
        SelectedFrom inputs traces keep (fun i => selectionKey traces i (f i)) out idx) := by
  unfold selectInputs
  by_cases hn : inputs.length < selectThreshold
  · refine ⟨(inputs, traces), by rw [if_pos hn]; rfl, fun _ => rfl, fun h => ?_⟩
    unfold selectThreshold at hn
    omega
  · -- every position past `keep` is scored, in order
    have hscored : ((List.range inputs.length).drop keep).mapM (fun i => do
        let s ← tryCatchThe Failure (score i) fun e =>
          throwThe Failure (e.wrap ("failed to score input " ++ toString i ++ ": "))
        pure (i, selectionKey traces i s)) =
        .ok (((List.range inputs.length).drop keep).map fun i => (i, selectionKey traces i (f i))) := by
      rw [show (Except.ok _ : Except Failure _) = pure _ from rfl, ← List.mapM_pure]
      congr 1
      funext i
      rw [hscore]
      rfl
    simp only [hn, ↓reduceIte, hscored]
    refine ⟨_, rfl, fun h => absurd h (by unfold selectThreshold at hn; omega), fun _ => ?_⟩
    obtain ⟨hinc, hpool, hfirst, hlen, hcount⟩ :=
      chosenPositions_spec hkeep (fun i => selectionKey traces i (f i)) rng
    exact ⟨_, ⟨hinc, hpool, hfirst, hlen, hcount, rfl, rfl⟩⟩

/-- A pool of twenty inputs, each scored 0, keeping the first: the selection keeps the first
input and the pool order. -/
theorem selectInputs_keeps_order_twenty :
    1 ≤ (List.replicate 20 ({} : Input)).length ∧
    (∀ i : Nat, (Except.ok 0 : Except Failure Float) = .ok ((fun _ => (0 : Float)) i)) ∧
    ∃ out, selectInputs (List.replicate 20 {}) (List.replicate 20 default) 1
        (fun _ => (.ok 0 : Except Failure Float)) (Rng.seeded 1) = .ok out ∧
      ((List.replicate 20 ({} : Input)).length < 20 →
        out = (List.replicate 20 {}, List.replicate 20 default)) ∧
      (20 ≤ (List.replicate 20 ({} : Input)).length → ∃ idx,
        SelectedFrom (List.replicate 20 {}) (List.replicate 20 default) 1
          (fun i => selectionKey (List.replicate 20 default) i 0) out idx) :=
  ⟨by decide, fun _ => rfl,
    selectInputs_keeps_order _ _ 1 _ (fun _ => 0) _ (by decide) fun _ => rfl⟩

end Generate

end TraceSynth
