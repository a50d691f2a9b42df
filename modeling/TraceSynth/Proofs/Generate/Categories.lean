import Mathlib.Data.List.Nodup
import Mathlib.Data.List.Forall2
import TraceSynth.Generate.Inputs

/-!
# Grouping inputs into categories

Before it looks for one program per behaviour, a search groups its inputs
(`Generate.categorize`). The group of an input is named by its key (`Generate.categoryKey`): the
loop proposal's pattern when the proposal explains the input's trace, else the skeleton of the
trace. Grouping is a partition of the positions of the pool that keeps their order: the keys
of the groups are distinct, every position lies in exactly one group, a group lists its
inputs, each with its own trace, in pool order, and the groups come in the order of their
first input.

The groups are the distinct keys in the order `List.eraseDups` keeps them, which is the order
of their first occurrences (`List.eraseDups_pairwise_first`); each group holds the positions of
its key (`Generate.categorize_eq_positions`).

## Main results

* `Generate.categorize_partition`: the groups partition the positions of the pool in order,
  each keyed by the loop or by the skeleton as its positions say.
-/

namespace List

variable {α : Type} [BEq α] [LawfulBEq α]

/-- The elements `eraseDups` keeps are distinct, and each occurs in the list before every
occurrence of the elements kept after it. -/
theorem eraseDups_pairwise_first (l : List α) :
    l.eraseDups.Pairwise fun x y => x ≠ y ∧ ∀ l₁ l₂, l = l₁ ++ y :: l₂ → x ∈ l₁ := by
  match l with
  | [] => simp
  | a :: as =>
    have ih := eraseDups_pairwise_first (as.filter fun b => !b == a)
    have hne : ∀ y ∈ (as.filter fun b => !b == a).eraseDups, y ≠ a := fun y hy => by
      simpa using (mem_filter.1 (mem_eraseDups.1 hy)).2
    rw [eraseDups_cons, pairwise_cons]
    refine ⟨fun y hy => ⟨(hne y hy).symm, fun l₁ l₂ hl => ?_⟩, ih.imp_of_mem ?_⟩
    · -- the list starts with `a`, and `y` is not `a`
      cases l₁ with
      | nil =>
        cases hl
        exact absurd rfl (hne _ hy)
      | cons b l₁ =>
        cases hl
        exact mem_cons_self
    · intro x y _ hy ⟨hxy, hfirst⟩
      refine ⟨hxy, fun l₁ l₂ hl => ?_⟩
      -- an occurrence of `y` in the tail is one in the tail without `a`
      cases l₁ with
      | nil =>
        cases hl
        exact absurd rfl (hne _ hy)
      | cons b l₁ =>
        cases hl
        have hcut : (l₁ ++ y :: l₂).filter (fun b => !b == a) =
            l₁.filter (fun b => !b == a) ++ y :: l₂.filter (fun b => !b == a) := by
          simp [filter_append, hne y hy]
        exact mem_cons_of_mem _ (mem_filter.1 (hfirst _ _ hcut)).1
termination_by l.length
decreasing_by
  have := length_filter_le (fun b => !b == a) as
  simp only [length_cons]
  omega

theorem nodup_eraseDups (l : List α) : l.eraseDups.Nodup :=
  (eraseDups_pairwise_first l).imp (·.1)

end List

namespace TraceSynth

namespace Generate

/-- The least position of a list of increasing positions comes first. -/
theorem headD_le_of_mem {is : List Nat} (hs : is.Pairwise (· < ·)) {k : Nat} (hk : k ∈ is)
    (d : Nat) : is.headD d ≤ k := by
  cases is with
  | nil => cases hk
  | cons j is =>
    rcases List.mem_cons.1 hk with rfl | hk
    · exact Nat.le_refl _
    · exact Nat.le_of_lt (List.rel_of_pairwise_cons hs hk)

/-- Pairing aligned lists of inputs and traces and numbering the pairs reads both lists at each
position. -/
theorem zipIdx_zip_eq_range {inputs : List Input} {traces : List Trace}
    (h : inputs.length = traces.length) :
    (inputs.zip traces).zipIdx =
      (List.range inputs.length).map fun k => ((inputs.getD k default, traces.getD k default), k) := by
  refine List.ext_getElem (by simp [h]) fun k h₁ h₂ => ?_
  have hk : k < inputs.length := by simpa using h₂
  simp [List.getElem_zipIdx, List.getElem?_eq_getElem hk, List.getElem?_eq_getElem (h ▸ hk)]

section Positions

variable (inputs : List Input) (traces : List Trace) (loop : Option Proposal)

/-- The key of the input at position `k`. -/
abbrev keyAt (k : Nat) : String := categoryKey loop k (traces.getD k default)

/-- The positions of the pool whose key is `c`, in order. -/
abbrev positionsOf (c : String) : List Nat :=
  (List.range inputs.length).filter fun k => keyAt traces loop k == c

/-- The distinct keys of the pool, in order of their first position. -/
abbrev keysOf : List String := ((List.range inputs.length).map (keyAt traces loop)).eraseDups

/-- Grouping, position by position: one group per distinct key, in order of first occurrence,
holding the inputs and traces at the positions of its key. -/
theorem categorize_eq_positions (h : inputs.length = traces.length) :
    categorize inputs traces loop = (keysOf inputs traces loop).map fun c =>
      { key := c, inputs := (positionsOf inputs traces loop c).map (inputs.getD · default),
        traces := (positionsOf inputs traces loop c).map (traces.getD · default) } := by
  simp only [categorize, zipIdx_zip_eq_range h, List.map_map, List.filter_map, Function.comp_def]

end Positions

/-- Only an input of the proposal's `worksFor` is keyed by the loop. -/
theorem categoryKey_eq_loop_iff (p : Proposal) (k : Nat) (t : Trace) :
    categoryKey (some p) k t = "loop:" ++ p.pattern ↔ k ∈ p.worksFor := by
  unfold categoryKey
  by_cases hk : k ∈ p.worksFor
  · simp [hk]
  · simp only [List.contains_iff_mem, hk, ↓reduceIte, iff_false]
    intro h
    have := congrArg String.toList h
    simp at this

/-- An input the loop does not explain is keyed by its trace's skeleton. -/
theorem categoryKey_of_not_loop {loop : Option Proposal} {k : Nat} (t : Trace)
    (hk : ∀ p, loop = some p → k ∉ p.worksFor) :
    categoryKey loop k t = "skeleton:" ++ t.skeleton := by
  unfold categoryKey
  cases loop with
  | none => rfl
  | some p => simp [hk p rfl]

/-- The group `c` holds the inputs at the positions `is` of the pool: at least one, in
increasing order, each with its own trace. It is keyed by the loop's pattern exactly when the
loop's proposal works for these positions, and otherwise by their traces' skeleton. -/
structure GroupAt (inputs : List Input) (traces : List Trace) (loop : Option Proposal)
    (c : Category) (is : List Nat) : Prop where
  nonempty : is ≠ []
  increasing : is.Pairwise (· < ·)
  inputs_eq : c.inputs = is.map (inputs.getD · default)
  traces_eq : c.traces = is.map (traces.getD · default)
  loop_iff : ∀ k ∈ is, ∀ p, loop = some p → (c.key = "loop:" ++ p.pattern ↔ k ∈ p.worksFor)
  skeleton : ∀ k ∈ is, (∀ p, loop = some p → k ∉ p.worksFor) →
    c.key = "skeleton:" ++ (traces.getD k default).skeleton

/-- The groups `cats` partition the pool in order, with the positions `idx` of each group: the
keys are distinct, every position of the pool lies in exactly one group, and the groups come in
the order of their first position. -/
structure Grouping (inputs : List Input) (traces : List Trace) (loop : Option Proposal)
    (cats : List Category) (idx : List (List Nat)) : Prop where
  keys_nodup : (cats.map (·.key)).Nodup
  exactly_once : idx.flatten.Perm (List.range inputs.length)
  first_order : (idx.map (·.headD 0)).Pairwise (· < ·)
  groups : List.Forall₂ (GroupAt inputs traces loop) cats idx

section Groups

variable (inputs : List Input) (traces : List Trace) (loop : Option Proposal)

theorem positionsOf_increasing (c : String) : (positionsOf inputs traces loop c).Pairwise (· < ·) :=
  List.pairwise_lt_range.filter _

theorem mem_keysOf {c : String} (hc : c ∈ keysOf inputs traces loop) :
    ∃ k, k < inputs.length ∧ keyAt traces loop k = c := by
  simpa using List.mem_eraseDups.1 hc

/-- Every position of the pool lies in the positions of exactly one key. -/
theorem positionsOf_flatten_perm :
    ((keysOf inputs traces loop).map (positionsOf inputs traces loop)).flatten.Perm
      (List.range inputs.length) := by
  have hfirst := List.eraseDups_pairwise_first ((List.range inputs.length).map (keyAt traces loop))
  refine (List.perm_ext_iff_of_nodup ?_ List.nodup_range).2 fun k => ?_
  · -- the positions of one key are distinct, and those of two distinct keys are apart
    refine List.nodup_flatten.2 ⟨?_, ?_⟩
    · simp only [List.mem_map]
      rintro _ ⟨c, -, rfl⟩
      exact List.nodup_range.filter _
    · refine List.pairwise_map.2 ((hfirst.imp (·.1)).imp fun hne => ?_)
      intro k hk hk'
      simp only [List.mem_filter, beq_iff_eq] at hk hk'
      exact hne (hk.2.symm.trans hk'.2)
  · simp only [List.mem_flatten, List.mem_map, List.mem_range]
    constructor
    · rintro ⟨_, ⟨c, -, rfl⟩, hk⟩
      exact List.mem_range.1 (List.mem_filter.1 hk).1
    · intro hk
      refine ⟨_, ⟨keyAt traces loop k, List.mem_eraseDups.2 (List.mem_map_of_mem
        (List.mem_range.2 hk)), rfl⟩, List.mem_filter.2 ⟨List.mem_range.2 hk, by simp⟩⟩

/-- A later key first occurs after an occurrence of every earlier key, so the first positions of
the keys increase. -/
theorem positionsOf_first_order :
    ((keysOf inputs traces loop).map fun c => (positionsOf inputs traces loop c).headD 0).Pairwise
      (· < ·) := by
  have hfirst := List.eraseDups_pairwise_first ((List.range inputs.length).map (keyAt traces loop))
  refine List.pairwise_map.2 (hfirst.imp_of_mem fun {c c'} _ hc' ⟨_, hbefore⟩ => ?_)
  obtain ⟨k₀, hk₀, hkey₀⟩ := mem_keysOf inputs traces loop hc'
  have hmem₀ : k₀ ∈ positionsOf inputs traces loop c' :=
    List.mem_filter.2 ⟨List.mem_range.2 hk₀, by simp [hkey₀]⟩
  obtain ⟨k', hk'⟩ : ∃ k', (positionsOf inputs traces loop c').head? = some k' := by
    cases hpos : positionsOf inputs traces loop c' with
    | nil => rw [hpos] at hmem₀; cases hmem₀
    | cons k' _ => exact ⟨k', rfl⟩
  obtain ⟨hk'lt, hk'key⟩ := List.mem_filter.1 (List.mem_of_head? hk')
  rw [List.mem_range] at hk'lt
  simp only [beq_iff_eq] at hk'key
  -- cut the keys of the pool at the first position of `c'`
  set ks := (List.range inputs.length).map (keyAt traces loop)
  have hlen : k' < ks.length := by simpa [ks] using hk'lt
  have hget : ks[k'] = c' := by simp [ks, hk'key]
  have hcut : ks = ks.take k' ++ c' :: ks.drop (k' + 1) := by
    rw [← hget, ← List.drop_eq_getElem_cons hlen, List.take_append_drop]
  obtain ⟨k, hk, hkey⟩ : ∃ k, k < k' ∧ keyAt traces loop k = c := by
    obtain ⟨k, hk, hkey⟩ := List.getElem_of_mem (hbefore _ _ hcut)
    simp only [List.length_take, List.getElem_take, ks, List.getElem_map,
      List.getElem_range] at hk hkey
    exact ⟨k, by omega, hkey⟩
  have hkmem : k ∈ positionsOf inputs traces loop c :=
    List.mem_filter.2 ⟨List.mem_range.2 (by omega), by simp [hkey]⟩
  calc (positionsOf inputs traces loop c).headD 0
      ≤ k := headD_le_of_mem (positionsOf_increasing inputs traces loop c) hkmem 0
    _ < k' := hk
    _ = (positionsOf inputs traces loop c').headD 0 := by simp [List.headD_eq_head?_getD, hk']

/-- The group of a key holds the inputs at its positions, keyed as those positions say. -/
theorem groupAt_positionsOf {c : String} (hc : c ∈ keysOf inputs traces loop) :
    GroupAt inputs traces loop
      { key := c, inputs := (positionsOf inputs traces loop c).map (inputs.getD · default),
        traces := (positionsOf inputs traces loop c).map (traces.getD · default) }
      (positionsOf inputs traces loop c) := by
  obtain ⟨k₀, hk₀, hkey₀⟩ := mem_keysOf inputs traces loop hc
  -- each position of the group has the group's key
  have hkey : ∀ k ∈ positionsOf inputs traces loop c, keyAt traces loop k = c := fun k hk => by
    simpa using (List.mem_filter.1 hk).2
  refine ⟨List.ne_nil_of_mem (List.mem_filter.2 ⟨List.mem_range.2 hk₀, by simp [hkey₀]⟩),
    positionsOf_increasing inputs traces loop c, rfl, rfl, fun k hk p hp => ?_, fun k hk hnot => ?_⟩
  · rw [← hkey k hk, hp]
    exact categoryKey_eq_loop_iff p k _
  · rw [← hkey k hk]
    exact categoryKey_of_not_loop _ hnot

end Groups

/-- Categorizing partitions the positions of the pool in order, each group keyed by the loop or
by the skeleton as its positions say. -/
theorem categorize_partition (inputs : List Input) (traces : List Trace)
    (loop : Option Proposal) (h : inputs.length = traces.length) :
    ∃ idx, Grouping inputs traces loop (categorize inputs traces loop) idx := by
  rw [categorize_eq_positions inputs traces loop h]
  refine ⟨(keysOf inputs traces loop).map (positionsOf inputs traces loop),
    ⟨?_, positionsOf_flatten_perm inputs traces loop, ?_, ?_⟩⟩
  · simp only [List.map_map, Function.comp_def, List.map_id']
    exact List.nodup_eraseDups _
  · rw [List.map_map]
    exact positionsOf_first_order inputs traces loop
  · refine List.forall₂_map_left_iff.2 (List.forall₂_map_right_iff.2 (List.forall₂_same.2 ?_))
    exact fun c hc => groupAt_positionsOf inputs traces loop hc

/-- A proposal that works for the second of three inputs, with no loop of its own. -/
def Proposal.second : Proposal :=
  { pattern := "(g)*", source := default, start := 0, length := 0, sharedLen := 0, thenPos := 0,
    thenLen := 0, elsePos := 0, elseLen := 0, branches := false, worksFor := [1], preTags := [],
    sharedTags := [], thenTags := [], elseTags := [], postTags := [] }

/-- Three inputs, the second explained by the loop: the first and third share their skeleton's
group, the second is alone in the loop's. -/
theorem categorize_partition_loop_middle :
    ([{}, {}, {}] : List Input).length = ([default, default, default] : List Trace).length ∧
    ∃ idx, Grouping [{}, {}, {}] [default, default, default] (some Proposal.second)
      (categorize [{}, {}, {}] [default, default, default] (some Proposal.second)) idx :=
  ⟨rfl, categorize_partition _ _ _ rfl⟩

end Generate

end TraceSynth
