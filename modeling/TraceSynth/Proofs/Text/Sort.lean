import TraceSynth.Text.Sort

/-!
# Stable sorting

`sortStable` permutes its list, and with a total and transitive comparison it puts out exactly
the list `List.mergeSort` does (`sortStable_eq_mergeSort`): the merge sort of `a :: l` places
`a` after the elements of the merge sort of `l` that it may not precede and before the others
(`List.mergeSort_cons`), which is where inserting `a` puts it. Facts about the sorted lists of
the model then come from the library's merge sort lemmas.
-/

namespace TraceSynth

variable {α : Type} (le : α → α → Bool)

theorem insertStable_perm (a : α) : ∀ l : List α, (insertStable le a l).Perm (a :: l)
  | [] => .refl _
  | b :: l => by
    unfold insertStable
    split
    · exact .refl _
    · exact ((insertStable_perm a l).cons b).trans (.swap a b l)

theorem sortStable_perm : ∀ l : List α, (sortStable le l).Perm l
  | [] => .refl _
  | a :: l => (insertStable_perm le a _).trans ((sortStable_perm l).cons a)

@[simp] theorem mem_sortStable {l : List α} {x : α} : x ∈ sortStable le l ↔ x ∈ l :=
  (sortStable_perm le l).mem_iff

@[simp] theorem length_sortStable (l : List α) : (sortStable le l).length = l.length :=
  (sortStable_perm le l).length_eq

/-- A list already in order is its own stable sort: each element precedes the rest. -/
theorem sortStable_of_pairwise : ∀ {l : List α}, l.Pairwise (fun a b => le a b = true) →
    sortStable le l = l
  | [], _ => rfl
  | a :: l, h => by
    rw [List.pairwise_cons] at h
    rw [sortStable, sortStable_of_pairwise h.2]
    cases l with
    | nil => rfl
    | cons b l => simp [insertStable, h.1 b List.mem_cons_self]

/-- Inserting `a` into `l₁ ++ l₂` passes the elements of `l₁`, which it may not precede, and
stops before those of `l₂`, which it may. -/
theorem insertStable_append {a : α} {l₁ l₂ : List α} (h₁ : ∀ b ∈ l₁, le a b = false)
    (h₂ : ∀ c ∈ l₂, le a c = true) : insertStable le a (l₁ ++ l₂) = l₁ ++ a :: l₂ := by
  induction l₁ with
  | nil =>
    cases l₂ with
    | nil => rfl
    | cons c l₂ => simp [insertStable, h₂ c List.mem_cons_self]
  | cons b l₁ ih =>
    rw [List.cons_append, insertStable, h₁ b List.mem_cons_self, ih fun b' hb' =>
      h₁ b' (List.mem_cons_of_mem b hb')]
    rfl

/-- With a total and transitive comparison, the stable insertion sort is the merge sort. -/
theorem sortStable_eq_mergeSort (trans : ∀ a b c, le a b → le b c → le a c)
    (total : ∀ a b, le a b || le b a) : ∀ l : List α, sortStable le l = l.mergeSort le
  | [] => by simp [sortStable]
  | a :: l => by
    obtain ⟨l₁, l₂, h₁, h₂, h₃⟩ := List.mergeSort_cons trans total a l
    -- the merge sort of the whole list has `a` before every element of `l₂`
    have hsorted := List.pairwise_mergeSort trans total (a :: l)
    rw [h₁, List.pairwise_append] at hsorted
    have hafter : ∀ c ∈ l₂, le a c = true := (List.pairwise_cons.1 hsorted.2.1).1
    rw [sortStable, sortStable_eq_mergeSort trans total l, h₂, h₁,
      insertStable_append le (fun b hb => by simpa using h₃ b hb) hafter]

/-- Natural numbers sorted ascending, stably or by merging: the same list. -/
theorem sortStable_le_eq_mergeSort (l : List Nat) :
    sortStable (· ≤ ·) l = l.mergeSort (· ≤ ·) :=
  sortStable_eq_mergeSort _ (fun a b c hab hbc => by simp only [decide_eq_true_eq] at *; omega)
    (fun a b => by simp only [Bool.or_eq_true, decide_eq_true_eq]; omega) l

end TraceSynth
