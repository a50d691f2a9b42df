import TraceSynth.Random.Source

/-!
# What random computations give, whatever the stream

A random computation reads and advances the source, and most of what the engine needs of one
does not depend on the stream: every result it can give satisfies some property
(`RandM.Always`). Such facts compose along `bind`, and the draws the engine is built on have
them: a number drawn below `n > 0` is below `n` (`Random.intn_lt`), whichever of the two widths
draws it.
-/

namespace TraceSynth

namespace RandM

variable {α β : Type}

/-- Every result of a random computation satisfies `P`, whatever the stream. -/
def Always (x : RandM α) (P : α → Prop) : Prop := ∀ rng, P (x.run rng).1

theorem Always.pure {a : α} {P : α → Prop} (h : P a) : Always (Pure.pure a) P := fun _ => h

theorem Always.bind {x : RandM α} {P : α → Prop} {f : α → RandM β} {Q : β → Prop}
    (hx : Always x P) (hf : ∀ a, P a → Always (f a) Q) : Always (x >>= f) Q :=
  fun rng => hf _ (hx rng) _

theorem Always.of_run {x : RandM α} {P : α → Prop} (hx : Always x P) {rng rng' : Rng} {a : α}
    (h : x.run rng = (a, rng')) : P a := by
  have := hx rng
  rw [h] at this
  exact this

theorem Always.mono {x : RandM α} {P Q : α → Prop} (hx : Always x P) (h : ∀ a, P a → Q a) :
    Always x Q :=
  fun rng => h _ (hx rng)

/-- Every computation gives results satisfying `True`: the first step of a `bind` whose result
does not matter. -/
theorem Always.triv (x : RandM α) : Always x fun _ => True := fun _ => trivial

theorem Always.map {x : RandM α} {f : α → β} {Q : β → Prop} (hx : Always x fun a => Q (f a)) :
    Always (f <$> x) Q :=
  fun rng => hx rng

theorem Always.ite {c : Prop} [Decidable c] {x y : RandM α} {P : α → Prop} (hx : c → Always x P)
    (hy : ¬c → Always y P) : Always (if c then x else y) P := by
  split
  · exact hx ‹c›
  · exact hy ‹¬c›

theorem Always.foldlM {f : β → α → RandM β} {P : β → Prop} :
    ∀ {l : List α}, (∀ acc x, x ∈ l → P acc → Always (f acc x) P) →
      ∀ init, P init → Always (l.foldlM f init) P
  | [], _, _, h => Always.pure h
  | x :: l, hf, init, h => by
    rw [List.foldlM_cons]
    exact Always.bind (hf init x (List.mem_cons_self ..) h) fun acc hacc =>
      Always.foldlM (fun acc' y hy => hf acc' y (List.mem_cons_of_mem _ hy)) acc hacc

end RandM

namespace Random

open RandM

/-- A draw below `n` from a source of raw numbers `draw`: masked when `n` is a power of two,
otherwise reduced modulo `n` after redrawing above `max`. Both widths draw this way. -/
theorem below_lt (draw : RandM Nat) (max : Nat) {n : Nat} (hn : 0 < n) :
    Always (if n &&& (n - 1) == 0 then do
        let v ← draw
        Pure.pure (v &&& (n - 1))
      else do
        let v ← redrawAbove draw max 1000 (← draw)
        Pure.pure (v % n)) (· < n) := by
  refine Always.ite (fun _ => ?_) fun _ => ?_
  · exact (Always.triv _).bind fun v _ => Always.pure (by have := @Nat.and_le_right v (n - 1); omega)
  · exact (Always.triv _).bind fun v _ => (Always.triv _).bind fun w _ =>
      Always.pure (Nat.mod_lt w hn)

theorem int31n_lt {n : Nat} (hn : 0 < n) : Always (int31n n) (· < n) :=
  below_lt int31 _ hn

theorem int63n_lt {n : Nat} (hn : 0 < n) : Always (int63n n) (· < n) :=
  below_lt int63 _ hn

/-- A number drawn below `n > 0` is below `n`. -/
theorem intn_lt {n : Nat} (hn : 0 < n) : Always (intn n) (· < n) := by
  unfold intn
  split
  · exact int31n_lt hn
  · exact int63n_lt hn

/-- Placing `y` at position `j` and moving what stood there to the end permutes the list with
`y` appended. -/
theorem set_append_perm {l : List Nat} {j : Nat} (hj : j < l.length) (y : Nat) :
    (l.set j y ++ [l[j]]).Perm (l ++ [y]) := by
  rw [List.perm_iff_count]
  intro b
  have hpos : (l[j] == b) = true → 0 < l.count b := fun h =>
    List.count_pos_iff.2 (by rw [← eq_of_beq h]; exact List.getElem_mem hj)
  rw [List.count_append, List.count_append, List.count_set hj, List.count_singleton,
    List.count_singleton]
  by_cases h₁ : (l[j] == b) = true <;> by_cases h₂ : (y == b) = true <;>
    simp only [h₁, h₂, ↓reduceIte] at hpos ⊢ <;> simp_all

/-- One round of the shuffle: `i` goes to a drawn place `j ≤ i` and what stood there moves to
the end, so a permutation of the first `i` places becomes one of the first `i + 1`. -/
theorem shuffle_step_perm {m : Array Nat} {i j : Nat} (hsize : m.size = i)
    (hm : m.toList.Perm (List.range i)) (hj : j < i + 1) :
    (((m.push 0).set! i ((m.push 0).getD j 0)).set! j i).toList.Perm (List.range (i + 1)) := by
  simp only [Array.toList_set!, Array.toList_push]
  rw [List.range_succ]
  rcases Nat.lt_succ_iff_lt_or_eq.1 hj with hj | rfl
  · -- `j` is an old place: its entry moves to the end
    have hjl : j < m.toList.length := by simpa [hsize] using hj
    have hget : (m.push 0).getD j 0 = m.toList[j] := by
      simp [Array.getD, Array.getElem_push, hsize, hj, Nat.lt_succ_of_lt hj]
    rw [hget, List.set_append_right _ _ (by simp [hsize]), List.set_append_left _ _ (by simpa [hsize] using hj)]
    simp only [Array.length_toList, hsize, Nat.sub_self, List.set_cons_zero]
    exact (set_append_perm _ i).trans (hm.append_right [i])
  · -- `j` is the new place: `j` itself goes there
    have hget : (m.push 0).getD j 0 = 0 := by simp [Array.getD, Array.getElem_push, hsize]
    rw [hget, List.set_append_right _ _ (by simp [hsize]), List.set_append_right _ _ (by simp [hsize])]
    simp only [Array.length_toList, hsize, Nat.sub_self, List.set_cons_zero]
    exact hm.append_right [j]

/-- The shuffle after `k` rounds holds a permutation of `0 ..< k`. -/
theorem shuffle_perm : ∀ k, Always ((List.range k).foldlM (fun (m : Array Nat) i => do
      let j ← intn (i + 1)
      let m := m.push 0
      let m := m.set! i (m.getD j 0)
      pure (m.set! j i)) #[]) fun m => m.size = k ∧ m.toList.Perm (List.range k)
  | 0 => Always.pure ⟨rfl, by simp⟩
  | k + 1 => by
    rw [List.range_succ, List.foldlM_append]
    refine (shuffle_perm k).bind fun m ⟨hsize, hm⟩ => ?_
    simp only [List.foldlM_cons, List.foldlM_nil, bind_pure]
    refine (intn_lt (Nat.succ_pos k)).bind fun j hj => Always.pure ⟨?_, ?_⟩
    · simp [hsize]
    · rw [← List.range_succ]
      exact shuffle_step_perm hsize hm hj

/-- A permutation drawn of `0 ..< n` is one. -/
theorem perm_perm (n : Nat) : Always (perm n) fun l => l.Perm (List.range n) :=
  (shuffle_perm n).bind fun _ h => Always.pure h.2

end Random

end TraceSynth
