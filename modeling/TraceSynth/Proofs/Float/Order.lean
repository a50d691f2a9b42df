import TraceSynth.Proofs.Float.Magnitude

/-!
# The order of floats

IEEE comparison is a lexicographic comparison once each float that is no NaN is placed on one
line: negative infinity, the negative finite floats by decreasing exponent and mantissa, the
zeros, the positive finite floats by exponent and mantissa, and positive infinity
(`Unpacked.rank`). The comparison of two such floats is the comparison of their ranks
(`Unpacked.compare_eq_rank`), so `<` and `≤` of floats are transitive, `≤` is reflexive off NaN,
and a NaN is comparable to nothing.
-/

namespace TraceSynth

namespace Unpacked

open Float.Model

/-- The place of a float that is no NaN on the line of floats. -/
def rank : UnpackedFloat → ℕ ×ₗ (ℤ ×ₗ ℤ)
  | .infinity .negative => toLex (0, toLex (0, 0))
  | .finite .negative m e _ => toLex (1, toLex (-e, -(m : ℤ)))
  | .zero _ => toLex (2, toLex (0, 0))
  | .finite .positive m e _ => toLex (3, toLex (e, (m : ℤ)))
  | .infinity .positive => toLex (4, toLex (0, 0))
  | .notANumber => toLex (0, toLex (0, 0))

theorem compare_toLex {α β : Type} [Ord α] [Ord β] (a c : α) (b d : β) :
    compare (toLex (a, b)) (toLex (c, d)) = (compare a c).then (compare b d) := rfl

theorem compare_neg (a b : ℤ) : compare (-a) (-b) = compare b a := by
  rcases lt_trichotomy a b with h | rfl | h
  · rw [compare_gt_iff_gt.2 (neg_lt_neg h), compare_gt_iff_gt.2 h]
  · simp
  · rw [compare_lt_iff_lt.2 (neg_lt_neg h), compare_lt_iff_lt.2 h]

theorem compare_natCast (a b : ℕ) : compare (a : ℤ) (b : ℤ) = compare a b := by
  rcases lt_trichotomy a b with h | rfl | h
  · rw [compare_lt_iff_lt.2 (by exact_mod_cast h), compare_lt_iff_lt.2 h]
  · simp
  · rw [compare_gt_iff_gt.2 (by exact_mod_cast h), compare_gt_iff_gt.2 h]

/-- Off NaN, IEEE comparison compares ranks. -/
theorem compare_eq_rank : ∀ {a b : UnpackedFloat}, a.isNaN = false → b.isNaN = false →
    a.compare b = some (compare (rank a) (rank b)) := by
  intro a b ha hb
  cases a with
  | notANumber => cases ha
  | infinity s =>
    cases b with
    | notANumber => cases hb
    | infinity t => cases s <;> cases t <;> rfl
    | zero t => cases s <;> rfl
    | finite t m e h => cases s <;> cases t <;> rfl
  | zero s =>
    cases b with
    | notANumber => cases hb
    | infinity t => cases t <;> rfl
    | zero t => rfl
    | finite t m e h => cases t <;> rfl
  | finite s m₁ e₁ h₁ =>
    cases b with
    | notANumber => cases hb
    | infinity t => cases s <;> cases t <;> rfl
    | zero t => cases s <;> rfl
    | finite t m₂ e₂ h₂ =>
      -- the negative floats compare their exponents and mantissas the other way round
      cases s <;> cases t
      all_goals simp only [rank, compare_toLex, compare_neg, compare_natCast,
        UnpackedFloat.compare]
      · rw [Ordering.swap_then, ← Std.OrientedCmp.eq_swap, ← Std.OrientedCmp.eq_swap]
        rfl
      all_goals rfl

/-- A NaN is comparable to nothing. -/
theorem compare_eq_none {a b : UnpackedFloat} (h : a.isNaN = true ∨ b.isNaN = true) :
    a.compare b = none := by
  rcases h with h | h
  · cases a <;> cases h
    cases b <;> rfl
  · cases b <;> cases h
    cases a <;> rfl

theorem isNaN_or {a b : UnpackedFloat} (h : ¬(a.isNaN = false ∧ b.isNaN = false)) :
    a.isNaN = true ∨ b.isNaN = true := by
  cases ha : a.isNaN <;> cases hb : b.isNaN <;> simp_all

theorem le_iff_rank {a b : UnpackedFloat} :
    a.le b = true ↔ a.isNaN = false ∧ b.isNaN = false ∧ rank a ≤ rank b := by
  by_cases h : a.isNaN = false ∧ b.isNaN = false
  · simp only [UnpackedFloat.le, compare_eq_rank h.1 h.2, Option.any_some, h, true_and]
    rw [← compare_le_iff_le]
    cases compare (rank a) (rank b) <;> decide
  · rw [UnpackedFloat.le, compare_eq_none (isNaN_or h)]
    exact iff_of_false Bool.false_ne_true fun h' => h ⟨h'.1, h'.2.1⟩

theorem lt_iff_rank {a b : UnpackedFloat} :
    a.lt b = true ↔ a.isNaN = false ∧ b.isNaN = false ∧ rank a < rank b := by
  by_cases h : a.isNaN = false ∧ b.isNaN = false
  · simp only [UnpackedFloat.lt, compare_eq_rank h.1 h.2, h, true_and, beq_iff_eq,
      Option.some.injEq]
    exact compare_lt_iff_lt
  · rw [UnpackedFloat.lt, compare_eq_none (isNaN_or h)]
    exact iff_of_false (by decide) fun h' => h ⟨h'.1, h'.2.1⟩

end Unpacked

namespace FloatOrder

open Unpacked

theorem le_iff {a b : Float} :
    a ≤ b ↔ a.isNaN = false ∧ b.isNaN = false ∧ rank a.toModel.unpack ≤ rank b.toModel.unpack := by
  show decide _ = true ↔ _
  rw [decide_eq_true_iff]
  exact le_iff_rank

theorem lt_iff {a b : Float} :
    a < b ↔ a.isNaN = false ∧ b.isNaN = false ∧ rank a.toModel.unpack < rank b.toModel.unpack := by
  show decide _ = true ↔ _
  rw [decide_eq_true_iff]
  exact lt_iff_rank

/-- `≤` is reflexive on the floats that are no NaN. -/
theorem le_refl {x : Float} (h : x.isNaN = false) : x ≤ x :=
  le_iff.2 ⟨h, h, le_rfl⟩

theorem le_trans {a b c : Float} (hab : a ≤ b) (hbc : b ≤ c) : a ≤ c := by
  obtain ⟨ha, -, hab⟩ := le_iff.1 hab
  obtain ⟨-, hc, hbc⟩ := le_iff.1 hbc
  exact le_iff.2 ⟨ha, hc, hab.trans hbc⟩

/-- A float at or above another is no NaN. -/
theorem isNaN_of_le {a b : Float} (h : a ≤ b) : b.isNaN = false := (le_iff.1 h).2.1

/-- A float strictly below another is no NaN. -/
theorem isNaN_of_lt {a b : Float} (h : a < b) : a.isNaN = false := (lt_iff.1 h).1

theorem lt_irrefl (x : Float) : ¬x < x := fun h => (lt_iff.1 h).2.2.false

theorem lt_trans {a b c : Float} (hab : a < b) (hbc : b < c) : a < c := by
  obtain ⟨ha, -, hab⟩ := lt_iff.1 hab
  obtain ⟨-, hc, hbc⟩ := lt_iff.1 hbc
  exact lt_iff.2 ⟨ha, hc, hab.trans hbc⟩

/-- Between floats that are no NaN, one not strictly below another is at or above it. -/
theorem le_of_not_lt {a b : Float} (ha : a.isNaN = false) (hb : b.isNaN = false) (h : ¬b < a) :
    a ≤ b :=
  le_iff.2 ⟨ha, hb, not_lt.1 fun hlt => h (lt_iff.2 ⟨hb, ha, hlt⟩)⟩

end FloatOrder

/-- A float that is zero or at least `2^k` is no NaN. -/
theorem Magnitude.ZeroOrAbove.isNaN {k : Int} {x : Float} (h : Magnitude.ZeroOrAbove k x) :
    x.isNaN = false := by
  unfold Magnitude.ZeroOrAbove at h
  show x.toModel.unpack.isNaN = false
  cases hx : x.toModel.unpack with
  | notANumber =>
    rw [hx] at h
    exact h.elim
  | _ => rfl

end TraceSynth
