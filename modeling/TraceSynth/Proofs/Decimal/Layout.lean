import TraceSynth.Value.Convert
import Mathlib.Data.List.Infix

/-!
# Where the text of a number turns to exponent form

A number's text (`Value.formatNumber`) writes its shortest digits positionally when the
exponent of the first digit is in `-4 ..= 5`, and otherwise in exponent form with a sign and at
least two exponent digits (`Style.general`). ECMAScript's `Number::toString` (ECMA-262,
section 6.1.6.1.20) picks the same digits, writes them positionally for first-digit exponents
in `-6 ..= 20`, and otherwise gives the exponent a sign and no padding (`Style.ecma`,
`Value.ecmaText`).

The two texts are built from the same digits, so they differ only in layout: a positional text
has no exponent mark, and two exponent forms differ only in the padding of a one-digit
exponent.

## Main results

* `Binary64.writeFinite_general_eq_ecma_iff`: the two layouts of a number agree exactly when
  its first-digit exponent is in `-4 ..= 5`, at most `-10` or at least `21`;
* `Value.formatNumber_eq_ecmaText_iff`: so the number's text is the ECMAScript text exactly on
  NaN, the infinities, the zeros and those numbers;
* `Value.formatNumber_million`: a million is written `1e+06`, where ECMAScript writes
  `1000000`, and no array index is read from that key.
-/

namespace TraceSynth

namespace Digits

/-- The digits of a natural number are decimal digits. -/
theorem lt_ten_of_mem_ofNat {n d : Nat} (h : d ∈ ofNat n) : d < 10 := by
  induction n using Nat.strong_induction_on with
  | _ n ih =>
    rw [ofNat] at h
    split at h
    · simp only [List.mem_singleton] at h
      omega
    · simp only [List.mem_append, List.mem_singleton] at h
      rcases h with h | rfl
      · exact ih (n / 10) (by omega) h
      · exact Nat.mod_lt _ (by decide)

/-- A natural number has one digit exactly when it is below ten. -/
theorem length_ofNat_eq_one_iff (n : Nat) : (ofNat n).length = 1 ↔ n < 10 := by
  rw [ofNat]
  split
  · simp [*]
  · have hne : ofNat (n / 10) ≠ [] := by
      rw [ofNat]; split <;> simp
    simp only [List.length_append, List.length_singleton, Nat.add_eq_right, List.length_eq_zero_iff]
    simp [hne]
    omega

theorem lt_ten_of_mem_ofInteger {n d : Nat} {shift : Int} (h : d ∈ (ofInteger n shift).digits) :
    d < 10 := by
  simp only [ofInteger, List.mem_reverse] at h
  exact lt_ten_of_mem_ofNat (List.mem_reverse.1 ((List.dropWhile_suffix _).subset h))

/-- A candidate on a digit grid is the integer it picks, placed on that grid. -/
theorem candidate_eq_ofInteger {m : Nat} {e bigE : Int} {n : Nat} {c : Digits}
    (h : candidate m e bigE n = some c) : ∃ q j, c = ofInteger q j := by
  unfold candidate at h
  dsimp only at h
  obtain ⟨q, -, rfl⟩ := Option.map_eq_some_iff.1 h
  exact ⟨q, _, rfl⟩

theorem search_eq_ofInteger (m : Nat) (e bigE : Int) :
    ∀ fuel n, ∃ q j, shortest.search m e bigE fuel n = ofInteger q j
  | 0, _ => ⟨m, 0, rfl⟩
  | fuel + 1, n => by
    rw [shortest.search]
    split
    next c hc => exact (candidate_eq_ofInteger hc).imp fun q ⟨j, hj⟩ => ⟨j, hj⟩
    next => exact search_eq_ofInteger m e bigE fuel (n + 1)

/-- The shortest digits of a number are decimal digits. -/
theorem lt_ten_of_mem_shortest {m : Nat} {e : Int} {d : Nat} (h : d ∈ (shortest m e).digits) :
    d < 10 := by
  unfold shortest at h
  split at h
  · exact lt_ten_of_mem_ofInteger h
  · obtain ⟨q, j, hq⟩ := search_eq_ofInteger m e _ 17 1
    rw [hq] at h
    exact lt_ten_of_mem_ofInteger h

theorem toList_text (ds : List Nat) : (text ds).toList = ds.map fun d => Char.ofNat (48 + d) := by
  simp [text]

/-- The character of a decimal digit is no exponent mark. -/
theorem digit_char_ne_e {d : Nat} (h : d < 10) : Char.ofNat (48 + d) ≠ 'e' := by
  have hall : ∀ d < 10, Char.ofNat (48 + d) ≠ 'e' := by decide
  exact hall d h

theorem e_not_mem_text {ds : List Nat} (h : ∀ d ∈ ds, d < 10) : 'e' ∉ (text ds).toList := by
  rw [toList_text, List.mem_map]
  rintro ⟨d, hd, heq⟩
  exact digit_char_ne_e (h d hd) heq

theorem e_not_mem_zeros (n : Nat) : 'e' ∉ (zeros n).toList := by
  simp [zeros, List.mem_replicate]

/-- Positional text has no exponent mark. -/
theorem e_not_mem_positional (d : Digits) (h : ∀ x ∈ d.digits, x < 10) :
    'e' ∉ d.positional.toList := by
  have htake : ∀ x ∈ d.digits.take d.point.toNat, x < 10 :=
    fun x hx => h x (List.mem_of_mem_take hx)
  have hdrop : ∀ x ∈ d.digits.drop d.point.toNat, x < 10 :=
    fun x hx => h x (List.mem_of_mem_drop hx)
  unfold positional
  dsimp only
  split
  · simp [e_not_mem_text h, e_not_mem_zeros]
  · split
    · simp [e_not_mem_text h, e_not_mem_zeros]
    · simp [e_not_mem_text htake, e_not_mem_text hdrop]

/-- Exponent form has an exponent mark. -/
theorem e_mem_scientific (d : Digits) (width : Nat) : 'e' ∈ (d.scientific width).toList := by
  simp [scientific]

/-- Two exponent forms of the same digits agree exactly when no padding is needed for either,
that is when the exponent has at least two digits. -/
theorem scientific_two_eq_one_iff (d : Digits) :
    d.scientific 2 = d.scientific 1 ↔ 10 ≤ (d.point - 1).natAbs := by
  have hone : 1 ≤ (ofNat (d.point - 1).natAbs).length := by
    rw [ofNat]; split <;> simp
  rw [String.ext_iff]
  simp only [scientific, String.toList_append, List.append_assoc, List.append_right_inj, toList_text,
    List.map_append]
  rw [List.append_left_inj]
  rcases Nat.lt_or_ge (d.point - 1).natAbs 10 with hlt | hge
  · -- a one-digit exponent is padded to two digits in one form only
    have hlen := (length_ofNat_eq_one_iff _).2 hlt
    simp only [hlen]
    constructor
    · intro heq
      simp at heq
    · intro h
      omega
  · have hlen : 2 ≤ (ofNat (d.point - 1).natAbs).length := by
      have hne : (ofNat (d.point - 1).natAbs).length ≠ 1 :=
        fun h => absurd ((length_ofNat_eq_one_iff _).1 h) (by omega)
      omega
    simp only [Nat.sub_eq_zero_of_le hlen, Nat.sub_eq_zero_of_le hone, List.replicate_zero]
    exact iff_of_true trivial hge

end Digits

namespace Binary64

/-- The layout of ECMAScript's `Number::toString`: positional for first-digit exponents
`-6 ..= 20`, and otherwise an exponent with a sign and no padding (`1e+21`, `1.5e-7`). -/
def Style.ecma : Style := ⟨fun _ x => -6 ≤ x && x < 21, 1⟩

/-- The exponent of the first digit of a finite nonzero number's shortest digits. -/
def firstExponent (x : Float) : Option Int :=
  match parts x with
  | .finite _ m e => if m == 0 then none else some ((Digits.shortest m e).point - 1)
  | _ => none

/-- The general layout and the ECMAScript layout write a number alike exactly when its
first-digit exponent is in `-4 ..= 5` (both positional), or at most `-10` or at least `21`
(both in exponent form with at least two exponent digits). -/
theorem writeFinite_general_eq_ecma_iff (x : Float) :
    writeFinite .general x = writeFinite .ecma x ↔
      ∀ k, firstExponent x = some k → (-4 ≤ k ∧ k ≤ 5) ∨ k ≤ -10 ∨ 21 ≤ k := by
  unfold writeFinite firstExponent
  rcases hx : parts x with _ | neg | ⟨neg, m, e⟩
  · simp
  · simp
  by_cases hm : m = 0
  · simp [hm]
  -- the sign and digits are shared; only the layout of the digits can differ
  have hpos := Digits.e_not_mem_positional (Digits.shortest m e)
    fun _ hd => Digits.lt_ten_of_mem_shortest hd
  simp only [beq_iff_eq, hm, if_false, Option.some.injEq, forall_eq']
  rw [String.ext_iff, String.toList_append, String.toList_append, List.append_right_inj,
    ← String.ext_iff]
  simp only [Style.general, Style.ecma]
  generalize hk : (Digits.shortest m e).point - 1 = k
  by_cases hg : -4 ≤ k ∧ k < 6
  · -- both positional
    have hgt : (decide (-4 ≤ k) && decide (k < 6)) = true := by
      simpa [Bool.and_eq_true] using hg
    have het : (decide (-6 ≤ k) && decide (k < 21)) = true := by
      simp only [Bool.and_eq_true, decide_eq_true_eq]
      omega
    simp only [hgt, het, if_true]
    exact iff_of_true trivial (.inl ⟨hg.1, by omega⟩)
  have hgf : (decide (-4 ≤ k) && decide (k < 6)) = false := by
    simpa [Bool.and_eq_true] using hg
  by_cases he : -6 ≤ k ∧ k < 21
  · -- exponent form against positional text: only one has an exponent mark
    simp only [hgf, he, decide_true, Bool.and_self, Bool.false_eq_true, if_true, if_false]
    refine iff_of_false (fun heq => hpos (heq ▸ Digits.e_mem_scientific _ 2)) ?_
    omega
  · -- both in exponent form
    have hef : (decide (-6 ≤ k) && decide (k < 21)) = false := by
      simpa [Bool.and_eq_true] using he
    simp only [hgf, hef, Bool.false_eq_true, if_false]
    rw [Digits.scientific_two_eq_one_iff, hk]
    omega

end Binary64

namespace Value

/-- The text ECMAScript's `Number::toString` gives a number: `NaN`, `Infinity`, `-Infinity`,
`0` for either zero, and otherwise its shortest digits in the layout `Style.ecma`. -/
def ecmaText (n : Float) : String :=
  if isNaN n then "NaN"
  else if n == Binary64.infinity false then "Infinity"
  else if n == Binary64.infinity true then "-Infinity"
  else if n == 0 then "0"
  else Binary64.writeFinite .ecma n

/-- A number's text is its ECMAScript text exactly on NaN, the infinities, the zeros, and the
numbers whose first-digit exponent is in `-4 ..= 5`, at most `-10` or at least `21`. -/
theorem formatNumber_eq_ecmaText_iff (n : Float) :
    formatNumber n = ecmaText n ↔
      (isNaN n ∨ n == Binary64.infinity false ∨ n == Binary64.infinity true ∨ n == 0) ∨
        ∀ k, Binary64.firstExponent n = some k → (-4 ≤ k ∧ k ≤ 5) ∨ k ≤ -10 ∨ 21 ≤ k := by
  unfold formatNumber ecmaText
  by_cases hspecial : isNaN n ∨ n == Binary64.infinity false ∨ n == Binary64.infinity true ∨ n == 0
  · -- both texts take the same special branch
    simp only [hspecial, true_or, iff_true]
    rcases hspecial with h | h | h | h <;> simp [h]
  · simp only [not_or, Bool.not_eq_true] at hspecial
    obtain ⟨h1, h2, h3, h4⟩ := hspecial
    simp only [h1, h2, h3, h4, Bool.false_eq_true, if_false, or_self, false_or]
    exact Binary64.writeFinite_general_eq_ecma_iff n

/-- A million is written `1e+06`, where ECMAScript writes `1000000`; and the key that number
names is no array index. -/
theorem formatNumber_million :
    formatNumber 1000000 = "1e+06" ∧ ecmaText 1000000 = "1000000" ∧
      arrayIndex (propertyKey (.number 1000000)) = none := by
  decide +kernel

end Value

end TraceSynth
