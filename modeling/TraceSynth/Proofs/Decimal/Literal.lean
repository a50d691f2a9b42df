import TraceSynth.Proofs.Program.Layout
import TraceSynth.Proofs.Decimal.Shortest
import TraceSynth.Proofs.Decimal.Layout
import TraceSynth.Proofs.Text.Unquote
import TraceSynth.Proofs.Heap.Bisimilarity

/-!
# Number texts read back

A number is written as the shortest digits that round back to it (`Digits.shortest`), placed
positionally or with an exponent (`Binary64.writeFinite`), with `NaN`, `Infinity`,
`-Infinity` and `0` for the special values (`Value.formatNumber`). The program reader takes a
leading minus as a negation and reads the rest with the float reader (`Reading.float`).

Every text the writer makes for a finite nonzero number is a decimal literal: whole digits, a
fraction after a point, an exponent with its sign (`Reading.DecimalText`). The float reader
takes such a literal apart into the integer of its digits and a power of ten
(`DecimalText.literal_bytes`) and rounds that quotient to binary64 (`float_bytes`). The
quotient is the value of the shortest digits, which lies in the rounding interval of the
number (`Digits.shortest_roundsTo`), so the rounding gives the number back
(`Binary64.round_of_roundsTo`).

## Main results

* `DecimalText.literal_bytes`: the float reader's view of a decimal literal;
* `Binary64.writeFinite_general`: the writer's text of a finite nonzero number is a decimal
  literal of the value of its shortest digits;
* `Value.numberValue_formatNumber`: every number's text is accepted and reads back as the
  same value.
-/

namespace TraceSynth.Reading

/-- The bytes of decimal digits. -/
def digitBytes (ds : List Nat) : List UInt8 := ds.map fun d => (48 + d).toUInt8

theorem digitBytes_cons (d : Nat) (ds : List Nat) :
    digitBytes (d :: ds) = (48 + d).toUInt8 :: digitBytes ds := rfl

theorem digitBytes_append (a b : List Nat) : digitBytes (a ++ b) = digitBytes a ++ digitBytes b :=
  List.map_append

theorem isDigit_of_lt_ten {d : Nat} (hd : d < 10) : isDigit (48 + d).toUInt8 = true := by
  have h : ((48 + d).toUInt8).toNat = 48 + d := by
    simp only [Nat.toUInt8_eq, UInt8.toNat_ofNat']; omega
  simp only [isDigit, Bool.and_eq_true, decide_eq_true_eq, UInt8.le_iff_toNat_le, h]
  refine ⟨by simp, ?_⟩
  simp only [UInt8.toNat_ofNat]
  omega

theorem toNat_digitByte {d : Nat} (hd : d < 10) : ((48 + d).toUInt8).toNat = 48 + d := by
  simp only [Nat.toUInt8_eq, UInt8.toNat_ofNat']
  omega

/-- A digit's byte is no byte outside the digits. -/
theorem digitByte_beq {d : Nat} (hd : d < 10) {k : UInt8} (hk : k.toNat < 48 ∨ 57 < k.toNat) :
    ((48 + d).toUInt8 == k) = false := by
  rw [beq_eq_false_iff_ne, ne_eq, UInt8.ext_iff, toNat_digitByte hd]
  omega

theorem mantissaDigits_digitBytes {ds : List Nat} (hds : ∀ d ∈ ds, d < 10) (rest : List UInt8)
    (m : Nat) (frac : Int) (dot any us : Bool) :
    mantissaDigits false (digitBytes ds ++ rest) m frac dot any us =
      mantissaDigits false rest (m * 10 ^ ds.length + Digits.number ds)
        (if dot then frac + ds.length else frac) dot (any || !ds.isEmpty) us := by
  -- induction on the digits: each one is multiplied in and counted after a point
  induction ds generalizing m frac any with
  | nil => simp [digitBytes, Digits.number]
  | cons d ds ih =>
    have hd : d < 10 := hds d (by simp)
    rw [digitBytes_cons, List.cons_append, mantissaDigits]
    simp only [digitByte_beq hd (k := 0x5F) (by decide), digitByte_beq hd (k := 0x2E) (by decide),
      isDigit_of_lt_ten hd, toNat_digitByte hd, Bool.false_eq_true, if_false, if_true,
      Nat.add_sub_cancel_left]
    rw [ih (fun x hx => hds x (by simp [hx]))]
    congr 1
    · rw [Digits.number_cons, List.length_cons, Nat.pow_succ]
      ring
    · cases dot <;> simp; omega
    · simp

theorem exponentDigits_digitBytes {ds : List Nat} (hds : ∀ d ∈ ds, d < 10) (acc : Nat) (us : Bool)
    (hsmall : acc * 10 ^ ds.length + Digits.number ds < 100000) :
    exponentDigits (digitBytes ds) acc us = (acc * 10 ^ ds.length + Digits.number ds, us, []) := by
  -- the value stays below the cap before every digit, since the final value is below ten times it
  induction ds generalizing acc with
  | nil => simp [digitBytes, Digits.number, exponentDigits]
  | cons d ds ih =>
    have hd : d < 10 := hds d (by simp)
    have hnum : acc * 10 ^ (ds.length + 1) + Digits.number (d :: ds) =
        (acc * 10 + d) * 10 ^ ds.length + Digits.number ds := by
      rw [Digits.number_cons, Nat.pow_succ]
      ring
    have hcap : acc < 10000 := by
      have : acc * 10 ≤ acc * 10 ^ (ds.length + 1) :=
        Nat.mul_le_mul_left _ (Nat.le_self_pow (by omega) _)
      rw [List.length_cons] at hsmall
      omega
    rw [digitBytes_cons, exponentDigits]
    simp only [digitByte_beq hd (k := 0x5F) (by decide), isDigit_of_lt_ten hd, toNat_digitByte hd,
      Bool.false_eq_true, if_false, if_true, Nat.add_sub_cancel_left, hcap]
    rw [List.length_cons, hnum]
    exact ih (fun x hx => hds x (by simp [hx])) _ (by rw [← hnum]; simpa using hsmall)

/-- The bytes of a point and fraction digits, if there is a point. -/
def pointBytes : Option (List Nat) → List UInt8
  | none => []
  | some f => 0x2E :: digitBytes f

/-- The bytes of an `e`, a sign (`true` for minus) and exponent digits, if there is an
exponent. -/
def exponentBytes : Option (Bool × List Nat) → List UInt8
  | none => []
  | some (neg, ex) => 0x65 :: (if neg then 0x2D else 0x2B) :: digitBytes ex

/-- A decimal literal as numbers are written: whole digits, a fraction after a point if there
is one, and a signed exponent if there is one. -/
structure DecimalText where
  whole : List Nat
  frac : Option (List Nat)
  exp : Option (Bool × List Nat)
  whole_ne_nil : whole ≠ []
  whole_lt : ∀ d ∈ whole, d < 10
  frac_lt : ∀ d ∈ frac.getD [], d < 10
  exp_ok : ∀ neg ex, exp = some (neg, ex) → ex ≠ [] ∧ (∀ d ∈ ex, d < 10) ∧ Digits.number ex < 100000

namespace DecimalText

/-- The bytes of the literal. -/
def bytes (t : DecimalText) : List UInt8 :=
  digitBytes t.whole ++ pointBytes t.frac ++ exponentBytes t.exp

/-- The digits of the literal as one integer. -/
def mantissa (t : DecimalText) : Nat := Digits.number (t.whole ++ t.frac.getD [])

/-- The power of ten the integer of the digits is scaled by. -/
def exponent (t : DecimalText) : Int :=
  (match t.exp with
    | none => 0
    | some (neg, ex) => if neg then -(Digits.number ex : Int) else Digits.number ex) -
    (t.frac.getD []).length

theorem mantissaDigits_point (rest : List UInt8) (m : Nat) (frac : Int) (any us : Bool) :
    mantissaDigits false (0x2E :: rest) m frac false any us =
      mantissaDigits false rest m frac true any us := rfl

theorem lower_digitByte {d : Nat} (hd : d < 10) : lower (48 + d).toUInt8 = (48 + d).toUInt8 := by
  have h := toNat_digitByte hd
  have hnot : ¬((0x41 : UInt8) ≤ (48 + d).toUInt8 ∧ (48 + d).toUInt8 ≤ 0x5A) := by
    rw [UInt8.le_iff_toNat_le, h]
    simp only [UInt8.toNat_ofNat]
    omega
  simp only [lower, Bool.and_eq_true, decide_eq_true_eq, hnot, if_false]

/-- After the first digit of a decimal literal comes a digit, a point or an `e`, never the `x` of
a hexadecimal prefix. -/
theorem lower_second_ne_x {ws : List Nat} (hws : ∀ d ∈ ws, d < 10) {f : Option (List Nat)}
    {e : Option (Bool × List Nat)} {x : UInt8} {r : List UInt8}
    (h : digitBytes ws ++ pointBytes f ++ exponentBytes e = x :: r) : lower x ≠ 0x78 := by
  cases ws with
  | cons d ws =>
    have hd : d < 10 := hws d (by simp)
    simp only [digitBytes_cons, List.cons_append, List.cons.injEq] at h
    rw [← h.1, lower_digitByte hd, ne_eq, UInt8.ext_iff, toNat_digitByte hd]
    simp only [UInt8.toNat_ofNat]
    omega
  | nil =>
    cases f with
    | some fr =>
      simp only [digitBytes, List.map_nil, pointBytes, List.nil_append, List.cons_append,
        List.cons.injEq] at h
      rw [← h.1]
      decide
    | none =>
      cases e with
      | none => simp [digitBytes, pointBytes, exponentBytes] at h
      | some p =>
        simp only [digitBytes, List.map_nil, pointBytes, List.nil_append, exponentBytes,
          List.cons.injEq] at h
        rw [← h.1]
        decide

theorem mantissaDigits_exponentBytes (e : Option (Bool × List Nat)) (m : Nat) (frac : Int)
    (dot any us : Bool) :
    mantissaDigits false (exponentBytes e) m frac dot any us = (m, frac, any, us, exponentBytes e) := by
  cases e with
  | none => rfl
  | some p => rfl

/-- The mantissa digits of a decimal literal: its integer of digits, the count of fraction
digits, and the exponent part left over. -/
theorem mantissaDigits_bytes (t : DecimalText) :
    mantissaDigits false t.bytes 0 0 false false false =
      (t.mantissa, ((t.frac.getD []).length : Int), true, false, exponentBytes t.exp) := by
  obtain ⟨w, ws, hw⟩ := List.exists_cons_of_ne_nil t.whole_ne_nil
  rw [bytes, List.append_assoc, mantissaDigits_digitBytes t.whole_lt]
  simp only [hw, List.isEmpty_cons, Bool.not_false, Bool.or_true, Nat.zero_mul, Nat.zero_add,
    Bool.false_eq_true, if_false]
  cases hf : t.frac with
  | none =>
    simp [pointBytes, mantissaDigits_exponentBytes, mantissa, hf, hw]
  | some fr =>
    have hfr : ∀ d ∈ fr, d < 10 := by simpa [hf] using t.frac_lt
    rw [pointBytes, List.cons_append, mantissaDigits_point, mantissaDigits_digitBytes hfr,
      mantissaDigits_exponentBytes]
    simp only [mantissa, hf, hw, Option.getD_some, Prod.mk.injEq, and_true]
    exact ⟨(Digits.number_append _ _).symm, by simp, by simp⟩

/-- A decimal literal starts with a digit. -/
theorem bytes_head (t : DecimalText) : ∃ w ws, t.whole = w :: ws ∧ w < 10 ∧
    t.bytes = (48 + w).toUInt8 :: (digitBytes ws ++ pointBytes t.frac ++ exponentBytes t.exp) := by
  obtain ⟨w, ws, hw⟩ := List.exists_cons_of_ne_nil t.whole_ne_nil
  exact ⟨w, ws, hw, t.whole_lt w (by simp [hw]), by simp [bytes, hw, digitBytes_cons]⟩

theorem literal_bytes (t : DecimalText) :
    literal t.bytes = some ⟨false, t.mantissa, t.exponent, 10, t.bytes.length⟩ := by
  obtain ⟨w, ws, hw, hw0, hs⟩ := t.bytes_head
  unfold literal
  rw [hs]
  -- the first byte is a digit: no sign
  simp only [digitByte_beq hw0 (k := 0x2B) (by decide), digitByte_beq hw0 (k := 0x2D) (by decide),
    Bool.false_eq_true, if_false]
  -- the second byte is no `x`: the literal is decimal, read from its first byte
  split
  case' h_1 _ _ x _ _ heq =>
    have hx : (lower x == 0x78) = false := by
      rw [beq_eq_false_iff_ne]
      simp only [List.cons.injEq] at heq
      exact lower_second_ne_x (fun d hd => t.whole_lt d (by simp [hw, hd])) heq.2
    simp only [hx, Bool.and_false, Bool.false_eq_true, if_false]
  all_goals
    rw [← hs, mantissaDigits_bytes]
    simp only [Bool.not_true, Bool.false_eq_true, if_false]
    cases he : t.exp with
    | none =>
      simp [exponentBytes, exponent, he]
    | some p =>
      obtain ⟨neg, ex⟩ := p
      obtain ⟨hne, hlt, hsmall⟩ := t.exp_ok neg ex he
      obtain ⟨d, ds, hd⟩ := List.exists_cons_of_ne_nil hne
      -- an `e`, its sign, and the exponent's digits, read to the end
      have hexp := exponentDigits_digitBytes hlt 0 false (by simpa using hsmall)
      have hfirst : isDigit (48 + d).toUInt8 = true := isDigit_of_lt_ten (hlt d (by simp [hd]))
      rw [Nat.zero_mul, Nat.zero_add, hd, digitBytes_cons] at hexp
      have hlowerE : lower 0x65 = 0x65 := by decide
      have hminusPlus : ((0x2D : UInt8) == 0x2B) = false := by decide
      simp only [exponentBytes, hd, digitBytes_cons, hlowerE, beq_self_eq_true, if_true]
      cases neg <;>
      · simp only [Bool.false_eq_true, if_true, if_false, beq_self_eq_true,
          hminusPlus, hfirst, hexp, Bool.or_false, Bool.false_and, List.length_nil,
          Nat.sub_zero, Option.some.injEq, Literal.mk.injEq, true_and, and_true, exponent, he,
          hd]
        omega

/-- A decimal literal starts with a digit: it is no infinity or NaN. -/
theorem special_bytes (t : DecimalText) : special t.bytes = none := by
  obtain ⟨w, _, -, hw0, hs⟩ := t.bytes_head
  rw [hs, special]
  simp only [digitByte_beq hw0 (k := 0x2B) (by decide), digitByte_beq hw0 (k := 0x2D) (by decide),
    lower_digitByte hw0, digitByte_beq hw0 (k := 0x69) (by decide),
    digitByte_beq hw0 (k := 0x6E) (by decide), Bool.or_false, Bool.false_eq_true, if_false]

end DecimalText

/-- The numerator and denominator of `m · 10^k`. -/
def decimalQuotient (m : Nat) (k : Int) : Nat × Nat :=
  if 0 ≤ k then (m * 10 ^ k.toNat, 1) else (m, 10 ^ (-k).toNat)

theorem decimalQuotient_div (m : Nat) (k : Int) :
    ((decimalQuotient m k).1 : ℚ) / (decimalQuotient m k).2 = m * 10 ^ k := by
  unfold decimalQuotient
  split
  · rename_i hk
    push_cast
    rw [div_one, ← zpow_natCast, Int.toNat_of_nonneg hk]
  · rename_i hk
    push_cast
    rw [← zpow_natCast, Int.toNat_of_nonneg (by omega), zpow_neg, div_eq_mul_inv, inv_inv]

/-- A decimal literal reads as the binary64 number nearest its value, unless that overflows. -/
theorem float_bytes (t : DecimalText) :
    float t.bytes =
      let q := decimalQuotient t.mantissa t.exponent
      if (Binary64.round false q.1 q.2).2 then .error .range else .ok (Binary64.round false q.1 q.2).1 := by
  simp only [float, DecimalText.special_bytes, DecimalText.literal_bytes, bne_self_eq_false,
    Bool.false_eq_true, if_false, decimalQuotient]
  split <;> rfl

end TraceSynth.Reading

namespace TraceSynth.Digits

open Reading

theorem bytes_append (a b : String) :
    (Bytes.ofString (a ++ b)).toList = (Bytes.ofString a).toList ++ (Bytes.ofString b).toList := by
  simp [Bytes.ofString, String.toList_append, List.flatMap_append]

theorem charBytes_digits {ds : List Nat} (h : ∀ d ∈ ds, d < 10) :
    Quoted.charBytes (ds.map fun d => Char.ofNat (48 + d)) = digitBytes ds := by
  induction ds with
  | nil => rfl
  | cons d ds ih =>
    have hd : d < 10 := h d (by simp)
    rw [List.map_cons, Quoted.charBytes_cons, Utf8.toNat_ofNat_of_lt (.inl (by omega)),
      Utf8.encode_ascii (by omega), ih fun x hx => h x (by simp [hx])]
    rfl

theorem bytes_text {ds : List Nat} (h : ∀ d ∈ ds, d < 10) :
    (Bytes.ofString (text ds)).toList = digitBytes ds := by
  rw [text, Quoted.ofString_ofList]
  exact charBytes_digits h

theorem zeros_eq_text (n : Nat) : zeros n = text (List.replicate n 0) := by
  simp only [zeros, text, List.map_replicate]

theorem number_replicate_append (k : Nat) (ds : List Nat) :
    number (List.replicate k 0 ++ ds) = number ds := by
  rw [number_append, number_of_zeros (fun x hx => (List.eq_of_mem_replicate hx)), Nat.zero_mul,
    Nat.zero_add]

theorem digits_lt_replicate_append {k : Nat} {ds : List Nat} (h : ∀ d ∈ ds, d < 10) :
    ∀ d ∈ List.replicate k 0 ++ ds, d < 10 := by
  intro d hd
  rcases List.mem_append.1 hd with hz | hd
  · rw [List.eq_of_mem_replicate hz]; omega
  · exact h d hd


theorem value_eq {d : Digits} {t : DecimalText} (hm : t.mantissa = number d.digits)
    (he : t.exponent = d.point - d.digits.length) : (t.mantissa : ℚ) * 10 ^ t.exponent = d.value := by
  rw [value, hm, he]

theorem replicate_zero_lt (n : Nat) : ∀ x ∈ List.replicate n 0, x < 10 := by
  intro x hx
  rw [List.eq_of_mem_replicate hx]
  omega

theorem bytes_zeros (n : Nat) : (Bytes.ofString (zeros n)).toList = digitBytes (List.replicate n 0) := by
  rw [zeros_eq_text, bytes_text (replicate_zero_lt n)]

theorem number_zero_append (ds : List Nat) : number ([0] ++ ds) = number ds := by
  rw [number_append]
  simp [number]

/-- The positional text of digits is a decimal literal of their value. -/
theorem positional_decimalText (d : Digits) (h : ∀ x ∈ d.digits, x < 10) (hne : d.digits ≠ []) :
    ∃ t : DecimalText, t.bytes = (Bytes.ofString d.positional).toList ∧
      (t.mantissa : ℚ) * 10 ^ t.exponent = d.value := by
  unfold positional
  dsimp only
  split
  · -- `0.` and zeros before the digits
    rename_i hp
    refine ⟨⟨[0], some (List.replicate (-d.point).toNat 0 ++ d.digits), none, by simp, by simp,
      fun x hx => digits_lt_replicate_append h x hx, by simp⟩, ?_, ?_⟩
    · have hpoint : (Bytes.ofString "0.").toList = [0x30, 0x2E] := rfl
      simp only [DecimalText.bytes, pointBytes, exponentBytes, List.append_nil, bytes_append,
        hpoint, bytes_zeros, bytes_text h, digitBytes_append]
      rfl
    · apply value_eq
      · simp only [DecimalText.mantissa, Option.getD_some]
        rw [number_zero_append, number_replicate_append]
      · simp only [DecimalText.exponent, Option.getD_some, List.length_append, List.length_replicate]
        omega
  · split
    · -- the digits and zeros up to the point
      rename_i hp hn
      refine ⟨⟨d.digits ++ List.replicate (d.point - d.digits.length).toNat 0, none, none,
        by simp [hne], ?_, by simp, by simp⟩, ?_, ?_⟩
      · intro x hx
        rcases List.mem_append.1 hx with hx | hx
        · exact h x hx
        · exact replicate_zero_lt _ x hx
      · simp only [DecimalText.bytes, pointBytes, exponentBytes, List.append_nil, bytes_append,
          bytes_zeros, bytes_text h, digitBytes_append]
      · simp only [DecimalText.mantissa, DecimalText.exponent, Option.getD_none, List.append_nil,
          List.length_nil, Nat.cast_zero, sub_zero, zpow_zero, mul_one, value]
        rw [number_append, number_of_zeros (fun x hx => List.eq_of_mem_replicate hx), Nat.add_zero,
          List.length_replicate]
        push_cast
        rw [← zpow_natCast, Int.toNat_of_nonneg (by omega)]
    · -- a point among the digits
      rename_i hp hn
      have hlen : d.point.toNat < d.digits.length := by omega
      refine ⟨⟨d.digits.take d.point.toNat, some (d.digits.drop d.point.toNat), none, ?_,
        fun x hx => h x (List.mem_of_mem_take hx), fun x hx => h x (List.mem_of_mem_drop hx),
        by simp⟩, ?_, ?_⟩
      · simp only [ne_eq, List.take_eq_nil_iff, not_or]
        exact ⟨by omega, hne⟩
      · have hpoint : (Bytes.ofString ".").toList = [0x2E] := rfl
        simp only [DecimalText.bytes, pointBytes, exponentBytes, List.append_nil, bytes_append,
          bytes_text (fun x hx => h x (List.mem_of_mem_take hx)),
          bytes_text (fun x hx => h x (List.mem_of_mem_drop hx)), hpoint]
        simp
      · apply value_eq
        · simp [DecimalText.mantissa]
        · simp only [DecimalText.exponent, Option.getD_some, List.length_drop]
          omega

/-- The exponent text of digits is a decimal literal of their value. -/
theorem scientific_decimalText (d : Digits) (h : ∀ x ∈ d.digits, x < 10) (hne : d.digits ≠ [])
    (hp : (d.point - 1).natAbs < 100000) (width : Nat) :
    ∃ t : DecimalText, t.bytes = (Bytes.ofString (d.scientific width)).toList ∧
      (t.mantissa : ℚ) * 10 ^ t.exponent = d.value := by
  obtain ⟨a, rest, hd⟩ := List.exists_cons_of_ne_nil hne
  have ha : a < 10 := h a (by simp [hd])
  have hrest : ∀ x ∈ rest, x < 10 := fun x hx => h x (by simp [hd, hx])
  -- the exponent's digits, padded with zeros to the width
  set ex := List.replicate (width - (ofNat (d.point - 1).natAbs).length) 0 ++
    ofNat (d.point - 1).natAbs with hex
  have hexlt : ∀ x ∈ ex, x < 10 :=
    digits_lt_replicate_append fun x hx => lt_ten_of_mem_ofNat hx
  have hexnum : number ex = (d.point - 1).natAbs := by
    rw [hex, number_replicate_append, number_ofNat]
  have hexne : ex ≠ [] := by
    rw [hex]
    refine List.append_ne_nil_of_right_ne_nil _ ?_
    rw [ofNat]
    split <;> simp
  have hsign : ∀ (p : Prop) [Decidable p], (Bytes.ofString (if p then "-" else "+")).toList =
      [if p then 0x2D else 0x2B] := by
    intro p _
    split <;> rfl
  have hE : (Bytes.ofString "e").toList = [0x65] := rfl
  -- the mantissa: one digit, and the rest after a point if there is a rest
  refine ⟨⟨[a], if rest = [] then none else some rest, some (decide (d.point - 1 < 0), ex), by simp, by simpa using ha, ?_,
    fun neg e he => ?_⟩, ?_, ?_⟩
  · intro x hx
    by_cases hr : rest = [] <;> simp [hr] at hx
    exact hrest x hx
  · simp only [Option.some.injEq, Prod.mk.injEq] at he
    obtain ⟨-, rfl⟩ := he
    exact ⟨hexne, hexlt, by rw [hexnum]; exact hp⟩
  · have ha1 : ∀ x ∈ [a], x < 10 := by simpa using ha
    simp only [DecimalText.bytes, scientific, hd]
    rw [bytes_append, bytes_append, bytes_append, hE, hsign, bytes_text hexlt]
    cases rest with
    | nil => simp [pointBytes, exponentBytes, bytes_text ha1]
    | cons b bs =>
      have hpoint : (Bytes.ofString ".").toList = [0x2E] := rfl
      simp [pointBytes, exponentBytes, bytes_append, bytes_text ha1, bytes_text hrest, hpoint]
  · apply value_eq
    · simp only [DecimalText.mantissa, hd]
      by_cases hr : rest = [] <;> simp [hr]
    · have hfl : (((if rest = [] then none else some rest : Option (List Nat)).getD []).length : Int) =
          rest.length := by
        by_cases hr : rest = [] <;> simp [hr]
      simp only [DecimalText.exponent, hexnum, hd, List.length_cons, hfl]
      by_cases hx : d.point - 1 < 0
      · simp only [hx, decide_true, if_true]
        rw [Int.ofNat_natAbs_of_nonpos (by omega)]
        push_cast
        omega
      · simp only [hx, decide_false, Bool.false_eq_true, if_false]
        rw [Int.natAbs_of_nonneg (by omega)]
        push_cast
        omega

theorem value_shortest_pos {m : Nat} {e : Int} (hm : 0 < m) (hr : Unpacked.Rounded m e) (he : e ≤ 971) :
    0 < (shortest m e).value := by
  obtain ⟨a, rest, hds, ha⟩ := shortest_head_pos hm hr he
  have hnum : 0 < number (shortest m e).digits := by
    rw [hds, number_cons]
    have := Nat.mul_le_mul_left a (Nat.one_le_pow rest.length 10 (by omega))
    omega
  unfold value
  positivity

end TraceSynth.Digits

namespace TraceSynth.Reading

open Digits Binary64

/-- A decimal literal of the value of the shortest digits of `m · 2^e` reads as that float. -/
theorem float_of_shortest {m : Nat} {e : Int} (hm : 0 < m) (hr : Unpacked.Rounded m e) (he : e ≤ 971)
    {t : DecimalText} (hv : (t.mantissa : ℚ) * 10 ^ t.exponent = (shortest m e).value) :
    ∃ y, Reading.float t.bytes = .ok y ∧ y.toModel.unpack = .finite .positive m e hm := by
  have hpos := value_shortest_pos hm hr he
  have hdiv := decimalQuotient_div t.mantissa t.exponent
  have hnum : 0 < (decimalQuotient t.mantissa t.exponent).1 := by
    refine Nat.pos_of_ne_zero fun h0 => ?_
    rw [h0, Nat.cast_zero, zero_div, hv] at hdiv
    exact hpos.ne hdiv
  have hden : 0 < (decimalQuotient t.mantissa t.exponent).2 := by
    unfold decimalQuotient
    split <;> positivity
  obtain ⟨hover, hunpack⟩ := round_of_roundsTo false hm hr he hnum hden
    (by rw [hdiv, hv]; exact shortest_roundsTo hm hr he)
  refine ⟨_, ?_, hunpack⟩
  rw [float_bytes]
  simp only [hover, Bool.false_eq_true, if_false]

end TraceSynth.Reading

namespace TraceSynth.Binary64

open Reading Digits

/-- The text of a finite nonzero number: its sign, then the positional or exponent text of its
shortest digits, which is a decimal literal of their value. -/
theorem writeFinite_general {x : Float} {neg : Bool} {m : Nat} {e : Int} (hx : parts x = .finite neg m e)
    (hm : 0 < m) (hr : Unpacked.Rounded m e) (he : e ≤ 971) :
    ∃ (body : String) (t : DecimalText), writeFinite .general x = (if neg then "-" else "") ++ body ∧
      t.bytes = (Bytes.ofString body).toList ∧ (t.mantissa : ℚ) * 10 ^ t.exponent = (shortest m e).value := by
  have hlt : ∀ y ∈ (shortest m e).digits, y < 10 := fun y hy => lt_ten_of_mem_shortest hy
  obtain ⟨a, rest, hds, -⟩ := shortest_head_pos hm hr he
  have hne : (shortest m e).digits ≠ [] := by simp [hds]
  have hpoint := shortest_point_bounds hm hr he
  have hm0 : (m == 0) = false := by simpa using hm.ne'
  -- whichever of the two texts the style picks is a decimal literal of the digits' value
  have hbody : ∀ b : Bool, ∃ t : DecimalText, t.bytes = (Bytes.ofString (if b then
      (shortest m e).positional else (shortest m e).scientific Style.general.exponentWidth)).toList ∧
      (t.mantissa : ℚ) * 10 ^ t.exponent = (shortest m e).value := by
    intro b
    cases b
    · exact scientific_decimalText _ hlt hne (by omega) 2
    · exact positional_decimalText _ hlt hne
  simp only [writeFinite, hx, hm0, Bool.false_eq_true, if_false]
  obtain ⟨t, hb, hv⟩ := hbody (Style.general.positional (if neg then -x else x) ((shortest m e).point - 1))
  exact ⟨_, t, rfl, hb, hv⟩

end TraceSynth.Binary64

namespace TraceSynth.Value

open Reading Binary64

/-- A text whose bytes are a decimal literal is no special word: the float reader reads it. -/
theorem atomValue_of_bytes {body : String} {t : DecimalText} (hb : t.bytes = (Bytes.ofString body).toList)
    {y : Float} (hy : Reading.float t.bytes = .ok y) : atomValue body = y ∧ atomReads body = true := by
  obtain ⟨w, _, -, hw, hs⟩ := t.bytes_head
  -- a word whose first byte is no digit is not the text
  have hword : ∀ word : String, (Bytes.ofString word).toList.head? ≠ some (48 + w).toUInt8 →
      (body == word) = false := by
    intro word hne
    rw [beq_eq_false_iff_ne]
    rintro rfl
    rw [← hb, hs] at hne
    exact hne rfl
  have hdigit : ∀ c : UInt8, 57 < c.toNat → some c ≠ some (48 + w).toUInt8 := by
    intro c hc heq
    rw [Option.some.injEq, UInt8.ext_iff, toNat_digitByte hw] at heq
    omega
  have hnan := hword "NaN" (hdigit 0x4E (by decide))
  have hinf := hword "Infinity" (hdigit 0x49 (by decide))
  simp only [atomValue, atomReads, hnan, hinf, Bool.false_eq_true, if_false, Bool.false_or, ← hb, hy,
    Except.toBool, and_self]

/-- A leading minus sign is read as a negation of what follows. -/
theorem numberValue_signed {body : String} {t : DecimalText} (hb : t.bytes = (Bytes.ofString body).toList)
    (neg : Bool) :
    numberValue ((if neg then "-" else "") ++ body) = (if neg then -atomValue body else atomValue body) ∧
      numberReads ((if neg then "-" else "") ++ body) = atomReads body := by
  cases neg
  · -- no sign: the text starts with a digit, not with a minus
    obtain ⟨w, _, -, hw, hs⟩ := t.bytes_head
    have hminus : ∀ r, body.toList ≠ '-' :: r := by
      intro r hr
      have hbytes : (Bytes.ofString body).toList = 0x2D :: Quoted.charBytes r := by
        rw [Bytes.ofString, hr]
        rfl
      rw [← hb, hs, List.cons.injEq, UInt8.ext_iff, toNat_digitByte hw] at hbytes
      simp at hbytes
      omega
    -- the unsigned equation of `numberValue` and `numberReads` holds by `hminus`
    simp only [Bool.false_eq_true, if_false, String.empty_append, numberValue, numberReads, and_self]
  · simp only [if_true, numberValue, numberReads, String.toList_append]
    simp [String.ofList_toList]

/-- The text of a finite nonzero number reads back as that very float. -/
theorem numberValue_writeFinite {x : Float} {neg : Bool} {m : Nat} {e : Int}
    (hx : parts x = .finite neg m e) (hm : 0 < m) :
    numberReads (writeFinite .general x) = true ∧
      (numberValue (writeFinite .general x)).toModel.unpack = x.toModel.unpack := by
  have hunpack : x.toModel.unpack = .finite (signOf neg) m e hm := by
    rw [unpack_eq_parts, hx, Parts.unpacked, dif_pos hm]
  have hvalid : Unpacked.Valid x.toModel.unpack := Unpacked.valid_unpack _
  rw [hunpack] at hvalid
  obtain ⟨hr, he⟩ := hvalid
  obtain ⟨body, t, hw, hb, hv⟩ := writeFinite_general hx hm hr he
  obtain ⟨y, hy, hyu⟩ := float_of_shortest hm hr he hv
  obtain ⟨hval, hreads⟩ := atomValue_of_bytes hb hy
  obtain ⟨hnv, hnr⟩ := numberValue_signed hb neg
  rw [hw, hnv, hnr, hval, hreads, hunpack]
  refine ⟨rfl, ?_⟩
  cases neg
  · exact hyu
  · -- negation flips the sign of the unpacked float, which packs back unchanged
    show (Float.Model.pack y.toModel.unpack.neg).unpack = _
    rw [hyu]
    exact Unpacked.unpack_pack_of_valid ⟨hr, he⟩

/-- Two floats that unpack alike on the line of floats, neither a NaN, are equal. -/
theorem beq_of_rank_eq {a b : Float} (ha : a.toModel.unpack.isNaN = false)
    (hb : b.toModel.unpack.isNaN = false)
    (h : Unpacked.rank a.toModel.unpack = Unpacked.rank b.toModel.unpack) : (a == b) = true :=
  FloatOrder.beq_iff.2 ⟨ha, hb, h⟩

/-- What a number's text is, by the kind of number: the three special words, `0` for a zero of
either sign, and otherwise the general text of a finite number with a nonzero significand. -/
theorem formatNumber_cases (n : Float) :
    (isNaN n = true ∧ formatNumber n = "NaN") ∨
      ((n == infinity false) = true ∧ formatNumber n = "Infinity") ∨
      ((n == infinity true) = true ∧ formatNumber n = "-Infinity") ∨
      ((n == 0) = true ∧ formatNumber n = "0") ∨
      ∃ neg m e, parts n = .finite neg m e ∧ 0 < m ∧ formatNumber n = writeFinite .general n := by
  unfold formatNumber
  split
  · exact .inl ⟨by assumption, rfl⟩
  split
  · exact .inr (.inl ⟨by assumption, rfl⟩)
  split
  · exact .inr (.inr (.inl ⟨by assumption, rfl⟩))
  split
  · exact .inr (.inr (.inr (.inl ⟨by assumption, rfl⟩)))
  refine .inr (.inr (.inr (.inr ?_)))
  -- otherwise a finite nonzero number: each special value would have met its own test
  rename_i hnan hpinf hninf hzero
  have hun := unpack_eq_parts n
  rcases hp : parts n with _ | s | ⟨neg, m, e⟩
  · rw [hp] at hun
    exact absurd ((isNaN_iff n).2 (by simp [Float.isNaN, Float.Model.isNaN, hun, Parts.unpacked]))
      hnan
  · have hinf : (infinity s).toModel.unpack = (Parts.inf s).unpacked := by
      rw [unpack_eq_parts, show parts (infinity s) = .inf s by cases s <;> decide +kernel]
    rw [hp] at hun
    have hbeq : (n == infinity s) = true := beq_of_rank_eq (by rw [hun]; rfl) (by rw [hinf]; rfl)
      (by rw [hun, hinf])
    cases s
    · exact absurd hbeq hpinf
    · exact absurd hbeq hninf
  · rcases Nat.eq_zero_or_pos m with rfl | hm
    · -- a zero of either sign sits where zero does
      have hz : (0 : Float).toModel.unpack = (Parts.finite false 0 (-1074)).unpacked := by
        rw [unpack_eq_parts, show parts 0 = .finite false 0 (-1074) by decide +kernel]
      rw [hp] at hun
      exact absurd (beq_of_rank_eq (by rw [hun]; rfl) (by rw [hz]; rfl) (by rw [hun, hz]; rfl))
        hzero
    · exact ⟨neg, m, e, rfl, hm, rfl⟩

/-- Every number's text reads back as the same value: NaN as a NaN, the infinities as
themselves, a zero as zero, and every other number as that very float. -/
theorem numberValue_formatNumber (n : Float) :
    numberReads (formatNumber n) = true ∧
      sameValue (.number (numberValue (formatNumber n))) (.number n) = true := by
  rcases formatNumber_cases n with ⟨hnan, hf⟩ | ⟨hinf, hf⟩ | ⟨hinf, hf⟩ | ⟨hzero, hf⟩ |
    ⟨neg, m, e, hp, hm, hf⟩ <;> rw [hf]
  · have hread : isNaN (numberValue "NaN") = true := by decide +kernel
    exact ⟨by decide +kernel, by simp [sameValue, hread, hnan]⟩
  · have hread : (numberValue "Infinity" == infinity false) = true := by decide +kernel
    exact ⟨by decide +kernel, sameValue_number.2
      (.inr (FloatOrder.beq_trans hread (by rwa [FloatOrder.beq_comm])))⟩
  · have hread : (numberValue "-Infinity" == infinity true) = true := by decide +kernel
    exact ⟨by decide +kernel, sameValue_number.2
      (.inr (FloatOrder.beq_trans hread (by rwa [FloatOrder.beq_comm])))⟩
  · have hread : (numberValue "0" == 0) = true := by decide +kernel
    exact ⟨by decide +kernel, sameValue_number.2
      (.inr (FloatOrder.beq_trans hread (by rwa [FloatOrder.beq_comm])))⟩
  · obtain ⟨hreads, hback⟩ := numberValue_writeFinite hp hm
    have hun := unpack_eq_parts n
    rw [hp] at hun
    have hfin : n.toModel.unpack.isNaN = false := by
      rw [hun, Parts.unpacked, dif_pos hm]
      rfl
    exact ⟨hreads, sameValue_number.2 (.inr (beq_of_rank_eq (by rw [hback]; exact hfin) hfin
      (by rw [hback])))⟩

end TraceSynth.Value
