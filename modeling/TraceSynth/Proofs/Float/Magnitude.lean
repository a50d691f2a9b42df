import TraceSynth.Proofs.Float.Rounding

/-!
# Magnitude bounds of `Float` computations

The bounds of `TraceSynth.Unpacked`, read on `Float` values. `ZeroOrAbove k x` says that `x` is
a zero, positive infinity or a positive finite float of binary magnitude at least `k`, and
`Within lo hi x` that `x` is a positive finite float of binary magnitude from `lo` to `hi`.
Sums keep the first bound; products by a `Within` factor and quotients by a `Within` divisor
move it by the factor's bounds; and each result is zero exactly when its first operand is (both
operands, for a sum). A natural number converted to a float is at least its binary logarithm,
and below `2^53` it is also at most three more. A float with such a bound is not negative, and
it equals zero exactly when it is a zero.

## Main results

* `ZeroOrAbove.add`, `ZeroOrAbove.mul`, `ZeroOrAbove.const_mul`, `ZeroOrAbove.div`, with
  `beq_zero_add`, `beq_zero_mul`, `beq_zero_const_mul`, `beq_zero_div`;
* `zeroOrAbove_toFloat`, `within_toFloat`, `beq_zero_toFloat`;
* `ZeroOrAbove.nonneg`, `beq_zero_iff`.
-/

open Float.Model Float.Model.UnpackedFloat

namespace TraceSynth.Magnitude

/-- `x` is a zero, positive infinity, or a positive finite float of magnitude at least `k`. -/
def ZeroOrAbove (k : Int) (x : Float) : Prop := Unpacked.Gap k x.toModel.unpack

/-- `x` is a positive finite float of magnitude from `lo` to `hi`. -/
def Within (lo hi : Int) (x : Float) : Prop := Unpacked.Between lo hi x.toModel.unpack

instance (lo hi : Int) : DecidablePred (Unpacked.Between lo hi)
  | .finite .positive m e _ =>
    if h : lo ≤ (m.log2 : Int) + e ∧ (m.log2 : Int) + e ≤ hi then isTrue ⟨rfl, h⟩
    else isFalse fun h' => h h'.2
  | .finite .negative _ _ _ => isFalse fun h => nomatch h.1
  | .zero _ | .infinity _ | .notANumber => isFalse id

/-- The bounds of a float are read off its bits, so the bounds of a constant can be decided. -/
instance (lo hi : Int) (x : Float) : Decidable (Within lo hi x) :=
  inferInstanceAs (Decidable (Unpacked.Between lo hi x.toModel.unpack))

theorem valid (x : Float) : Unpacked.Valid x.toModel.unpack := Unpacked.valid_unpack _

theorem unpack_zero : (0 : Float).toModel.unpack = .zero .positive := rfl

theorem ZeroOrAbove.mono {k j : Int} {x : Float} (hx : ZeroOrAbove k x) (hjk : j ≤ k) :
    ZeroOrAbove j x :=
  Unpacked.Gap.mono hx hjk

theorem Within.zeroOrAbove {lo hi : Int} {x : Float} (hx : Within lo hi x) : ZeroOrAbove lo x :=
  Unpacked.Between.gap hx

theorem Within.mono {lo hi lo' hi' : Int} {x : Float} (hx : Within lo hi x) (hlo : lo' ≤ lo)
    (hhi : hi ≤ hi') : Within lo' hi' x :=
  Unpacked.Between.mono hx hlo hhi

/-- A float equals zero exactly when it is a zero of either sign: `NaN` equals nothing. -/
theorem beq_zero_iff (x : Float) : (x == 0) = true ↔ Unpacked.IsZero x.toModel.unpack := by
  change UnpackedFloat.beq x.toModel.unpack (0 : Float).toModel.unpack = true ↔ _
  rw [unpack_zero]
  cases x.toModel.unpack with
  | zero s => exact iff_of_true rfl trivial
  | finite s m e h => cases s <;> exact iff_of_false Bool.false_ne_true id
  | infinity s => cases s <;> exact iff_of_false Bool.false_ne_true id
  | notANumber => exact iff_of_false Bool.false_ne_true id

theorem zeroOrAbove_of_beq_zero {k : Int} {x : Float} (hx : (x == 0) = true) :
    ZeroOrAbove k x := by
  rw [beq_zero_iff] at hx
  unfold ZeroOrAbove
  revert hx
  cases x.toModel.unpack with
  | zero s => exact fun _ => trivial
  | _ => exact False.elim

/-- A float with a lower magnitude bound is not negative. -/
theorem ZeroOrAbove.nonneg {k : Int} {x : Float} (hx : ZeroOrAbove k x) : 0 ≤ x := by
  change Float.le 0 x = true
  unfold Float.le
  refine decide_eq_true ?_
  change UnpackedFloat.le (0 : Float).toModel.unpack x.toModel.unpack = true
  rw [unpack_zero]
  unfold ZeroOrAbove at hx
  revert hx
  cases x.toModel.unpack with
  | zero s => exact fun _ => rfl
  | finite s m e h => rintro ⟨rfl, -⟩; rfl
  | infinity s => rintro rfl; rfl
  | notANumber => exact False.elim

section Operations

variable {k j lo hi : Int} {x y c : Float}

theorem ZeroOrAbove.add (hx : ZeroOrAbove k x) (hy : ZeroOrAbove k y) : ZeroOrAbove k (x + y) :=
  (Unpacked.gap_add (valid x) (valid y) hx hy).1

theorem beq_zero_add (hx : ZeroOrAbove k x) (hy : ZeroOrAbove k y) :
    (x + y == 0) = ((x == 0) && (y == 0)) := by
  rw [Bool.eq_iff_iff, Bool.and_eq_true, beq_zero_iff, beq_zero_iff, beq_zero_iff]
  exact (Unpacked.gap_add (valid x) (valid y) hx hy).2

theorem ZeroOrAbove.mul (hx : ZeroOrAbove k x) (hc : Within j hi c) (hkj : -1074 ≤ k + j) :
    ZeroOrAbove (k + j) (x * c) :=
  (Unpacked.gap_mul (valid x) (valid c) hx hc hkj).1

theorem beq_zero_mul (hx : ZeroOrAbove k x) (hc : Within j hi c) (hkj : -1074 ≤ k + j) :
    (x * c == 0) = (x == 0) := by
  rw [Bool.eq_iff_iff, beq_zero_iff, beq_zero_iff]
  exact (Unpacked.gap_mul (valid x) (valid c) hx hc hkj).2

/-- Float multiplication commutes, the sign and every bit of the rounded product included. -/
theorem mul_comm (x y : Float) : x * y = y * x :=
  congrArg (fun u => Float.ofModel (Float.Model.pack u))
    (Unpacked.mul_comm_unpacked x.toModel.unpack y.toModel.unpack)

theorem ZeroOrAbove.const_mul (hc : Within j hi c) (hx : ZeroOrAbove k x) (hkj : -1074 ≤ k + j) :
    ZeroOrAbove (k + j) (c * x) :=
  mul_comm x c ▸ hx.mul hc hkj

theorem beq_zero_const_mul (hc : Within j hi c) (hx : ZeroOrAbove k x) (hkj : -1074 ≤ k + j) :
    (c * x == 0) = (x == 0) := by
  rw [mul_comm c x]
  exact beq_zero_mul hx hc hkj

theorem ZeroOrAbove.div (hx : ZeroOrAbove k x) (hc : Within lo j c) (hkj : -1074 ≤ k - j - 1) :
    ZeroOrAbove (k - j - 1) (x / c) :=
  (Unpacked.gap_div (valid x) hx hc hkj).1

theorem beq_zero_div (hx : ZeroOrAbove k x) (hc : Within lo j c) (hkj : -1074 ≤ k - j - 1) :
    (x / c == 0) = (x == 0) := by
  rw [Bool.eq_iff_iff, beq_zero_iff, beq_zero_iff]
  exact (Unpacked.gap_div (valid x) hx hc hkj).2

/-- A zero over a positive float or positive infinity is a zero, whatever the divisor's size. -/
theorem beq_zero_div_of_beq_zero (hx : (x == 0) = true) (hc : ZeroOrAbove j c)
    (hc0 : (c == 0) = false) : (x / c == 0) = true := by
  rw [beq_zero_iff] at hx ⊢
  rw [← Bool.not_eq_true, beq_zero_iff] at hc0
  change Unpacked.IsZero (Float.Model.pack
    (UnpackedFloat.div Format.binary64 x.toModel.unpack c.toModel.unpack)).unpack
  unfold ZeroOrAbove at hc
  revert hx hc hc0
  cases x.toModel.unpack with
  | zero s =>
    cases c.toModel.unpack with
    | zero t => exact fun _ _ h => (h trivial).elim
    | finite t m e h => exact fun _ _ _ => by rw [show UnpackedFloat.div Format.binary64 (.zero s)
        (.finite t m e h) = .zero (s / t) from rfl, Unpacked.unpack_pack_zero]; trivial
    | infinity t => exact fun _ _ _ => by rw [show UnpackedFloat.div Format.binary64 (.zero s)
        (.infinity t) = .zero (s / t) from rfl, Unpacked.unpack_pack_zero]; trivial
    | notANumber => exact fun _ h => h.elim
  | _ => exact False.elim

end Operations

section Conversion

/-- The float `1.0`, as unpacked from its bits. -/
theorem unpack_powerOfTen_zero :
    Float.exactlyRepresentablePowersOfTen[0].toModel.unpack =
      .finite .positive (2 ^ 52) (-52) (Nat.two_pow_pos 52) := rfl

/-- Below `2^53`, a natural number is converted exactly as a `UInt64` and multiplied by one. -/
theorem unpack_toFloat_of_lt {n : Nat} (h : n < 2 ^ 53) :
    n.toFloat.toModel.unpack = (Float.Model.pack (UnpackedFloat.mul Format.binary64
      (Float.Model.pack (UnpackedFloat.ofUInt64 Format.binary64 n.toUInt64)).unpack
      (.finite .positive (2 ^ 52) (-52) (Nat.two_pow_pos 52)))).unpack := by
  change (Float.ofScientific n false 0).toModel.unpack = _
  unfold Float.ofScientific
  rw [dif_pos ⟨h, by decide⟩]
  change (Float.Model.pack (UnpackedFloat.mul Format.binary64
    (Float.Model.pack (UnpackedFloat.ofUInt64 Format.binary64 n.toUInt64)).unpack
    (Float.exactlyRepresentablePowersOfTen[0]).toModel.unpack)).unpack = _
  rw [unpack_powerOfTen_zero]

/-- From `2^53` on, a natural number is converted by rounding it in the model. -/
theorem unpack_toFloat_of_ge {n : Nat} (h : 2 ^ 53 ≤ n) :
    n.toFloat.toModel.unpack =
      (Float.Model.pack (UnpackedFloat.ofScientific Format.binary64 n 0)).unpack := by
  change (Float.ofScientific n false 0).toModel.unpack = _
  unfold Float.ofScientific
  rw [dif_neg fun h' => absurd h'.1 (by omega)]
  rfl

/-- A positive `UInt64` value below `2^53` converts to a float of its magnitude, or one more on
a rounding carry. -/
theorem between_ofUInt64 {n : Nat} (h0 : 0 < n) (h : n < 2 ^ 53) :
    Unpacked.Between n.log2 (n.log2 + 1)
      (Float.Model.pack (UnpackedFloat.ofUInt64 Format.binary64 n.toUInt64)).unpack := by
  have hlog : n.log2 < 53 := (Nat.log2_lt (by omega)).2 h
  obtain ⟨m', e', h', hround, hr, hlo, hhi⟩ :=
    Unpacked.round_finite .positive (m := n) (e := 0) h0 (by omega)
  have hof : UnpackedFloat.ofUInt64 Format.binary64 n.toUInt64 = .finite .positive m' e' h' := by
    unfold UnpackedFloat.ofUInt64 UnpackedFloat.ofNat UnpackedFloat.ofInt UnpackedFloat.normalize
    rw [UInt64.toNat_ofNat_of_lt' (Nat.lt_trans h (by decide)), Int.compare_eq_gt.mpr (by omega), Int.toNat_natCast]
    exact hround
  have hm := Nat.zero_le m'.log2
  rw [hof, Unpacked.unpack_pack_finite h' hr, if_pos (by omega)]
  exact ⟨rfl, by omega, by omega⟩

/-- A positive natural number below `2^53` converts to a float of magnitude from its binary
logarithm to three more. -/
theorem within_toFloat {n : Nat} (h0 : 0 < n) (h : n < 2 ^ 53) :
    Within n.log2 (n.log2 + 3) n.toFloat := by
  have hlog : n.log2 < 53 := (Nat.log2_lt (by omega)).2 h
  have hone : Unpacked.Between 0 0 (.finite .positive (2 ^ 52) (-52) (Nat.two_pow_pos 52)) :=
    ⟨rfl, by decide, by decide⟩
  have hvone : Unpacked.Valid (.finite .positive (2 ^ 52) (-52) (Nat.two_pow_pos 52)) :=
    ⟨⟨by decide, by decide, Or.inl Nat.log2_two_pow⟩, by decide⟩
  have hprod := Unpacked.between_mul (Unpacked.valid_unpack _) hvone (between_ofUInt64 h0 h) hone
    (by omega) (by omega)
  unfold Within
  rw [unpack_toFloat_of_lt h]
  exact hprod.mono (by omega) (by omega)

/-- The model's conversion of a positive natural number gives positive infinity or a positive
float of at least the number's magnitude. -/
theorem gap_ofScientific {n : Nat} (h : 0 < n) :
    Unpacked.Gap n.log2 (Float.Model.pack (UnpackedFloat.ofScientific Format.binary64 n 0)).unpack ∧
      ¬Unpacked.IsZero (Float.Model.pack (UnpackedFloat.ofScientific Format.binary64 n 0)).unpack := by
  have hexp : (0 : Int) ≤ 2 ^ Format.binary64.exponentBits := by decide
  unfold UnpackedFloat.ofScientific
  rw [dif_neg (by omega), if_neg (by decide), if_neg (by omega), if_pos (Int.le_refl 0),
    Unpacked.mul_finite_positive]
  -- the mantissa is `n` shifted by 53 bits and multiplied by `10 ^ 0`
  have hmb : Format.binary64.mantissaBits = 53 := by decide
  have hm : n <<< Format.binary64.mantissaBits * 10 ^ (0 : Int).toNat = n <<< 53 := by
    rw [hmb, Int.toNat_zero, Nat.pow_zero, Nat.mul_one]
  have hlog := Unpacked.log2_shiftLeft h 53
  have hpos : 0 < n <<< 53 := by rw [Nat.shiftLeft_eq]; exact Nat.mul_pos h (Nat.two_pow_pos _)
  obtain ⟨m', e', h', hround, hr, hlo, -⟩ := Unpacked.roundWithAccuracy_finite .positive
    (m := n <<< Format.binary64.mantissaBits * 10 ^ (0 : Int).toNat)
    (e := -(Format.binary64.mantissaBits : Int) + 0) .exact (by rw [hm]; exact hpos)
    (by rw [hm, hlog]; omega) (by rw [hm, hlog, hmb]; omega)
  rw [hround]
  rw [hm, hlog, hmb] at hlo
  exact Unpacked.gap_pack_finite h' hr (by omega)

/-- A positive natural number converts to positive infinity or a positive float of at least its
magnitude, never to zero. -/
theorem toFloat_pos {n : Nat} (h : 0 < n) :
    ZeroOrAbove n.log2 n.toFloat ∧ (n.toFloat == 0) = false := by
  rw [← Bool.not_eq_true, beq_zero_iff]
  by_cases hsmall : n < 2 ^ 53
  · have hw := within_toFloat h hsmall
    exact ⟨hw.zeroOrAbove, Unpacked.Between.not_isZero hw⟩
  · unfold ZeroOrAbove
    rw [unpack_toFloat_of_ge (by omega)]
    exact gap_ofScientific h

/-- A positive natural number below `2^53` converts to a float of magnitude at most `55`. -/
theorem within_toFloat_lt {n : Nat} (h0 : 0 < n) (h : n < 2 ^ 53) : Within 0 55 n.toFloat := by
  have hlog : n.log2 < 53 := (Nat.log2_lt (by omega)).2 h
  exact (within_toFloat h0 h).mono (by omega) (by omega)

theorem zeroOrAbove_toFloat (n : Nat) : ZeroOrAbove n.log2 n.toFloat := by
  rcases Nat.eq_zero_or_pos n with rfl | h
  · exact (trivial : Unpacked.Gap 0 (.zero .positive))
  · exact (toFloat_pos h).1

theorem beq_zero_toFloat (n : Nat) : (n.toFloat == 0) = (n == 0) := by
  rcases Nat.eq_zero_or_pos n with rfl | h
  · rfl
  · rw [(toFloat_pos h).2, beq_eq_false_iff_ne.mpr (by omega)]

end Conversion

end TraceSynth.Magnitude
