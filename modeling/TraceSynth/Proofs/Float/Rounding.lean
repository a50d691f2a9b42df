import Mathlib
import TraceSynth.Decimal.Binary64

/-!
# Rounding and packing of binary64 floats

Every operation on a `Float` unpacks its operands into `UnpackedFloat` values, computes and
rounds there, and packs the result into 64 bits, which the next operation unpacks again. This
module follows a finite result through that cycle. Rounding (`roundWithAccuracy`) leaves at most
53 bits and an exponent no lower than the least subnormal one (`Rounded`); packing such a value
and unpacking it again gives it back, or an infinity of its sign when the exponent overflows.

The size of a positive finite float `m * 2^e` is measured by its binary magnitude
`m.log2 + e`: the float lies in `[2^(m.log2 + e), 2^(m.log2 + e + 1))`. Rounding keeps the
magnitude of a value that is not below the least subnormal, or raises it by one on a carry.
`Gap k u` says that `u` is a zero, positive infinity, or a positive finite float of magnitude at
least `k`; sums, products by a positive constant and quotients by a positive finite float keep
such a bound, so that no positive quantity they compute can round to zero.

## Main results

* `unpack_pack_finite`, `unpack_pack_of_valid`: packing a rounded value and unpacking it;
* `roundWithAccuracy_finite`, `round_finite`: what rounding leaves of a positive mantissa;
* `gap_add`, `gap_mul`, `gap_div`: the magnitude bounds of sums, products and quotients, and
  when each is zero.
-/

open Float.Model Float.Model.UnpackedFloat

namespace TraceSynth.Unpacked

section Packing

theorem extract_sign (b : BitVec 1) (E : BitVec 11) (M : BitVec 52) :
    (b ++ E ++ M).extractLsb 63 63 = b := by
  ext i hi
  obtain rfl : i = 0 := by omega
  rw [← BitVec.getLsbD_eq_getElem, ← BitVec.getLsbD_eq_getElem, BitVec.getLsbD_extractLsb]
  simp only [BitVec.getLsbD_append]
  rw [if_neg (by omega), if_neg (by omega)]
  rfl

theorem unpackSign_packComponents (s : Sign) (E : BitVec 11) (M : BitVec 52) :
    Sign.ofBitVec (@unpackSign Format.binary64 (packComponents Format.binary64 s E M)) =
      s := by
  simp only [unpackSign, packComponents]
  change Sign.ofBitVec ((s.toBitVec ++ E ++ M).extractLsb 63 63) = s
  rw [extract_sign]
  cases s <;> rfl

/-- A normal float's mantissa field, with its implicit leading bit. -/
theorem toNat_implicit (M : BitVec 52) : (1#1 ++ M).toNat = 2 ^ 52 + M.toNat := by
  rw [BitVec.toNat_append, ← Nat.shiftLeft_add_eq_or_of_lt M.isLt]
  simp [Nat.shiftLeft_eq]

/-- Unpacking a sign, an exponent field and a mantissa field. -/
theorem unpack_packComponents (s : Sign) (E : BitVec 11) (M : BitVec 52) :
    UnpackedFloat.unpack Format.binary64 (packComponents Format.binary64 s E M) =
      if E = -1#11 then (if M = 0#52 then .infinity s else .notANumber)
      else if E = 0#11 then
        (if h : M = 0#52 then .zero s
        else .finite s M.toNat ((E.toNat : Int) - 1075 + 1)
          (by simpa [BitVec.toNat_pos, BitVec.pos_iff_ne_zero]))
      else .finite s (1#1 ++ M).toNat ((E.toNat : Int) - 1075) (by rw [toNat_implicit]; omega) := by
  simp only [UnpackedFloat.unpack, unpackExponent_packComponents, unpackMantissa_packComponents,
    unpackSign_packComponents]
  rfl

theorem ofNat_eleven_inj {b c : Nat} (hb : b < 2048) (hc : c < 2048) :
    BitVec.ofNat 11 b = BitVec.ofNat 11 c ↔ b = c := by
  constructor
  · intro h
    have := congrArg BitVec.toNat h
    simpa [Nat.mod_eq_of_lt hb, Nat.mod_eq_of_lt hc] using this
  · rintro rfl
    rfl

/-- A mantissa and exponent as rounding leaves them: at most 53 bits, an exponent no lower than
the least subnormal one, and exactly 53 bits above it. -/
structure Rounded (m : Nat) (e : Int) : Prop where
  lt : m < 2 ^ 53
  ge : -1074 ≤ e
  normal_or_least : m.log2 = 52 ∨ e = -1074

/-- Packing a rounded finite float and unpacking it gives it back, or an infinity of its sign
when its exponent is past the largest one. -/
theorem unpack_pack_finite {s : Sign} {m : Nat} {e : Int} (h : 0 < m) (hr : Rounded m e) :
    (Float.Model.pack (.finite s m e h)).unpack =
      if e ≤ 971 then .finite s m e h else .infinity s := by
  unfold Float.Model.unpack Float.Model.pack
  simp only [UnpackedFloat.pack]
  have hbias : (Format.binary64.exponentBias : Int) = 1023 := rfl
  have hbits : Format.binary64.mantissaBits = 53 := rfl
  rw [hbias, hbits]
  by_cases ho : e ≤ 971
  · rw [if_neg (by omega), if_pos ho]
    by_cases hn : m.log2 = 52
    · -- 53 bits: the exponent field is the biased exponent, neither all ones nor zero
      rw [if_pos (by omega), unpack_packComponents]
      have hb : (e + 1023 + 52).toNat < 2047 := by omega
      rw [if_neg (by rw [show (-1#11) = BitVec.ofNat 11 2047 from rfl,
          ofNat_eleven_inj (by omega) (by omega)]; omega),
        if_neg (by rw [show (0#11) = BitVec.ofNat 11 0 from rfl,
          ofNat_eleven_inj (by omega) (by omega)]; have := hr.ge; omega)]
      have hm := (Nat.log2_eq_iff (Nat.ne_of_gt h)).mp hn
      have hM : (1#1 ++ BitVec.ofNat 52 m).toNat = m := by
        rw [toNat_implicit, BitVec.toNat_ofNat]
        omega
      have hE : ((BitVec.ofNat 11 (e + 1023 + 52).toNat).toNat : Int) - 1075 = e := by
        rw [BitVec.toNat_ofNat]
        have := hr.ge
        omega
      simp only [hM]
      congr 1
    · -- fewer bits: a subnormal, with the exponent field zero
      have he : e = -1074 := hr.normal_or_least.resolve_left hn
      have hlt : m < 2 ^ 52 := (Nat.log2_lt (Nat.ne_of_gt h)).mp
        (by have := (Nat.log2_lt (Nat.ne_of_gt h)).mpr hr.lt; omega)
      rw [if_neg (by omega), unpack_packComponents, if_neg (by decide), if_pos rfl]
      have hM : BitVec.ofNat 52 m ≠ 0#52 := by
        intro h0
        have := congrArg BitVec.toNat h0
        simp only [BitVec.toNat_ofNat] at this
        omega
      rw [dif_neg hM]
      subst he
      simp only [BitVec.toNat_ofNat, Nat.mod_eq_of_lt hlt]
      rfl
  · rw [if_pos (by omega), if_neg ho]
    simp only [packedInfinity, unpack_packComponents]
    rfl

/-- The unpacked floats that packing gives back: every finite one is rounded and not past the
largest exponent. -/
def Valid : UnpackedFloat → Prop
  | .finite _ m e _ => Rounded m e ∧ e ≤ 971
  | _ => True

/-- Every unpacked float is valid. -/
theorem valid_unpack (b : BitVec 64) : Valid (UnpackedFloat.unpack Format.binary64 b) := by
  cases hu : UnpackedFloat.unpack Format.binary64 b with
  | finite s m e h =>
    unfold UnpackedFloat.unpack at hu
    dsimp only at hu
    have hM := (@unpackMantissa Format.binary64 b).isLt
    have hE := (@unpackExponent Format.binary64 b).isLt
    change _ < 2 ^ 52 at hM
    change _ < 2 ^ 11 at hE
    split at hu
    · split at hu <;> cases hu
    · rename_i hninf
      have hE' : (@unpackExponent Format.binary64 b).toNat ≠ 2047 := fun h' =>
        hninf (BitVec.eq_of_toNat_eq h')
      split at hu
      · -- a subnormal: the least exponent, fewer than 52 bits
        rename_i hzero
        split at hu
        · cases hu
        · cases hu
          have h0 : (@unpackExponent Format.binary64 b).toNat = 0 := by rw [hzero]; rfl
          refine ⟨⟨by omega, by simp [h0, Format.exponentBias], Or.inr ?_⟩, ?_⟩ <;>
            simp [h0, Format.exponentBias]
      · -- a normal float: the implicit bit makes 53
        rename_i hnzero
        cases hu
        have h0 : (@unpackExponent Format.binary64 b).toNat ≠ 0 := fun h' =>
          hnzero (BitVec.eq_of_toNat_eq h')
        have hlog : (2 ^ 52 + (@unpackMantissa Format.binary64 b).toNat).log2 = 52 :=
          (Nat.log2_eq_iff (by omega)).mpr ⟨by omega, by omega⟩
        refine ⟨⟨?_, ?_, Or.inl ?_⟩, ?_⟩
        · rw [toNat_implicit]
          omega
        all_goals simp only [toNat_implicit, hlog, Format.exponentBias]
        all_goals omega
  | _ => trivial

/-- Packing a valid float and unpacking it gives it back. -/
theorem unpack_pack_of_valid {u : UnpackedFloat} (hv : Valid u) : (Float.Model.pack u).unpack = u := by
  cases u with
  | finite s m e h =>
    rw [unpack_pack_finite h hv.1, if_pos hv.2]
  | notANumber => rfl
  | infinity s => cases s <;> rfl
  | zero s => cases s <;> rfl

end Packing

section Rounding

theorem shift_mantissa (em : ExtendedMantissa) (k : Nat) :
    (em >>> k).mantissa = em.mantissa / 2 ^ k := by
  induction k generalizing em with
  | zero =>
    change em.mantissa = em.mantissa / 2 ^ 0
    rw [Nat.pow_zero, Nat.div_one]
  | succ k ih =>
    change (Nat.repeat ExtendedMantissa.shiftRightOne (k + 1) em).mantissa = _
    change (em >>> k).mantissa / 2 = _
    rw [ih, Nat.div_div_eq_div_mul, Nat.pow_succ]

/-- Rounding to nearest keeps the truncated mantissa or adds one. -/
theorem roundedMantissa_bounds (em : ExtendedMantissa) :
    em.mantissa ≤ em.roundedMantissa ∧ em.roundedMantissa ≤ em.mantissa + 1 := by
  obtain ⟨m, r, s⟩ := em
  cases r <;> cases s <;>
    simp only [ExtendedMantissa.roundedMantissa, ExtendedMantissa.accuracy,
      Accuracy.roundToNearestEven] <;> omega

theorem targetExponent_eq (m : Nat) (e : Int) :
    Format.binary64.targetExponent (totalExponent m e) = max ((m.log2 : Int) + e - 52) (-1074) := by
  simp only [Format.targetExponent, totalExponent, Format.mantissaBits, Format.minExponent]
  omega

/-- The first shift of rounding divides the mantissa by a power of two and raises the exponent
by as much. -/
theorem shiftToTargetExponent_eq (m : Nat) (e : Int) (a : Accuracy) :
    (shiftToTargetExponent Format.binary64 m e a).1.mantissa =
        m / 2 ^ (Format.binary64.targetExponent (totalExponent m e) - e).toNat ∧
      (shiftToTargetExponent Format.binary64 m e a).2 =
        e + (Format.binary64.targetExponent (totalExponent m e) - e).toNat := by
  refine ⟨?_, rfl⟩
  simp only [shiftToTargetExponent, shiftToExponent, shift_mantissa]
  cases a with
  | exact => rfl
  | inexact o => cases o <;> rfl

theorem log2_mono {a b : Nat} (ha : 0 < a) (hab : a ≤ b) : a.log2 ≤ b.log2 :=
  (Nat.le_log2 (by omega)).mpr (Nat.le_trans (Nat.log2_self_le (Nat.ne_of_gt ha)) hab)

theorem log2_div_pow {m k : Nat} (hm : 0 < m) (hk : k ≤ m.log2) : (m / 2 ^ k).log2 = m.log2 - k := by
  have hlo := Nat.log2_self_le (Nat.ne_of_gt hm)
  have hhi := Nat.lt_log2_self (n := m)
  have hpos : 0 < m / 2 ^ k := Nat.div_pos (Nat.le_trans (Nat.pow_le_pow_right (by decide) hk) hlo)
    (Nat.two_pow_pos k)
  refine (Nat.log2_eq_iff (Nat.ne_of_gt hpos)).mpr ⟨?_, ?_⟩
  · refine (Nat.le_div_iff_mul_le (Nat.two_pow_pos k)).mpr ?_
    rw [← Nat.pow_add, Nat.sub_add_cancel hk]
    exact hlo
  · refine (Nat.div_lt_iff_lt_mul (Nat.two_pow_pos k)).mpr ?_
    rw [← Nat.pow_add, show m.log2 - k + 1 + k = m.log2 + 1 by omega]
    exact hhi

/-- A rounded mantissa that fits needs no second shift. -/
theorem shiftToTargetExponent_small {r : Nat} {e : Int} (hr : r < 2 ^ 53) (he : -1074 ≤ e) :
    shiftToTargetExponent Format.binary64 r e .exact = (⟨r, false, false⟩, e) := by
  have hlog : r.log2 ≤ 52 := by
    rcases Nat.eq_zero_or_pos r with rfl | hpos
    · simp
    · have := (Nat.log2_lt (Nat.ne_of_gt hpos)).mpr hr
      omega
  have hk : (Format.binary64.targetExponent (totalExponent r e) - e).toNat = 0 := by
    rw [targetExponent_eq]
    omega
  simp only [shiftToTargetExponent, shiftToExponent, hk]
  exact Prod.ext rfl (Int.add_zero e)

/-- A rounding carry to `2^53` is shifted back to `2^52` at the next exponent. -/
theorem shiftToTargetExponent_carry {e : Int} (he : -1074 ≤ e) :
    shiftToTargetExponent Format.binary64 (2 ^ 53) e .exact = (⟨2 ^ 52, false, false⟩, e + 1) := by
  have hk : (Format.binary64.targetExponent (totalExponent (2 ^ 53) e) - e).toNat = 1 := by
    rw [targetExponent_eq, Nat.log2_two_pow]
    omega
  simp only [shiftToTargetExponent, shiftToExponent, hk]
  rfl

/-- Rounding a positive mantissa whose value is not below the least subnormal, given enough bits
or an exponent no higher than the least: the result is finite and rounded, of the same magnitude
or one more after a carry. -/
theorem roundWithAccuracy_finite (s : Sign) {m : Nat} {e : Int} (a : Accuracy) (hm : 0 < m)
    (hc : 52 ≤ m.log2 ∨ e ≤ -1074) (hk : -1074 ≤ (m.log2 : Int) + e) :
    ∃ m' e' h', roundWithAccuracy Format.binary64 s m e a = .finite s m' e' h' ∧ Rounded m' e' ∧
      (m.log2 : Int) + e ≤ m'.log2 + e' ∧ (m'.log2 : Int) + e' ≤ m.log2 + e + 1 := by
  obtain ⟨h1, h2⟩ := shiftToTargetExponent_eq m e a
  rw [targetExponent_eq] at h1 h2
  obtain ⟨k, hkdef⟩ : ∃ k, (max ((m.log2 : Int) + e - 52) (-1074) - e).toNat = k := ⟨_, rfl⟩
  rw [hkdef] at h1 h2
  -- the first shift keeps the leading bit and leaves at most 53
  have hkle : k ≤ m.log2 := by omega
  have hlog₁ := log2_div_pow hm hkle
  have hpos₁ : 0 < m / 2 ^ k :=
    Nat.div_pos (Nat.le_trans (Nat.pow_le_pow_right (by decide) hkle)
      (Nat.log2_self_le (Nat.ne_of_gt hm))) (Nat.two_pow_pos k)
  have hlt₁ : m / 2 ^ k < 2 ^ 53 := (Nat.log2_lt (Nat.ne_of_gt hpos₁)).mp (by omega)
  generalize hfirst : shiftToTargetExponent Format.binary64 m e a = first at h1 h2
  obtain ⟨em, e₁⟩ := first
  dsimp only at h1 h2
  have he₁ : -1074 ≤ e₁ := by omega
  have hb := roundedMantissa_bounds em
  rw [h1] at hb
  unfold roundWithAccuracy
  rw [hfirst]
  dsimp only
  by_cases hr : em.roundedMantissa < 2 ^ 53
  · rw [shiftToTargetExponent_small hr he₁]
    dsimp only
    rw [dif_neg (by omega)]
    have hlo := log2_mono hpos₁ hb.1
    have hhi : em.roundedMantissa.log2 ≤ (m / 2 ^ k).log2 + 1 := by
      have := Nat.lt_log2_self (n := m / 2 ^ k)
      exact (Nat.log2_lt (by omega)).mpr (by rw [Nat.pow_succ]; omega) |> Nat.le_of_lt_succ
    refine ⟨_, _, _, rfl, ⟨hr, he₁, ?_⟩, by omega, by omega⟩
    by_cases hl : e₁ = -1074
    · exact .inr hl
    · -- above the least exponent the first shift leaves exactly 53 bits
      have : (m / 2 ^ k).log2 = 52 := by omega
      exact .inl (Nat.le_antisymm ((Nat.log2_lt (by omega)).mpr hr |> Nat.le_of_lt_succ)
        (this ▸ hlo))
  · have h53 : em.roundedMantissa = 2 ^ 53 := by omega
    rw [h53, shiftToTargetExponent_carry he₁]
    dsimp only
    rw [dif_neg (by decide)]
    have hlog₁' : (m / 2 ^ k).log2 = 52 := by
      refine (Nat.log2_eq_iff (by omega)).mpr ⟨?_, hlt₁⟩
      omega
    refine ⟨_, _, _, rfl, ⟨by decide, by omega, .inl Nat.log2_two_pow⟩, ?_, ?_⟩ <;>
      rw [Nat.log2_two_pow] <;> omega

theorem log2_shiftLeft {m : Nat} (hm : 0 < m) (j : Nat) : (m <<< j).log2 = m.log2 + j := by
  rw [Nat.shiftLeft_eq]
  refine (Nat.log2_eq_iff (Nat.ne_of_gt (Nat.mul_pos hm (Nat.two_pow_pos j)))).mpr ⟨?_, ?_⟩
  · rw [Nat.pow_add]
    exact Nat.mul_le_mul_right _ (Nat.log2_self_le (Nat.ne_of_gt hm))
  · rw [show m.log2 + j + 1 = (m.log2 + 1) + j by omega, Nat.pow_add]
    exact Nat.mul_lt_mul_of_pos_right Nat.lt_log2_self (Nat.two_pow_pos j)

/-- Rounding with the exponent first lowered to give the mantissa all its bits. -/
theorem round_finite (s : Sign) {m : Nat} {e : Int} (hm : 0 < m) (hk : -1074 ≤ (m.log2 : Int) + e) :
    ∃ m' e' h', UnpackedFloat.round Format.binary64 s m e = .finite s m' e' h' ∧ Rounded m' e' ∧
      (m.log2 : Int) + e ≤ m'.log2 + e' ∧ (m'.log2 : Int) + e' ≤ m.log2 + e + 1 := by
  unfold UnpackedFloat.round decreaseExponent
  dsimp only
  rw [targetExponent_eq]
  obtain ⟨j, hj⟩ : ∃ j, (e - max ((m.log2 : Int) + e - 52) (-1074)).toNat = j := ⟨_, rfl⟩
  rw [hj]
  have hlog := log2_shiftLeft hm j
  have hpos : 0 < m <<< j := by rw [Nat.shiftLeft_eq]; exact Nat.mul_pos hm (Nat.two_pow_pos j)
  obtain ⟨m', e', h', hr, hround, hlo, hhi⟩ :=
    roundWithAccuracy_finite s (e := e - (j : Int)) .exact hpos (by omega) (by omega)
  exact ⟨m', e', h', hr, hround, by omega, by omega⟩

end Rounding

section Magnitude

/-- A zero, positive infinity, or a positive finite float of binary magnitude at least `k`. -/
def Gap (k : Int) : UnpackedFloat → Prop
  | .zero _ => True
  | .infinity s => s = .positive
  | .finite s m e _ => s = .positive ∧ k ≤ (m.log2 : Int) + e
  | .notANumber => False

/-- A zero of either sign. -/
def IsZero : UnpackedFloat → Prop
  | .zero _ => True
  | _ => False

theorem not_isZero_infinity (s : Sign) : ¬IsZero (.infinity s) := id

theorem not_isZero_finite {s : Sign} {m : Nat} {e : Int} {h : 0 < m} :
    ¬IsZero (.finite s m e h) := id

theorem Gap.mono {k j : Int} {u : UnpackedFloat} (h : Gap k u) (hjk : j ≤ k) : Gap j u := by
  cases u with
  | finite s m e _ => exact ⟨h.1, Int.le_trans hjk h.2⟩
  | _ => exact h

/-- A rounded positive float of magnitude at least `k`, packed and unpacked, is not zero and
keeps the bound, as itself or as positive infinity. -/
theorem gap_pack_finite {k : Int} {m : Nat} {e : Int} (h : 0 < m) (hr : Rounded m e)
    (hk : k ≤ (m.log2 : Int) + e) :
    Gap k (Float.Model.pack (.finite .positive m e h)).unpack ∧
      ¬IsZero (Float.Model.pack (.finite .positive m e h)).unpack := by
  rw [unpack_pack_finite h hr]
  split
  · exact ⟨⟨rfl, hk⟩, id⟩
  · exact ⟨rfl, id⟩

theorem unpack_pack_infinity (s : Sign) : (Float.Model.pack (.infinity s)).unpack = .infinity s :=
  unpack_pack_of_valid (u := .infinity s) trivial

theorem unpack_pack_zero (s : Sign) : (Float.Model.pack (.zero s)).unpack = .zero s :=
  unpack_pack_of_valid (u := .zero s) trivial

/-- A valid float of magnitude at least `k` is at least `2^-1074`, as every float is. -/
theorem magnitude_ge {s : Sign} {m : Nat} {e : Int} {h : 0 < m} (hv : Valid (.finite s m e h)) :
    -1074 ≤ (m.log2 : Int) + e := by
  have := hv.1.ge
  omega

/-- A sum of two floats of magnitude at least `k` has that magnitude, and is zero only when both
are. -/
theorem gap_add {k : Int} {x y : UnpackedFloat} (vx : Valid x) (vy : Valid y) (gx : Gap k x)
    (gy : Gap k y) :
    Gap k (Float.Model.pack (UnpackedFloat.add Format.binary64 x y)).unpack ∧
      (IsZero (Float.Model.pack (UnpackedFloat.add Format.binary64 x y)).unpack ↔
        IsZero x ∧ IsZero y) := by
  cases x with
  | notANumber => exact gx.elim
  | infinity s =>
    cases gx
    have hinf : UnpackedFloat.add Format.binary64 (.infinity .positive) y = .infinity .positive := by
      cases y with
      | notANumber => exact gy.elim
      | infinity t => cases gy; rfl
      | zero t => rfl
      | finite t m e h => rfl
    rw [hinf, unpack_pack_infinity]
    exact ⟨rfl, iff_of_false (not_isZero_infinity _) fun h => not_isZero_infinity _ h.1⟩
  | zero s =>
    cases y with
    | notANumber => exact gy.elim
    | infinity t =>
      cases gy
      rw [show UnpackedFloat.add Format.binary64 (.zero s) (.infinity .positive) =
        .infinity .positive from rfl, unpack_pack_infinity]
      exact ⟨rfl, iff_of_false (not_isZero_infinity _) fun h => not_isZero_infinity _ h.2⟩
    | zero t =>
      obtain ⟨r, hr⟩ : ∃ r, UnpackedFloat.add Format.binary64 (.zero s) (.zero t) = .zero r := by
        cases s <;> cases t <;> exact ⟨_, rfl⟩
      rw [hr, unpack_pack_zero]
      exact ⟨trivial, iff_of_true trivial ⟨trivial, trivial⟩⟩
    | finite t m e h =>
      change Gap k (Float.Model.pack (.finite t m e h)).unpack ∧
        (IsZero (Float.Model.pack (.finite t m e h)).unpack ↔ _)
      rw [unpack_pack_of_valid vy]
      exact ⟨gy, iff_of_false not_isZero_finite fun h => not_isZero_finite h.2⟩
  | finite s m₁ e₁ h₁ =>
    obtain ⟨rfl, hk₁⟩ := gx
    cases y with
    | notANumber => exact gy.elim
    | infinity t =>
      cases gy
      rw [show UnpackedFloat.add Format.binary64 (.finite .positive m₁ e₁ h₁) (.infinity .positive) =
        .infinity .positive from rfl, unpack_pack_infinity]
      exact ⟨rfl, iff_of_false (not_isZero_infinity _) fun h => not_isZero_finite h.1⟩
    | zero t =>
      change Gap k (Float.Model.pack (.finite .positive m₁ e₁ h₁)).unpack ∧
        (IsZero (Float.Model.pack (.finite .positive m₁ e₁ h₁)).unpack ↔ _)
      rw [unpack_pack_of_valid vx]
      exact ⟨⟨rfl, hk₁⟩, iff_of_false not_isZero_finite fun h => not_isZero_finite h.1⟩
    | finite t m₂ e₂ h₂ =>
      obtain ⟨rfl, hk₂⟩ := gy
      -- both aligned to the lower exponent, the mantissas add to one of at least either's size
      have hm₁ := log2_shiftLeft h₁ (e₁ - min e₁ e₂).toNat
      have hm₂ := log2_shiftLeft h₂ (e₂ - min e₁ e₂).toNat
      have hp₁ : 0 < m₁ <<< (e₁ - min e₁ e₂).toNat := by
        rw [Nat.shiftLeft_eq]; exact Nat.mul_pos h₁ (Nat.two_pow_pos _)
      have hp₂ : 0 < m₂ <<< (e₂ - min e₁ e₂).toNat := by
        rw [Nat.shiftLeft_eq]; exact Nat.mul_pos h₂ (Nat.two_pow_pos _)
      have hsum₁ := log2_mono hp₁ (Nat.le_add_right _ (m₂ <<< (e₂ - min e₁ e₂).toNat))
      have hsum₂ := log2_mono hp₂ (Nat.le_add_left _ (m₁ <<< (e₁ - min e₁ e₂).toNat))
      have hlow := magnitude_ge vx
      obtain ⟨m', e', h', hround, hr, hlo, -⟩ :=
        round_finite .positive (m := m₁ <<< (e₁ - min e₁ e₂).toNat + m₂ <<< (e₂ - min e₁ e₂).toNat)
          (e := min e₁ e₂) (by omega) (by omega)
      have hadd : UnpackedFloat.add Format.binary64 (.finite .positive m₁ e₁ h₁)
          (.finite .positive m₂ e₂ h₂) = .finite .positive m' e' h' := by
        change UnpackedFloat.normalize Format.binary64 (((m₁ <<< (e₁ - min e₁ e₂).toNat : Nat) : Int) +
          ((m₂ <<< (e₂ - min e₁ e₂).toNat : Nat) : Int)) (min e₁ e₂) .positive = _
        unfold UnpackedFloat.normalize
        rw [Int.compare_eq_gt.mpr (by omega), ← Int.natCast_add, Int.toNat_natCast]
        exact hround
      rw [hadd]
      obtain ⟨hg, hz⟩ := gap_pack_finite h' hr (k := k) (by omega)
      exact ⟨hg, iff_of_false hz fun h => not_isZero_finite h.1⟩

/-- A positive finite float of binary magnitude between `lo` and `hi`. -/
def Between (lo hi : Int) : UnpackedFloat → Prop
  | .finite s m e _ => s = .positive ∧ lo ≤ (m.log2 : Int) + e ∧ (m.log2 : Int) + e ≤ hi
  | _ => False

theorem Between.mono {lo hi lo' hi' : Int} {u : UnpackedFloat} (h : Between lo hi u)
    (hlo : lo' ≤ lo) (hhi : hi ≤ hi') : Between lo' hi' u := by
  cases u with
  | finite s m e _ => exact ⟨h.1, Int.le_trans hlo h.2.1, Int.le_trans h.2.2 hhi⟩
  | _ => exact h.elim

theorem Between.gap {lo hi : Int} {u : UnpackedFloat} (h : Between lo hi u) : Gap lo u := by
  cases u with
  | finite s m e _ => exact ⟨h.1, h.2.1⟩
  | _ => exact h.elim

theorem Between.not_isZero {lo hi : Int} {u : UnpackedFloat} (h : Between lo hi u) : ¬IsZero u := by
  cases u with
  | finite s m e _ => exact not_isZero_finite
  | _ => exact h.elim

theorem log2_mul_ge {a b : Nat} (ha : 0 < a) (hb : 0 < b) : a.log2 + b.log2 ≤ (a * b).log2 :=
  (Nat.le_log2 (Nat.ne_of_gt (Nat.mul_pos ha hb))).mpr (by
    rw [Nat.pow_add]
    exact Nat.mul_le_mul (Nat.log2_self_le (Nat.ne_of_gt ha)) (Nat.log2_self_le (Nat.ne_of_gt hb)))

theorem mul_comm_unpacked (x y : UnpackedFloat) :
    UnpackedFloat.mul Format.binary64 x y = UnpackedFloat.mul Format.binary64 y x := by
  cases x <;> cases y <;> simp only [UnpackedFloat.mul] <;>
    first
    | rfl
    | (rename_i s t; cases s <;> cases t <;> rfl)
    | (rename_i s _ _ _ t; cases s <;> cases t <;> rfl)
    | (rename_i s t _ _ _; cases s <;> cases t <;> rfl)
    | (rename_i s m e _ t n f _
       rw [Nat.mul_comm m n, Int.add_comm e f]
       cases s <;> cases t <;> rfl)

/-- A product by a positive constant of magnitude at least `j` raises the magnitude bound by
`j`, and is zero only with the other factor. -/
theorem gap_mul {k j hi : Int} {x c : UnpackedFloat} (vx : Valid x) (vc : Valid c) (gx : Gap k x)
    (hc : Between j hi c) (hkj : -1074 ≤ k + j) :
    Gap (k + j) (Float.Model.pack (UnpackedFloat.mul Format.binary64 x c)).unpack ∧
      (IsZero (Float.Model.pack (UnpackedFloat.mul Format.binary64 x c)).unpack ↔ IsZero x) := by
  cases c with
  | finite t mc ec hmc =>
    obtain ⟨rfl, hj, -⟩ := hc
    cases x with
    | notANumber => exact gx.elim
    | infinity s =>
      cases gx
      rw [show UnpackedFloat.mul Format.binary64 (.infinity .positive) (.finite .positive mc ec hmc) =
        .infinity .positive from rfl, unpack_pack_infinity]
      exact ⟨rfl, iff_of_false (not_isZero_infinity _) (not_isZero_infinity _)⟩
    | zero s =>
      obtain ⟨r, hr⟩ : ∃ r, UnpackedFloat.mul Format.binary64 (.zero s)
          (.finite .positive mc ec hmc) = .zero r := ⟨_, rfl⟩
      rw [hr, unpack_pack_zero]
      exact ⟨trivial, iff_of_true trivial trivial⟩
    | finite s mx ex hmx =>
      obtain ⟨rfl, hk⟩ := gx
      -- the exact product has at least the two magnitudes' sum, and bits enough unless both
      -- factors are subnormal
      have hlog := log2_mul_ge hmx hmc
      have hrx := vx.1
      have hrc := vc.1
      have henough : 52 ≤ (mx * mc).log2 ∨ ex + ec ≤ -1074 := by
        left
        rcases hrx.normal_or_least with h1 | h1 <;> rcases hrc.normal_or_least with h2 | h2 <;> omega
      obtain ⟨m', e', h', hround, hr, hlo, -⟩ :=
        roundWithAccuracy_finite .positive (m := mx * mc) (e := ex + ec) .exact
          (Nat.mul_pos hmx hmc) henough (by omega)
      rw [show UnpackedFloat.mul Format.binary64 (.finite .positive mx ex hmx)
          (.finite .positive mc ec hmc) = .finite .positive m' e' h' from hround]
      obtain ⟨hg, hz⟩ := gap_pack_finite h' hr (k := k + j) (by omega)
      exact ⟨hg, iff_of_false hz not_isZero_finite⟩
  | _ => exact hc.elim

/-- A quotient of naturals whose dividend has at least `B + 1` more bits than the divisor has
`A - B - 1` bits at least. -/
theorem log2_div_ge {a b A B : Nat} (ha : 2 ^ A ≤ a) (hb : 0 < b) (hb' : b < 2 ^ (B + 1))
    (hAB : B + 1 ≤ A) : 0 < a / b ∧ A - B - 1 ≤ (a / b).log2 := by
  have hq : 2 ^ (A - B - 1) ≤ a / b := by
    refine (Nat.le_div_iff_mul_le hb).mpr (Nat.le_trans ?_ ha)
    calc 2 ^ (A - B - 1) * b ≤ 2 ^ (A - B - 1) * 2 ^ (B + 1) :=
          Nat.mul_le_mul_left _ (Nat.le_of_lt hb')
      _ = 2 ^ A := by rw [← Nat.pow_add]; congr 1; omega
  have hpos : 0 < a / b := Nat.lt_of_lt_of_le (Nat.two_pow_pos _) hq
  exact ⟨hpos, (Nat.le_log2 (Nat.ne_of_gt hpos)).mpr hq⟩

/-- A quotient by a positive finite float of magnitude at most `j` has magnitude at least
`k - j - 1`, and is zero only with the dividend. -/
theorem gap_div {k j lo : Int} {x c : UnpackedFloat} (vx : Valid x) (gx : Gap k x)
    (hc : Between lo j c) (hkj : -1074 ≤ k - j - 1) :
    Gap (k - j - 1) (Float.Model.pack (UnpackedFloat.div Format.binary64 x c)).unpack ∧
      (IsZero (Float.Model.pack (UnpackedFloat.div Format.binary64 x c)).unpack ↔ IsZero x) := by
  cases c with
  | finite t mc ec hmc =>
    obtain ⟨rfl, -, hj⟩ := hc
    cases x with
    | notANumber => exact gx.elim
    | infinity s =>
      cases gx
      rw [show UnpackedFloat.div Format.binary64 (.infinity .positive) (.finite .positive mc ec hmc) =
        .infinity .positive from rfl, unpack_pack_infinity]
      exact ⟨rfl, iff_of_false (not_isZero_infinity _) (not_isZero_infinity _)⟩
    | zero s =>
      obtain ⟨r, hr⟩ : ∃ r, UnpackedFloat.div Format.binary64 (.zero s)
          (.finite .positive mc ec hmc) = .zero r := ⟨_, rfl⟩
      rw [hr, unpack_pack_zero]
      exact ⟨trivial, iff_of_true trivial trivial⟩
    | finite s mx ex hmx =>
      obtain ⟨rfl, hk⟩ := gx
      -- the dividend is shifted left until the quotient has 53 bits, or down to the least exponent
      obtain ⟨tE, htE⟩ : ∃ tE, min (ex - ec) (Format.binary64.targetExponent
          (totalExponent mx ex - totalExponent mc ec)) = tE := ⟨_, rfl⟩
      have htE' : tE = min (ex - ec) (max ((mx.log2 : Int) + ex - (mc.log2 + ec) - 53) (-1074)) := by
        rw [← htE]
        simp only [Format.targetExponent, totalExponent, Format.mantissaBits, Format.minExponent]
        omega
      obtain ⟨sh, hsh⟩ : ∃ sh, (ex - ec - tE).toNat = sh := ⟨_, rfl⟩
      have hshift : 2 ^ (mx.log2 + sh) ≤ mx <<< sh := by
        rw [Nat.shiftLeft_eq, Nat.pow_add]
        exact Nat.mul_le_mul_right _ (Nat.log2_self_le (Nat.ne_of_gt hmx))
      obtain ⟨hqpos, hqlog⟩ := log2_div_ge hshift hmc Nat.lt_log2_self (by omega)
      have hlow := magnitude_ge vx
      obtain ⟨m', e', h', hround, hr, hlo, -⟩ :=
        roundWithAccuracy_finite .positive (m := (mx <<< sh) / mc) (e := tE)
          (accuracyOfFraction ((mx <<< sh) % mc) mc) hqpos (by omega) (by omega)
      have hdiv : UnpackedFloat.div Format.binary64 (.finite .positive mx ex hmx)
          (.finite .positive mc ec hmc) = .finite .positive m' e' h' := by
        change roundWithAccuracy Format.binary64 (.positive / .positive)
          (divCore Format.binary64 mx ex mc ec).1 (divCore Format.binary64 mx ex mc ec).2.1
          (divCore Format.binary64 mx ex mc ec).2.2 = _
        simp only [divCore, htE, hsh]
        exact hround
      rw [hdiv]
      obtain ⟨hg, hz⟩ := gap_pack_finite h' hr (k := k - j - 1) (by omega)
      exact ⟨hg, iff_of_false hz not_isZero_finite⟩
  | _ => exact hc.elim

/-- Two positive finite floats multiply to their exact product, rounded. -/
theorem mul_finite_positive {m₁ m₂ : Nat} {e₁ e₂ : Int} (h₁ : 0 < m₁) (h₂ : 0 < m₂) :
    UnpackedFloat.mul Format.binary64 (.finite .positive m₁ e₁ h₁) (.finite .positive m₂ e₂ h₂) =
      roundWithAccuracy Format.binary64 .positive (m₁ * m₂) (e₁ + e₂) .exact := rfl

theorem log2_mul_le {a b : Nat} (ha : 0 < a) (hb : 0 < b) : (a * b).log2 ≤ a.log2 + b.log2 + 1 := by
  have : a * b < 2 ^ (a.log2 + b.log2 + 2) := by
    rw [show a.log2 + b.log2 + 2 = (a.log2 + 1) + (b.log2 + 1) by omega, Nat.pow_add]
    exact Nat.mul_lt_mul'' Nat.lt_log2_self Nat.lt_log2_self
  have := (Nat.log2_lt (Nat.ne_of_gt (Nat.mul_pos ha hb))).mpr this
  omega

/-- A product of two positive finite floats lies within the sum of their magnitude bounds, up to
two more for the bits of the exact product and a rounding carry. -/
theorem between_mul {lo₁ hi₁ lo₂ hi₂ : Int} {x c : UnpackedFloat} (vx : Valid x) (vc : Valid c)
    (hx : Between lo₁ hi₁ x) (hc : Between lo₂ hi₂ c) (hlo : -1074 ≤ lo₁ + lo₂)
    (hhi : hi₁ + hi₂ + 2 ≤ 971) :
    Between (lo₁ + lo₂) (hi₁ + hi₂ + 2) (Float.Model.pack (UnpackedFloat.mul Format.binary64 x c)).unpack := by
  cases x with
  | finite s mx ex hmx =>
    cases c with
    | finite t mc ec hmc =>
      obtain ⟨rfl, hlx, hhx⟩ := hx
      obtain ⟨rfl, hlc, hhc⟩ := hc
      have hge := log2_mul_ge hmx hmc
      have hle := log2_mul_le hmx hmc
      have hrx := vx.1
      have hrc := vc.1
      have henough : 52 ≤ (mx * mc).log2 ∨ ex + ec ≤ -1074 := by
        left
        rcases hrx.normal_or_least with h1 | h1 <;> rcases hrc.normal_or_least with h2 | h2 <;> omega
      obtain ⟨m', e', h', hround, hr, hlo', hhi'⟩ :=
        roundWithAccuracy_finite .positive (m := mx * mc) (e := ex + ec) .exact
          (Nat.mul_pos hmx hmc) henough (by omega)
      rw [show UnpackedFloat.mul Format.binary64 (.finite .positive mx ex hmx)
          (.finite .positive mc ec hmc) = .finite .positive m' e' h' from hround,
        unpack_pack_finite h' hr, if_pos (by omega)]
      exact ⟨rfl, by omega, by omega⟩
    | _ => exact hc.elim
  | _ => exact hx.elim

end Magnitude

end TraceSynth.Unpacked
