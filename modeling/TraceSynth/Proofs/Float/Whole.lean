import TraceSynth.Proofs.Float.Order
import TraceSynth.Proofs.Decimal.Round

/-!
# Whole numbers as floats

A natural number `n` below `2^53` converts to a float exactly. The float model normalizes it to
the 53-bit mantissa `n · 2^(52 - log₂ n)` at the exponent `-(52 - log₂ n)`, with nothing to
round; packing keeps that form, and the multiplication by `1.0` that the conversion ends with
shifts the 52 zero bits it adds back out (`Magnitude.unpack_toFloat_exact`).

## Main results

* `Binary64.parts_toFloat`: the fields of the bit pattern of such a number's float;
* `FloatOrder.toFloat_le_toFloat`: such floats compare as the numbers do;
* `Magnitude.toUInt64_toFloat`: converting the float back to a 64-bit integer gives the number.
-/

namespace TraceSynth

open Float.Model Float.Model.UnpackedFloat

namespace Unpacked

/-- Shifting the `k` zero bits of `a · 2^k` out of an exact mantissa loses nothing. -/
theorem shiftRight_exact (a k : Nat) :
    (⟨a * 2 ^ k, false, false⟩ : ExtendedMantissa) >>> k = ⟨a, false, false⟩ := by
  induction k generalizing a with
  | zero =>
    show (⟨a * 2 ^ 0, false, false⟩ : ExtendedMantissa) = _
    rw [Nat.pow_zero, Nat.mul_one]
  | succ k ih =>
    change ExtendedMantissa.shiftRightOne ((⟨a * 2 ^ (k + 1), false, false⟩ : ExtendedMantissa) >>> k) = _
    rw [show a * 2 ^ (k + 1) = 2 * a * 2 ^ k by rw [Nat.pow_succ]; ring, ih]
    simp [ExtendedMantissa.shiftRightOne]

/-- A positive mantissa of at most 53 bits at an exponent no lower than the least is already
rounded: both shifts of rounding move nothing. -/
theorem roundWithAccuracy_small (s : Sign) {m : Nat} {e : Int} (hm : 0 < m) (h53 : m < 2 ^ 53)
    (he : -1074 ≤ e) : roundWithAccuracy Format.binary64 s m e .exact = .finite s m e hm := by
  unfold roundWithAccuracy
  rw [shiftToTargetExponent_small h53 he]
  dsimp only
  rw [show (⟨m, false, false⟩ : ExtendedMantissa).roundedMantissa = m from rfl,
    shiftToTargetExponent_small h53 he]
  dsimp only
  rw [dif_neg (Nat.ne_of_gt hm)]

/-- A 53-bit mantissa with `k` zero bits appended, at an exponent lowered by `k`, rounds back to
the mantissa: the first shift of rounding drops exactly the zero bits. -/
theorem roundWithAccuracy_shifted (s : Sign) {m : Nat} {e : Int} (k : Nat) (hm : 0 < m)
    (hlog : m.log2 = 52) (he : -1074 ≤ e) :
    roundWithAccuracy Format.binary64 s (m * 2 ^ k) (e - k) .exact = .finite s m e hm := by
  have hlog' : (m * 2 ^ k).log2 = 52 + k := by
    rw [← Nat.shiftLeft_eq, log2_shiftLeft hm, hlog]
  have h53 : m < 2 ^ 53 := by
    have h := @Nat.lt_log2_self m
    rwa [hlog] at h
  have hshift : shiftToTargetExponent Format.binary64 (m * 2 ^ k) (e - k) .exact =
      (⟨m, false, false⟩, e) := by
    unfold shiftToTargetExponent shiftToExponent
    rw [targetExponent_eq, hlog']
    have hk : (max (((52 + k : Nat) : Int) + (e - k) - 52) (-1074) - (e - k)).toNat = k := by
      omega
    dsimp only
    rw [hk]
    exact Prod.ext (shiftRight_exact m k) (by simp)
  unfold roundWithAccuracy
  rw [hshift]
  dsimp only
  rw [show (⟨m, false, false⟩ : ExtendedMantissa).roundedMantissa = m from rfl,
    shiftToTargetExponent_small h53 he]
  dsimp only
  rw [dif_neg (Nat.ne_of_gt hm)]

/-- The normalized mantissa of a positive whole number below `2^53`: the number with zero bits
appended up to 53 bits. -/
def wholeMantissa (n : Nat) : Nat := n <<< (52 - n.log2)

/-- The exponent that goes with `wholeMantissa n`. -/
def wholeExponent (n : Nat) : Int := -((52 - n.log2 : Nat) : Int)

theorem wholeMantissa_pos {n : Nat} (hn : 0 < n) : 0 < wholeMantissa n := by
  rw [wholeMantissa, Nat.shiftLeft_eq]
  exact Nat.mul_pos hn (Nat.two_pow_pos _)

section Whole

variable {n : Nat} (hn : 0 < n) (h53 : n < 2 ^ 53)
include hn h53

theorem log2_lt_53 : n.log2 < 53 := (Nat.log2_lt (Nat.ne_of_gt hn)).2 h53

theorem log2_wholeMantissa : (wholeMantissa n).log2 = 52 := by
  rw [wholeMantissa, log2_shiftLeft hn]
  have := log2_lt_53 hn h53
  omega

theorem wholeMantissa_rounded : Rounded (wholeMantissa n) (wholeExponent n) where
  lt := by
    have h := @Nat.lt_log2_self (wholeMantissa n)
    rwa [log2_wholeMantissa hn h53] at h
  ge := by unfold wholeExponent; omega
  normal_or_least := .inl (log2_wholeMantissa hn h53)

/-- Rounding a positive whole number below `2^53` only normalizes it. -/
theorem round_whole (s : Sign) :
    UnpackedFloat.round Format.binary64 s n 0 =
      .finite s (wholeMantissa n) (wholeExponent n) (wholeMantissa_pos hn) := by
  have hlog := log2_lt_53 hn h53
  unfold UnpackedFloat.round decreaseExponent
  dsimp only
  rw [targetExponent_eq]
  have hj : ((0 : Int) - max ((n.log2 : Int) + 0 - 52) (-1074)).toNat = 52 - n.log2 := by omega
  rw [hj]
  have he : (0 : Int) - ((52 - n.log2 : Nat) : Int) = wholeExponent n := by
    unfold wholeExponent
    omega
  rw [he]
  exact roundWithAccuracy_small s _ (wholeMantissa_rounded hn h53).lt
    (wholeMantissa_rounded hn h53).ge

end Whole

end Unpacked

namespace Magnitude

open Unpacked

section Whole

variable {n : Nat} (hn : 0 < n) (h53 : n < 2 ^ 53)
include hn h53

/-- A positive whole number below `2^53` converts to the float of its normalized mantissa and
exponent, exactly. -/
theorem unpack_toFloat_exact :
    n.toFloat.toModel.unpack =
      .finite .positive (wholeMantissa n) (wholeExponent n) (wholeMantissa_pos hn) := by
  have hr := wholeMantissa_rounded hn h53
  have hof : UnpackedFloat.ofUInt64 Format.binary64 n.toUInt64 = UnpackedFloat.round
      Format.binary64 .positive n 0 := by
    unfold UnpackedFloat.ofUInt64 UnpackedFloat.ofNat UnpackedFloat.ofInt UnpackedFloat.normalize
    rw [UInt64.toNat_ofNat_of_lt' (Nat.lt_trans h53 (by decide)), Int.compare_eq_gt.mpr (by omega),
      Int.toNat_natCast]
  have hexp : wholeExponent n ≤ 971 := by unfold wholeExponent; omega
  rw [unpack_toFloat_of_lt h53, hof, round_whole hn h53, unpack_pack_finite _ hr, if_pos hexp,
    mul_finite_positive,
    show wholeExponent n + -52 = wholeExponent n - ((52 : Nat) : Int) by omega,
    roundWithAccuracy_shifted .positive 52 _ (log2_wholeMantissa hn h53) hr.ge,
    unpack_pack_finite _ hr, if_pos hexp]

end Whole

/-- A whole number below `2^53` converts to `+0` or to its exact positive float. -/
def wholeUnpack (n : Nat) : UnpackedFloat :=
  if h : 0 < n then .finite .positive (wholeMantissa n) (wholeExponent n) (wholeMantissa_pos h)
  else .zero .positive

theorem unpack_toFloat {n : Nat} (h53 : n < 2 ^ 53) : n.toFloat.toModel.unpack = wholeUnpack n := by
  unfold wholeUnpack
  split
  · next hn => exact unpack_toFloat_exact hn h53
  · next hn =>
    rw [Nat.eq_zero_of_not_pos hn]
    exact unpack_zero

theorem wholeUnpack_isNaN (n : Nat) : (wholeUnpack n).isNaN = false := by
  unfold wholeUnpack
  split <;> rfl

/-- The ranks of the floats of whole numbers are ordered as the numbers: a larger number has a
larger exponent, or the same exponent and a larger mantissa. -/
theorem rank_wholeUnpack_lt {n m : Nat} (hnm : n < m) (hm : m < 2 ^ 53) :
    rank (wholeUnpack n) < rank (wholeUnpack m) := by
  have hm0 : 0 < m := by omega
  unfold wholeUnpack
  rw [dif_pos hm0]
  split
  · next hn =>
    have hlog : n.log2 ≤ m.log2 := log2_mono hn hnm.le
    have hm53 := log2_lt_53 hm0 hm
    simp only [rank, Prod.Lex.toLex_lt_toLex, lt_self_iff_false, true_and, false_or]
    rcases Nat.lt_or_eq_of_le hlog with hlt | heq
    · left
      unfold wholeExponent
      omega
    · right
      refine ⟨by unfold wholeExponent; omega, ?_⟩
      unfold wholeMantissa
      rw [heq, Nat.shiftLeft_eq, Nat.shiftLeft_eq]
      exact_mod_cast Nat.mul_lt_mul_of_pos_right hnm (Nat.two_pow_pos _)
  · simp [rank, Prod.Lex.toLex_lt_toLex]

end Magnitude

namespace FloatOrder

open Unpacked Magnitude

variable {n m : Nat}

theorem toFloat_isNaN (h53 : n < 2 ^ 53) : n.toFloat.isNaN = false := by
  show n.toFloat.toModel.unpack.isNaN = false
  rw [unpack_toFloat h53]
  exact wholeUnpack_isNaN n

/-- Floats of whole numbers below `2^53` are ordered as the numbers. -/
theorem toFloat_lt_toFloat (hn : n < 2 ^ 53) (hm : m < 2 ^ 53) :
    n.toFloat < m.toFloat ↔ n < m := by
  rw [lt_iff, toFloat_isNaN hn, toFloat_isNaN hm, unpack_toFloat hn, unpack_toFloat hm]
  refine ⟨fun ⟨_, _, hlt⟩ => ?_, fun hnm => ⟨rfl, rfl, rank_wholeUnpack_lt hnm hm⟩⟩
  by_contra hge
  rcases Nat.lt_or_eq_of_le (Nat.le_of_not_lt hge) with hmn | rfl
  · exact lt_asymm hlt (rank_wholeUnpack_lt hmn hn)
  · exact hlt.ne rfl

theorem toFloat_le_toFloat (hn : n < 2 ^ 53) (hm : m < 2 ^ 53) :
    n.toFloat ≤ m.toFloat ↔ n ≤ m := by
  rw [le_iff, toFloat_isNaN hn, toFloat_isNaN hm, unpack_toFloat hn, unpack_toFloat hm]
  refine ⟨fun ⟨_, _, hle⟩ => Nat.le_of_not_lt fun hmn => ?_, fun hnm => ⟨rfl, rfl, ?_⟩⟩
  · exact not_lt_of_ge hle (rank_wholeUnpack_lt hmn hn)
  · rcases Nat.lt_or_eq_of_le hnm with hlt | rfl
    · exact (rank_wholeUnpack_lt hlt hm).le
    · exact le_rfl

end FloatOrder

namespace Magnitude

open Unpacked

/-- Converting the float of a whole number below `2^53` back to a 64-bit integer gives the
number: the conversion shifts the appended zero bits back out. -/
theorem toUInt64_toFloat {n : Nat} (h53 : n < 2 ^ 53) : n.toFloat.toUInt64.toNat = n := by
  show (n.toFloat.toModel.unpack.toUInt64).toNat = n
  rw [unpack_toFloat h53]
  unfold wholeUnpack
  split
  · next hn =>
    have hlog := log2_lt_53 hn h53
    have hback : roundToInt .positive (wholeMantissa n) (wholeExponent n) = n := by
      unfold roundToInt decreaseExponent shiftToExponent
      have h0 : (wholeExponent n - 0).toNat = 0 := by unfold wholeExponent; omega
      have hj : (0 - (wholeExponent n - ((0 : Nat) : Int))).toNat = 52 - n.log2 := by
        unfold wholeExponent; omega
      simp only [h0, Nat.shiftLeft_zero, hj]
      rw [shift_mantissa]
      simp [ExtendedMantissa.ofMantissaAndAccuracy, wholeMantissa, Nat.shiftLeft_eq,
        Sign.apply]
    simp only [UnpackedFloat.toUInt64, UnpackedFloat.toInt, hback]
    rw [Int.toNat_natCast, UInt64.toNat_ofNatClamp_of_lt]
    exact Nat.lt_trans h53 (by decide)
  · next hn =>
    rw [Nat.eq_zero_of_not_pos hn]
    rfl

end Magnitude

namespace Binary64

open Unpacked

/-- The fields of the float of a positive whole number below `2^53`: positive, with the normalized
mantissa and its exponent. -/
theorem parts_toFloat {n : Nat} (hn : 0 < n) (h53 : n < 2 ^ 53) :
    parts n.toFloat = .finite false (wholeMantissa n) (wholeExponent n) := by
  have h := unpack_eq_parts n.toFloat
  rw [Magnitude.unpack_toFloat_exact hn h53] at h
  rcases hp : parts n.toFloat with _ | neg | ⟨neg, m, e⟩ <;> rw [hp] at h
  · cases h
  · cases h
  · simp only [Parts.unpacked] at h
    split at h
    · cases neg
      · cases h
        rfl
      · cases h
    · cases h

end Binary64

end TraceSynth
