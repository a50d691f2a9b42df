import Mathlib
import TraceSynth.Decimal.Binary64
import TraceSynth.Proofs.Float.Rounding

/-!
# Rounding a rational to binary64

`Binary64.round` reads the quotient `n / d` of two positive naturals as the nearest binary64
number, a tie going to the even mantissa: it finds the binade of the quotient
(`normalExponent`), no lower than the least exponent, rounds the quotient's mantissa there
(`roundHalfEven`), carries into the next binade, and builds the float from its fields
(`ofFields`). Every step is exact `Nat` arithmetic; here each is read in `ℚ`.

The rationals that round to the positive float `m · 2^e` are those within half a unit of `m`,
or a quarter below at a power of two, where the unit below is half as large; the ends belong to
an even `m` (`RoundsTo`). The main result, `round_of_roundsTo`, says that `round` takes every
such rational to that very float, without overflow: the float model unpacks the result to
`m · 2^e`.

The float model unpacks a float from its bits; `unpack_eq_parts` and `unpack_ofFields` relate
that to the fields that `Binary64.parts` reads and `Binary64.ofFields` writes.
-/

namespace TraceSynth.Binary64

/-- `scale n d k` writes `n / d · 2^k` as a numerator and a denominator. -/
theorem scale_div (n d : Nat) (k : Int) :
    ((scale n d k).1 : ℚ) / (scale n d k).2 = (n : ℚ) / d * 2 ^ k := by
  unfold scale
  split_ifs with hk
  · obtain ⟨j, rfl⟩ := Int.eq_ofNat_of_zero_le hk
    simp only [Int.toNat_natCast, Nat.cast_mul, Nat.cast_pow, zpow_natCast, Nat.cast_ofNat]
    ring
  · obtain ⟨j, hj⟩ : ∃ j : Nat, k = -(j : Int) := ⟨(-k).toNat, by omega⟩
    subst hj
    simp only [neg_neg, Int.toNat_natCast, Nat.cast_mul, Nat.cast_pow, zpow_neg, zpow_natCast,
      Nat.cast_ofNat]
    rw [div_mul_eq_div_div, div_eq_mul_inv (n / d : ℚ)]

theorem scale_snd_pos {n d : Nat} (hd : 0 < d) (k : Int) : 0 < (scale n d k).2 := by
  unfold scale
  split_ifs
  · exact hd
  · exact Nat.mul_pos hd (Nat.two_pow_pos _)

/-- Two naturals, one within half of `x` and one strictly within half, are equal. -/
theorem eq_of_near {x : ℚ} {r q : Nat} (hr : |x - r| ≤ 1 / 2) (hq : |x - q| < 1 / 2) : r = q := by
  rw [abs_le] at hr
  rw [abs_lt] at hq
  have hlo : ((r : ℤ) : ℚ) - q > -1 := by push_cast; linarith
  have hhi : ((r : ℤ) : ℚ) - q < 1 := by push_cast; linarith
  have hlo' : (r : ℤ) - q > -1 := by exact_mod_cast hlo
  have hhi' : (r : ℤ) - q < 1 := by exact_mod_cast hhi
  omega

theorem div_lt_half_iff {s b : Nat} (hb : 0 < b) : (s : ℚ) / b < 1 / 2 ↔ 2 * s < b := by
  rw [div_lt_iff₀ (by exact_mod_cast hb)]
  constructor
  · intro h
    exact_mod_cast (by linarith : (2 * s : ℚ) < b)
  · intro h
    have : (2 * s : ℚ) < b := by exact_mod_cast h
    linarith

theorem div_eq_half_iff {s b : Nat} (hb : 0 < b) : (s : ℚ) / b = 1 / 2 ↔ 2 * s = b := by
  rw [div_eq_iff (by exact_mod_cast hb.ne')]
  constructor
  · intro h
    exact_mod_cast (by linarith : (2 * s : ℚ) = b)
  · intro h
    have : (2 * s : ℚ) = b := by exact_mod_cast h
    linarith

/-- `roundHalfEven a b` is the natural number nearest `a / b`, a tie going to the even one. -/
theorem roundHalfEven_eq {a b r : Nat} (hb : 0 < b)
    (h : |(a : ℚ) / b - r| < 1 / 2 ∨ (|(a : ℚ) / b - r| = 1 / 2 ∧ r % 2 = 0)) :
    roundHalfEven a b = r := by
  have hb' : (0 : ℚ) < b := by exact_mod_cast hb
  -- `a / b` is its floor `q` plus the fraction `t`
  set q := a / b with hq
  set t : ℚ := ((a % b : Nat) : ℚ) / b with ht
  have hx : (a : ℚ) / b = q + t := by
    have ha : (a : ℚ) = q * b + (a % b : Nat) := by exact_mod_cast (Nat.div_add_mod' a b).symm
    rw [ha, add_div, mul_div_cancel_right₀ _ hb'.ne']
  have hle : |(a : ℚ) / b - r| ≤ 1 / 2 := h.elim le_of_lt fun h => h.1.le
  have ht0 : 0 ≤ t := by positivity
  have ht1 : t < 1 := by rw [ht, div_lt_one hb']; exact_mod_cast Nat.mod_lt a hb
  unfold roundHalfEven
  dsimp only
  split_ifs with h1 h2 h3
  · -- below the midpoint the floor is nearest
    have : t < 1 / 2 := (div_lt_half_iff hb).2 h1
    exact (eq_of_near hle (by rw [hx, abs_lt]; constructor <;> linarith)).symm
  · -- above it the ceiling is
    have : 1 / 2 < t := by
      rcases lt_trichotomy t (1 / 2) with h' | h' | h'
      · exact absurd ((div_lt_half_iff hb).1 h') h1
      · exact absurd ((div_eq_half_iff hb).1 h') (by omega)
      · exact h'
    exact (eq_of_near hle (by rw [hx, abs_lt]; push_cast; constructor <;> linarith)).symm
  all_goals
    -- at the midpoint only an even neighbour is allowed
    have htie : t = 1 / 2 := (div_eq_half_iff hb).2 (by omega)
    have hr : r = q ∨ r = q + 1 := by
      rw [hx, htie, abs_le] at hle
      have hlo : ((r : ℤ) : ℚ) ≥ q := by push_cast; linarith
      have hhi : ((r : ℤ) : ℚ) ≤ q + 1 := by push_cast; linarith
      have hlo' : (r : ℤ) ≥ q := by exact_mod_cast hlo
      have hhi' : (r : ℤ) ≤ q + 1 := by exact_mod_cast hhi
      omega
    have heven : r % 2 = 0 := by
      rcases h with h | h
      · rw [hx, htie] at h
        rcases hr with hr | hr <;> rw [hr] at h <;> push_cast at h <;> norm_num at h
      · exact h.2
    rw [beq_iff_eq] at h3
    omega

theorem lt_scale_iff {n d : Nat} (hd : 0 < d) (k : Int) (c : Nat) :
    (scale n d k).1 < c * (scale n d k).2 ↔ (n : ℚ) / d * 2 ^ k < c := by
  have hpos : (0 : ℚ) < (scale n d k).2 := by exact_mod_cast scale_snd_pos hd k
  rw [← scale_div, div_lt_iff₀ hpos]
  exact_mod_cast Iff.rfl

theorem scale_le_iff {n d : Nat} (hd : 0 < d) (k : Int) (c : Nat) :
    c * (scale n d k).2 ≤ (scale n d k).1 ↔ (c : ℚ) ≤ (n : ℚ) / d * 2 ^ k := by
  have hpos : (0 : ℚ) < (scale n d k).2 := by exact_mod_cast scale_snd_pos hd k
  rw [← scale_div, le_div_iff₀ hpos]
  exact_mod_cast Iff.rfl

/-- `n / d` lies within a factor of two of `2^(log2 n - log2 d)`. -/
theorem log2_bracket {n d : Nat} (hn : 0 < n) (hd : 0 < d) :
    (2 : ℚ) ^ ((n.log2 : ℤ) - d.log2 - 1) < (n : ℚ) / d ∧
      (n : ℚ) / d < (2 : ℚ) ^ ((n.log2 : ℤ) - d.log2 + 1) := by
  have hn1 : (2 : ℚ) ^ n.log2 ≤ n := by exact_mod_cast Nat.log2_self_le hn.ne'
  have hn2 : (n : ℚ) < (2 : ℚ) ^ (n.log2 + 1) := by exact_mod_cast Nat.lt_log2_self
  have hd1 : (2 : ℚ) ^ d.log2 ≤ d := by exact_mod_cast Nat.log2_self_le hd.ne'
  have hd2 : (d : ℚ) < (2 : ℚ) ^ (d.log2 + 1) := by exact_mod_cast Nat.lt_log2_self
  have hdq : (0 : ℚ) < d := by exact_mod_cast hd
  have e1 : (2 : ℚ) ^ ((n.log2 : ℤ) - d.log2 - 1) = 2 ^ n.log2 / 2 ^ (d.log2 + 1) := by
    rw [show (n.log2 : ℤ) - d.log2 - 1 = (n.log2 : ℤ) - ((d.log2 + 1 : Nat) : ℤ) by push_cast; ring,
      zpow_sub₀ two_ne_zero, zpow_natCast, zpow_natCast]
  have e2 : (2 : ℚ) ^ ((n.log2 : ℤ) - d.log2 + 1) = 2 ^ (n.log2 + 1) / 2 ^ d.log2 := by
    rw [show (n.log2 : ℤ) - d.log2 + 1 = ((n.log2 + 1 : Nat) : ℤ) - (d.log2 : ℤ) by push_cast; ring,
      zpow_sub₀ two_ne_zero, zpow_natCast, zpow_natCast]
  rw [e1, e2]
  constructor
  · rw [div_lt_div_iff₀ (by positivity) hdq]
    calc (2 : ℚ) ^ n.log2 * d ≤ n * d := by gcongr
      _ < n * 2 ^ (d.log2 + 1) := by gcongr
  · rw [div_lt_div_iff₀ hdq (by positivity)]
    calc (n : ℚ) * 2 ^ d.log2 ≤ n * d := by gcongr
      _ < 2 ^ (n.log2 + 1) * d := by gcongr

/-- `normalExponent n d` is the exponent that puts `n / d` between `2^52` and `2^53` of its
units. -/
theorem normalExponent_spec {n d : Nat} (hn : 0 < n) (hd : 0 < d) :
    (2 : ℚ) ^ (normalExponent n d + 52) ≤ (n : ℚ) / d ∧
      (n : ℚ) / d < 2 ^ (normalExponent n d + 53) := by
  obtain ⟨hlo, hhi⟩ := log2_bracket hn hd
  set e0 : ℤ := (n.log2 : ℤ) - d.log2 - 52 with he0
  -- `n / d` is checked against `2^52` and `2^53` units of `2^e0`
  have scaled : ∀ j : ℤ, (n : ℚ) / d * 2 ^ (-e0) < 2 ^ j ↔ (n : ℚ) / d < 2 ^ (e0 + j) := by
    intro j
    rw [zpow_neg, ← div_eq_mul_inv, div_lt_iff₀ (by positivity), ← zpow_add₀ two_ne_zero,
      add_comm]
  have hlo' : (2 : ℚ) ^ (e0 + 51) < (n : ℚ) / d := by
    rw [show e0 + 51 = (n.log2 : ℤ) - d.log2 - 1 by omega]; exact hlo
  have hhi' : (n : ℚ) / d < 2 ^ (e0 + 53) := by
    rw [show e0 + 53 = (n.log2 : ℤ) - d.log2 + 1 by omega]; exact hhi
  unfold normalExponent
  dsimp only
  rw [← he0]
  split_ifs with hbelow habove
  all_goals simp only [decide_eq_true_eq] at hbelow
  · -- below `2^52` units: one exponent lower
    rw [lt_scale_iff hd] at hbelow
    simp only [Nat.cast_pow, Nat.cast_ofNat] at hbelow
    rw [show (2 : ℚ) ^ 52 = 2 ^ (52 : ℤ) by norm_num, scaled] at hbelow
    refine ⟨?_, ?_⟩
    · rw [show e0 - 1 + 52 = e0 + 51 by ring]; exact hlo'.le
    · rw [show e0 - 1 + 53 = e0 + 52 by ring]; exact hbelow
  · -- at or above `2^53` units cannot be
    rw [decide_eq_true_eq, scale_le_iff hd] at habove
    simp only [Nat.cast_pow, Nat.cast_ofNat] at habove
    rw [show (2 : ℚ) ^ 53 = 2 ^ (53 : ℤ) by norm_num, ← not_lt, scaled] at habove
    exact absurd hhi' habove
  · rw [lt_scale_iff hd] at hbelow
    simp only [Nat.cast_pow, Nat.cast_ofNat] at hbelow
    rw [show (2 : ℚ) ^ 52 = 2 ^ (52 : ℤ) by norm_num, scaled, not_lt] at hbelow
    exact ⟨hbelow, hhi'⟩

end TraceSynth.Binary64
namespace TraceSynth.Binary64

open Float.Model Float.Model.UnpackedFloat

/-- The sign of a sign bit. -/
def signOf (neg : Bool) : Sign := if neg then .negative else .positive

theorem toNat_packComponents (s : Sign) (E : BitVec 11) (M : BitVec 52) :
    (packComponents Format.binary64 s E M).toNat =
      s.toBitVec.toNat * 2 ^ 63 + E.toNat * 2 ^ 52 + M.toNat := by
  change (s.toBitVec ++ E ++ M).toNat = _
  rw [BitVec.toNat_append, BitVec.toNat_append, ← Nat.shiftLeft_add_eq_or_of_lt M.isLt,
    ← Nat.shiftLeft_add_eq_or_of_lt E.isLt]
  simp only [Nat.shiftLeft_eq]
  ring

/-- A 64-bit pattern is its sign bit, its exponent field and its mantissa field. -/
theorem ofNat_eq_packComponents {N : Nat} (hN : N < 2 ^ 64) :
    BitVec.ofNat 64 N = packComponents Format.binary64 (signOf (N / 2 ^ 63 % 2 == 1))
      (BitVec.ofNat 11 (N / 2 ^ 52 % 2048)) (BitVec.ofNat 52 (N % 2 ^ 52)) := by
  apply BitVec.eq_of_toNat_eq
  rw [toNat_packComponents, BitVec.toNat_ofNat, BitVec.toNat_ofNat, BitVec.toNat_ofNat]
  have hs : (signOf (N / 2 ^ 63 % 2 == 1)).toBitVec.toNat = N / 2 ^ 63 % 2 := by
    unfold signOf
    split <;> rename_i h <;> simp only [beq_iff_eq] at h
    · rw [h]; rfl
    · rw [show N / 2 ^ 63 % 2 = 0 by omega]; rfl
  rw [hs]
  norm_num
  omega

/-- What the float model unpacks from the fields a float is built from. -/
theorem unpack_ofFields (neg : Bool) {b f : Nat} (hb : b < 2048) (hf : f < 2 ^ 52) :
    (ofFields neg b f).toModel.unpack = UnpackedFloat.unpack Format.binary64
      (packComponents Format.binary64 (signOf neg) (BitVec.ofNat 11 b) (BitVec.ofNat 52 f)) := by
  set N := (if neg then 2 ^ 63 else 0) + b * 2 ^ 52 + f with hN
  have hlt : N < 2 ^ 64 := by rw [hN]; split <;> omega
  have hbits : (ofFields neg b f).toModel =
      Float.Model.pack (UnpackedFloat.unpack Format.binary64 (BitVec.ofNat 64 N)) := by
    show Float.Model.ofBits N.toUInt64 = _
    rw [Float.Model.ofBits]
    congr 2
  rw [hbits, Unpacked.unpack_pack_of_valid (Unpacked.valid_unpack _), ofNat_eq_packComponents hlt]
  -- the fields come back out of the pattern
  have hsign : (N / 2 ^ 63 % 2 == 1) = neg := by
    rw [hN]; cases neg <;> simp <;> omega
  rw [hsign, show N / 2 ^ 52 % 2048 = b by rw [hN]; split <;> omega,
    show N % 2 ^ 52 = f by rw [hN]; split <;> omega]

theorem ofNat_eleven_eq_allOnes {b : Nat} (hb : b < 2048) : BitVec.ofNat 11 b = -1#11 ↔ b = 2047 :=
  Unpacked.ofNat_eleven_inj hb (by decide)

theorem ofNat_eleven_eq_zero {b : Nat} (hb : b < 2048) : BitVec.ofNat 11 b = 0#11 ↔ b = 0 :=
  Unpacked.ofNat_eleven_inj hb (by decide)

theorem ofNat_mantissa_eq_zero {f : Nat} (hf : f < 2 ^ 52) : BitVec.ofNat 52 f = 0#52 ↔ f = 0 := by
  constructor
  · intro h
    have := congrArg BitVec.toNat h
    rwa [BitVec.toNat_ofNat, Nat.mod_eq_of_lt hf] at this
  · rintro rfl
    rfl

/-- The unpacked meaning of the fields of a bit pattern: what `parts` reads, as the float model
sees it. -/
def Parts.unpacked : Parts → UnpackedFloat
  | .nan => .notANumber
  | .inf sgn => .infinity (signOf sgn)
  | .finite sgn m e => if h : 0 < m then .finite (signOf sgn) m e h else .zero (signOf sgn)

/-- The fields of a pattern, unpacked by the float model, are what `parts` reads from it. -/
theorem unpack_packComponents_fields (neg : Bool) {b f : Nat} (hb : b < 2048) (hf : f < 2 ^ 52) :
    UnpackedFloat.unpack Format.binary64
        (packComponents Format.binary64 (signOf neg) (BitVec.ofNat 11 b) (BitVec.ofNat 52 f)) =
      (if b = 2047 then (if f = 0 then Parts.inf neg else .nan)
        else if b = 0 then .finite neg f minExponent
        else .finite neg (f + 2 ^ 52) ((b : Int) - 1075)).unpacked := by
  rw [Unpacked.unpack_packComponents]
  by_cases h2047 : b = 2047
  · rw [if_pos ((ofNat_eleven_eq_allOnes hb).2 h2047), if_pos h2047]
    by_cases hf0 : f = 0
    · rw [if_pos ((ofNat_mantissa_eq_zero hf).2 hf0), if_pos hf0]
      rfl
    · rw [if_neg (fun h => hf0 ((ofNat_mantissa_eq_zero hf).1 h)), if_neg hf0]
      rfl
  rw [if_neg (fun h => h2047 ((ofNat_eleven_eq_allOnes hb).1 h)), if_neg h2047]
  by_cases h0 : b = 0
  · rw [if_pos ((ofNat_eleven_eq_zero hb).2 h0), if_pos h0]
    by_cases hf0 : f = 0
    · subst hf0
      rw [dif_pos rfl]
      rfl
    · rw [dif_neg (fun h => hf0 ((ofNat_mantissa_eq_zero hf).1 h)), Parts.unpacked,
        dif_pos (Nat.pos_of_ne_zero hf0)]
      subst h0
      simp only [BitVec.toNat_ofNat, Nat.mod_eq_of_lt hf]
      rfl
  · rw [if_neg (fun h => h0 ((ofNat_eleven_eq_zero hb).1 h)), if_neg h0, Parts.unpacked,
      dif_pos (by omega)]
    simp only [Unpacked.toNat_implicit, BitVec.toNat_ofNat, Nat.mod_eq_of_lt hf,
      Nat.mod_eq_of_lt hb]
    congr 1
    omega

/-- The float model unpacks a float to what `parts` reads from its bits. -/
theorem unpack_eq_parts (x : Float) : x.toModel.unpack = (parts x).unpacked := by
  set N := x.toBits.toNat with hN
  have hlt : N < 2 ^ 64 := x.toBits.toNat_lt
  have hbits : x.toModel.toBits.toBitVec = BitVec.ofNat 64 N := by
    apply BitVec.eq_of_toNat_eq
    rw [BitVec.toNat_ofNat, Nat.mod_eq_of_lt hlt]
    rfl
  show UnpackedFloat.unpack Format.binary64 x.toModel.toBits.toBitVec = _
  rw [hbits, ofNat_eq_packComponents hlt,
    unpack_packComponents_fields _ (Nat.mod_lt _ (by decide)) (Nat.mod_lt _ (by decide))]
  unfold parts
  simp only [beq_iff_eq, ← hN]

theorem unpack_ofFields_normal (neg : Bool) {b f : Nat} (hb0 : 0 < b) (hb : b < 2047)
    (hf : f < 2 ^ 52) :
    (ofFields neg b f).toModel.unpack =
      .finite (signOf neg) (f + 2 ^ 52) ((b : Int) - 1075) (by positivity) := by
  rw [unpack_ofFields neg (by omega) hf, unpack_packComponents_fields neg (by omega) hf,
    if_neg (by omega), if_neg (by omega), Parts.unpacked, dif_pos (by positivity)]

theorem unpack_ofFields_subnormal (neg : Bool) {f : Nat} (hf0 : 0 < f) (hf : f < 2 ^ 52) :
    (ofFields neg 0 f).toModel.unpack = .finite (signOf neg) f (-1074) hf0 := by
  rw [unpack_ofFields neg (by omega) hf, unpack_packComponents_fields neg (by omega) hf,
    if_neg (by omega), if_pos rfl, Parts.unpacked, dif_pos hf0]
  rfl

/-- `round` for positive `n` and `d`: the exponent of `n / d`'s binade, no lower than the least
one, the mantissa rounded at that exponent, and a carry to the next binade. -/
theorem round_eq (neg : Bool) {n d : Nat} (hn : 0 < n) (hd : 0 < d) :
    round neg n d =
      let e := max (normalExponent n d) minExponent
      let m := roundHalfEven (scale n d (-e)).1 (scale n d (-e)).2
      let p : Nat × Int := if m == 2 ^ 53 then (2 ^ 52, e + 1) else (m, e)
      if p.2 + 52 > 1023 then (infinity neg, true)
      else if p.1 < 2 ^ 52 then (ofFields neg 0 p.1, false)
      else (ofFields neg (p.2 + 1075).toNat (p.1 - 2 ^ 52), false) := by
  unfold round
  rw [if_neg (by simp only [Bool.or_eq_true, beq_iff_eq]; omega)]

/-- The rationals that round to the positive float `m · 2^e`: those within half a unit of `m`
either side, or a quarter below at a power of two above the least exponent, where the unit
below is half as large. The ends are included when `m` is even, a tie going to the even
mantissa. -/
def RoundsTo (m : Nat) (e : Int) (q : ℚ) : Prop :=
  let below : ℚ := if m = 2 ^ 52 ∧ -1074 < e then 1 / 4 else 1 / 2
  if m % 2 = 0 then (m - below) * 2 ^ e ≤ q ∧ q ≤ (m + 1 / 2) * 2 ^ e
  else (m - below) * 2 ^ e < q ∧ q < (m + 1 / 2) * 2 ^ e

/-- Two binades that hold one number are the same. -/
theorem binade_unique {E e : ℤ} {q : ℚ} (h1 : (2 : ℚ) ^ (E + 52) ≤ q) (h2 : q < 2 ^ (E + 53))
    (h3 : (2 : ℚ) ^ (e + 52) ≤ q) (h4 : q < 2 ^ (e + 53)) : E = e := by
  by_contra hne
  rcases lt_or_gt_of_ne hne with hlt | hlt
  · have : (2 : ℚ) ^ (E + 53) ≤ 2 ^ (e + 52) := zpow_le_zpow_right₀ one_le_two (by omega)
    linarith
  · have : (2 : ℚ) ^ (e + 53) ≤ 2 ^ (E + 52) := zpow_le_zpow_right₀ one_le_two (by omega)
    linarith

theorem binade_lt {E e : ℤ} {q : ℚ} (h1 : (2 : ℚ) ^ (E + 52) ≤ q) (h : q < 2 ^ (e + 52)) :
    E < e := by
  by_contra hle
  have : (2 : ℚ) ^ (e + 52) ≤ 2 ^ (E + 52) := zpow_le_zpow_right₀ one_le_two (by omega)
  linarith

section Interval

variable {m : Nat} {e : Int} {q : ℚ}

/-- A rational that rounds to `m · 2^e` is within half a unit of `m`. -/
theorem RoundsTo.bounds (hq : RoundsTo m e q) :
    ((m : ℚ) - 1 / 2) * 2 ^ e ≤ q ∧ q ≤ ((m : ℚ) + 1 / 2) * 2 ^ e := by
  have h2 : (0 : ℚ) < 2 ^ e := by positivity
  unfold RoundsTo at hq
  dsimp only at hq
  have hbelow : ((m : ℚ) - 1 / 2) * 2 ^ e ≤
      ((m : ℚ) - if m = 2 ^ 52 ∧ -1074 < e then 1 / 4 else 1 / 2) * 2 ^ e := by
    gcongr
    split_ifs <;> norm_num
  by_cases hpar : m % 2 = 0
  · rw [if_pos hpar] at hq
    exact ⟨hbelow.trans hq.1, hq.2⟩
  · rw [if_neg hpar] at hq
    exact ⟨hbelow.trans hq.1.le, hq.2.le⟩

/-- A rational that rounds to `m · 2^e` is within half a unit of `m`, a tie only for an even
`m`. -/
theorem RoundsTo.near (hq : RoundsTo m e q) :
    |q / 2 ^ e - m| < 1 / 2 ∨ (|q / 2 ^ e - m| = 1 / 2 ∧ m % 2 = 0) := by
  have h2 : (0 : ℚ) < 2 ^ e := by positivity
  obtain ⟨hlo, hhi⟩ := hq.bounds
  have hlo' : (m : ℚ) - 1 / 2 ≤ q / 2 ^ e := (le_div_iff₀ h2).2 hlo
  have hhi' : q / 2 ^ e ≤ m + 1 / 2 := (div_le_iff₀ h2).2 hhi
  unfold RoundsTo at hq
  dsimp only at hq
  by_cases hpar : m % 2 = 0
  · -- an even mantissa takes its ends
    rcases lt_or_eq_of_le (abs_le.2 ⟨by linarith, by linarith⟩ : |q / 2 ^ e - m| ≤ 1 / 2) with h | h
    · exact .inl h
    · exact .inr ⟨h, hpar⟩
  · -- an odd one is no power of two, and its ends are excluded
    have hbd' : ¬(m = 2 ^ 52 ∧ -1074 < e) := fun h => hpar (by rw [h.1]; decide)
    rw [if_neg hpar, if_neg hbd'] at hq
    have hl : (m : ℚ) - 1 / 2 < q / 2 ^ e := (lt_div_iff₀ h2).2 hq.1
    have hh : q / 2 ^ e < m + 1 / 2 := (div_lt_iff₀ h2).2 hq.2
    exact .inl (abs_lt.2 ⟨by linarith, by linarith⟩)

/-- At the carry below a power of two, the rational rounds to `2^53` units at the exponent
below. -/
theorem RoundsTo.carry (hq : RoundsTo (2 ^ 52) e q) (he : -1074 < e) (hc : q < 2 ^ (e + 52)) :
    |q / 2 ^ (e - 1) - ((2 ^ 53 : Nat) : ℚ)| < 1 / 2 ∨
      (|q / 2 ^ (e - 1) - ((2 ^ 53 : Nat) : ℚ)| = 1 / 2 ∧ 2 ^ 53 % 2 = 0) := by
  have h2 : (0 : ℚ) < 2 ^ (e - 1) := by positivity
  have hsplit : (2 : ℚ) ^ e = 2 * 2 ^ (e - 1) := by
    rw [← zpow_one_add₀ two_ne_zero]; ring_nf
  unfold RoundsTo at hq
  dsimp only at hq
  rw [if_pos (by decide), if_pos ⟨rfl, he⟩] at hq
  have hlo : ((2 ^ 53 : Nat) : ℚ) - 1 / 2 ≤ q / 2 ^ (e - 1) := by
    rw [le_div_iff₀ h2]
    have := hq.1
    rw [hsplit] at this
    push_cast at this ⊢
    linarith
  have hhi : q / 2 ^ (e - 1) < ((2 ^ 53 : Nat) : ℚ) := by
    rw [div_lt_iff₀ h2]
    rw [show e + 52 = (e - 1) + 53 by ring, zpow_add₀ two_ne_zero] at hc
    push_cast
    linarith
  rcases lt_or_eq_of_le (abs_le.2 ⟨by linarith, by linarith⟩ :
      |q / 2 ^ (e - 1) - ((2 ^ 53 : Nat) : ℚ)| ≤ 1 / 2) with h | h
  · exact .inl h
  · exact .inr ⟨h, by decide⟩

/-- Away from the carry below a power of two, a rational that rounds to a float is read at the
float's own exponent. -/
theorem RoundsTo.exponent {n d : Nat} (hn : 0 < n) (hd : 0 < d) (hr : Unpacked.Rounded m e)
    (hq : RoundsTo m e ((n : ℚ) / d))
    (hnc : ¬(m = 2 ^ 52 ∧ -1074 < e ∧ (n : ℚ) / d < 2 ^ (e + 52))) :
    max (normalExponent n d) minExponent = e := by
  obtain ⟨hE1, hE2⟩ := normalExponent_spec hn hd
  obtain ⟨hlo, hhi⟩ := hq.bounds
  have h2 : (0 : ℚ) < 2 ^ e := by positivity
  have hpow : ∀ j : ℕ, (2 : ℚ) ^ (e + j) = 2 ^ j * 2 ^ e := fun j => by
    rw [zpow_add₀ two_ne_zero, zpow_natCast, mul_comm]
  have hm53 : (m : ℚ) + 1 / 2 < 2 ^ 53 := by
    have : m + 1 ≤ 2 ^ 53 := hr.lt
    have : (m : ℚ) + 1 ≤ 2 ^ 53 := by exact_mod_cast this
    linarith
  -- below the next binade
  have hup : (n : ℚ) / d < 2 ^ (e + 53) := by
    rw [show e + 53 = e + (53 : ℕ) by rfl, hpow]
    calc (n : ℚ) / d ≤ ((m : ℚ) + 1 / 2) * 2 ^ e := hhi
      _ < 2 ^ 53 * 2 ^ e := by gcongr
  have hmin : minExponent = -1074 := rfl
  by_cases hbig : (2 : ℚ) ^ (e + 52) ≤ (n : ℚ) / d
  · -- in the binade of `e`
    rw [binade_unique hE1 hE2 hbig hup, hmin]
    exact max_eq_left hr.ge
  · -- below it only at the least exponent, a subnormal or the least normal float
    have hleast : e = -1074 := by
      rcases hr.normal_or_least with hlog | hleast
      · have hm : 2 ^ 52 ≤ m := by
          have := Nat.log2_self_le (show m ≠ 0 from fun h => by rw [h] at hlog; cases hlog)
          rwa [hlog] at this
        rcases Nat.eq_or_lt_of_le hm with heq | hgt
        · by_contra hne
          exact hnc ⟨heq.symm, by have := hr.ge; omega, lt_of_not_ge hbig⟩
        · have hgt' : (2 : ℚ) ^ 52 + 1 ≤ m := by exact_mod_cast hgt
          have : (2 : ℚ) ^ (e + 52) ≤ (n : ℚ) / d := by
            rw [show e + 52 = e + (52 : ℕ) by rfl, hpow]
            calc (2 : ℚ) ^ 52 * 2 ^ e ≤ ((m : ℚ) - 1 / 2) * 2 ^ e := by
                  gcongr; linarith
              _ ≤ (n : ℚ) / d := hlo
          exact absurd this hbig
      · exact hleast
    have hlt : normalExponent n d < e := binade_lt hE1 (lt_of_not_ge hbig)
    rw [hmin, hleast]
    exact max_eq_right (by omega)

/-- At the carry below a power of two, the rational is read one exponent lower. -/
theorem RoundsTo.carry_exponent {n d : Nat} (hn : 0 < n) (hd : 0 < d)
    (hq : RoundsTo (2 ^ 52) e ((n : ℚ) / d)) (he : -1074 < e) (hc : (n : ℚ) / d < 2 ^ (e + 52)) :
    max (normalExponent n d) minExponent = e - 1 := by
  obtain ⟨hE1, hE2⟩ := normalExponent_spec hn hd
  obtain ⟨hlo, -⟩ := hq.bounds
  have hlo' : (2 : ℚ) ^ (e - 1 + 52) ≤ (n : ℚ) / d := by
    have hsplit : (2 : ℚ) ^ (e - 1 + 52) = 2 ^ 51 * 2 ^ e := by
      rw [show e - 1 + 52 = e + (51 : ℕ) by push_cast; ring, zpow_add₀ two_ne_zero, zpow_natCast,
        mul_comm]
    rw [hsplit]
    calc (2 : ℚ) ^ 51 * 2 ^ e ≤ (((2 ^ 52 : Nat) : ℚ) - 1 / 2) * 2 ^ e := by
          gcongr; push_cast; norm_num
      _ ≤ (n : ℚ) / d := hlo
  rw [binade_unique hE1 hE2 hlo' (by rw [show e - 1 + 53 = e + 52 by ring]; exact hc)]
  exact max_eq_left (by rw [show minExponent = -1074 from rfl]; omega)

end Interval

/-- The rounded mantissa at an exponent, from a rational within half a unit of it. -/
theorem roundHalfEven_scale {n d : Nat} (hd : 0 < d) {k : Int} {r : Nat}
    (h : |(n : ℚ) / d / 2 ^ k - r| < 1 / 2 ∨ (|(n : ℚ) / d / 2 ^ k - r| = 1 / 2 ∧ r % 2 = 0)) :
    roundHalfEven (scale n d (-k)).1 (scale n d (-k)).2 = r := by
  apply roundHalfEven_eq (scale_snd_pos hd _)
  rwa [scale_div, zpow_neg, ← div_eq_mul_inv]

/-- A positive rational that rounds to the finite float `m · 2^e` is read as that float, with
the sign asked for, and does not overflow. -/
theorem round_of_roundsTo (neg : Bool) {m : Nat} {e : Int} {n d : Nat} (hm : 0 < m)
    (hr : Unpacked.Rounded m e) (he : e ≤ 971) (hn : 0 < n) (hd : 0 < d)
    (hq : RoundsTo m e ((n : ℚ) / d)) :
    (round neg n d).2 = false ∧
      (round neg n d).1.toModel.unpack = .finite (signOf neg) m e hm := by
  rw [round_eq neg hn hd]
  by_cases hc : m = 2 ^ 52 ∧ -1074 < e ∧ (n : ℚ) / d < 2 ^ (e + 52)
  · -- the carry: rounded one exponent lower to `2^53`, which is `2^52` at `e`
    obtain ⟨rfl, he', hlt⟩ := hc
    have hE := RoundsTo.carry_exponent hn hd hq he' hlt
    have hM := roundHalfEven_scale hd (RoundsTo.carry hq he' hlt)
    simp only [hE, hM, beq_self_eq_true, if_true, sub_add_cancel]
    rw [if_neg (by omega), if_neg (lt_irrefl _), Nat.sub_self]
    refine ⟨rfl, ?_⟩
    rw [unpack_ofFields_normal neg (by have := hr.ge; omega) (by omega) (by decide)]
    congr 1
    omega
  · -- otherwise rounded at `e` itself to `m`
    have hE := RoundsTo.exponent hn hd hr hq hc
    have hM := roundHalfEven_scale hd hq.near
    have hne : (m == 2 ^ 53) = false := by
      have := hr.lt
      simp only [beq_eq_false_iff_ne, ne_eq]
      omega
    simp only [hE, hM, hne, Bool.false_eq_true, if_false]
    rw [if_neg (by omega)]
    by_cases hsub : m < 2 ^ 52
    · -- a subnormal: the least exponent
      have hleast : e = -1074 := hr.normal_or_least.resolve_left fun hlog => by
        have := Nat.log2_self_le hm.ne'
        rw [hlog] at this
        omega
      rw [if_pos hsub]
      refine ⟨rfl, ?_⟩
      rw [unpack_ofFields_subnormal neg hm hsub]
      subst hleast
      rfl
    · rw [if_neg hsub]
      refine ⟨rfl, ?_⟩
      rw [unpack_ofFields_normal neg (by have := hr.ge; omega) (by omega)
        (by have := hr.lt; omega)]
      congr 1
      · omega
      · have := hr.ge
        omega

end TraceSynth.Binary64
