import Mathlib
import TraceSynth.Decimal.Shortest
import TraceSynth.Proofs.Decimal.Layout
import TraceSynth.Proofs.Decimal.Round

/-!
# The shortest digits round back

`Digits.shortest m e` picks the fewest decimal digits of a number that rounds back to the
finite positive float `m · 2^e`. Their value (`Digits.value`) lies in the rounding interval of
`m · 2^e` (`Binary64.RoundsTo`), so `Binary64.round` reads them back as that float.

A whole number below `2^53` is written exactly. Otherwise the search tests the two neighbours
of `m · 2^e` on the grid of `n`-digit decimals for `n = 1, …, 17`; a neighbour it picks lies
in the interval (`candidate_roundsTo`). The search starts from a decimal exponent at most that
of `m · 2^e` (`ten_pow_floorLog10_le`, from `10^3 ≤ 2^10` and `2^93 ≤ 10^28`), so the grid of
17 digits is finer than the interval and one of its neighbours always lies in it
(`neighbour_roundsTo`): the search never falls back.

## Main results

* `Digits.shortest_roundsTo`: the shortest digits of a finite positive float lie in its
  rounding interval;
* `Digits.shortest_head_pos`: they start with a nonzero digit;
* `Digits.shortest_point_bounds`: their decimal point stands between `-323` and `309`.
-/

namespace TraceSynth.Digits

/-- The number a list of decimal digits spells, most significant first. -/
def number (ds : List Nat) : Nat := ds.foldl (fun acc x => acc * 10 + x) 0

/-- The value of a decimal `0.d₁…dₙ × 10^point`. -/
def value (d : Digits) : ℚ := (number d.digits : ℚ) * 10 ^ (d.point - d.digits.length)

theorem foldl_number (ds : List Nat) (acc : Nat) :
    ds.foldl (fun acc x => acc * 10 + x) acc = acc * 10 ^ ds.length + number ds := by
  induction ds generalizing acc with
  | nil => simp [number]
  | cons x ds ih =>
    simp only [List.foldl_cons, number, List.length_cons]
    rw [ih, ih (0 * 10 + x)]
    ring

theorem number_append (l l' : List Nat) : number (l ++ l') = number l * 10 ^ l'.length + number l' := by
  rw [number, List.foldl_append, foldl_number]
  rfl

theorem number_ofNat (n : Nat) : number (ofNat n) = n := by
  induction n using Nat.strong_induction_on with
  | _ n ih =>
    rw [ofNat]
    split
    · simp [number]
    · rw [number_append, ih (n / 10) (by omega)]
      simp [number]
      omega

theorem number_of_zeros {l : List Nat} (h : ∀ x ∈ l, x = 0) : number l = 0 := by
  induction l using List.reverseRecOn with
  | nil => rfl
  | append_singleton l x ih =>
    rw [number_append, ih fun y hy => h y (List.mem_append_left _ hy),
      h x (List.mem_append_right _ (List.mem_singleton_self x))]
    rfl

/-- The digits of `n · 10^shift` have that value: the trailing zeros dropped move the point. -/
theorem value_ofInteger (n : Nat) (shift : Int) :
    (ofInteger n shift).value = n * 10 ^ shift := by
  -- the digits of `n` are the kept digits followed by the dropped zeros
  set ds := ofNat n
  set kept := (ds.reverse.dropWhile (· == 0)).reverse
  set zeros := (ds.reverse.takeWhile (· == 0)).reverse
  have hsplit : ds = kept ++ zeros := by
    rw [← List.reverse_append, List.takeWhile_append_dropWhile, List.reverse_reverse]
  have hzeros : number zeros = 0 := number_of_zeros fun x hx => by
    have := List.mem_takeWhile_imp (List.mem_reverse.1 hx)
    simpa using this
  have hn : (n : ℚ) = number kept * 10 ^ zeros.length := by
    have := number_append kept zeros
    rw [← hsplit, number_ofNat, hzeros, Nat.add_zero] at this
    exact_mod_cast this
  have hlen : (ds.length : Int) = kept.length + zeros.length := by
    rw [hsplit, List.length_append]; push_cast; ring
  show (number kept : ℚ) * 10 ^ ((ds.length : Int) + shift - kept.length) = n * 10 ^ shift
  rw [hn, hlen, show (kept.length : Int) + zeros.length + shift - kept.length =
    (zeros.length : Int) + shift by ring, zpow_add₀ (by norm_num), zpow_natCast, mul_assoc]

theorem onGrid_snd_pos (x : Nat) (k j : Int) : 0 < (onGrid x k j).2 :=
  Nat.mul_pos (Nat.two_pow_pos _) (Nat.pow_pos (by decide))

/-- `onGrid x k j` writes `x · 2^k / 10^j` as a numerator over a denominator that depends on
`k` and `j` only. -/
theorem onGrid_div (x : Nat) (k j : Int) :
    ((onGrid x k j).1 : ℚ) / (onGrid x k j).2 = x * 2 ^ k / 10 ^ j := by
  have hk : (2 : ℚ) ^ k = 2 ^ (max k 0).toNat / 2 ^ (max (-k) 0).toNat := by
    rw [← zpow_natCast, ← zpow_natCast, ← zpow_sub₀ two_ne_zero]
    congr 1
    omega
  have hj : (10 : ℚ) ^ j = 10 ^ (max j 0).toNat / 10 ^ (max (-j) 0).toNat := by
    rw [← zpow_natCast, ← zpow_natCast, ← zpow_sub₀ (by norm_num)]
    congr 1
    omega
  rw [hk, hj]
  simp only [onGrid, Nat.cast_mul, Nat.cast_pow, Nat.cast_ofNat]
  field_simp

theorem onGrid_le_iff (x y p : Nat) (k j : Int) :
    (onGrid x k j).1 ≤ p * (onGrid y k j).2 ↔ (x : ℚ) * 2 ^ k ≤ p * 10 ^ j := by
  have hd : (0 : ℚ) < (onGrid x k j).2 := by exact_mod_cast onGrid_snd_pos x k j
  rw [show (onGrid y k j).2 = (onGrid x k j).2 from rfl,
    ← div_le_div_iff_of_pos_right (c := (10 : ℚ) ^ j) (by positivity)]
  rw [← onGrid_div, div_le_iff₀ hd, mul_div_cancel_right₀ _ (by positivity)]
  exact_mod_cast Iff.rfl

theorem onGrid_lt_iff (x y p : Nat) (k j : Int) :
    (onGrid x k j).1 < p * (onGrid y k j).2 ↔ (x : ℚ) * 2 ^ k < p * 10 ^ j := by
  have hd : (0 : ℚ) < (onGrid x k j).2 := by exact_mod_cast onGrid_snd_pos x k j
  rw [show (onGrid y k j).2 = (onGrid x k j).2 from rfl,
    ← div_lt_div_iff_of_pos_right (c := (10 : ℚ) ^ j) (by positivity)]
  rw [← onGrid_div, div_lt_iff₀ hd, mul_div_cancel_right₀ _ (by positivity)]
  exact_mod_cast Iff.rfl

theorem le_onGrid_iff (x y p : Nat) (k j : Int) :
    p * (onGrid y k j).2 ≤ (onGrid x k j).1 ↔ (p : ℚ) * 10 ^ j ≤ x * 2 ^ k := by
  rw [← not_lt, onGrid_lt_iff, not_lt]

theorem lt_onGrid_iff (x y p : Nat) (k j : Int) :
    p * (onGrid y k j).2 < (onGrid x k j).1 ↔ (p : ℚ) * 10 ^ j < x * 2 ^ k := by
  rw [← not_le, onGrid_le_iff, not_le]

/-- Whether `p · 10^j` lies in the rounding interval of `m · 2^e`, as `candidate` tests it in
integers. -/
def gridInside (m : Nat) (e j : Int) (p : Nat) : Bool :=
  let (lo, v, hi) := bounds m e
  let (_, den) := onGrid v (e - 2) j
  let (ln, _) := onGrid lo (e - 2) j
  let (hn, _) := onGrid hi (e - 2) j
  let inclusive := m % 2 == 0
  (if inclusive then ln ≤ p * den else ln < p * den) &&
    (if inclusive then p * den ≤ hn else p * den < hn)

/-- A quantity of `x` quarter units of `2^e`. -/
theorem quarters {x : Nat} {c : ℚ} (e : Int) (hx : (x : ℚ) = 4 * c) :
    (x : ℚ) * 2 ^ (e - 2) = c * 2 ^ e := by
  rw [hx, zpow_sub₀ two_ne_zero]
  norm_num
  ring

/-- The integer test of `candidate` is the rounding interval. -/
theorem gridInside_iff {m : Nat} {e j : Int} {p : Nat} (hm : 0 < m) :
    gridInside m e j p = true ↔ Binary64.RoundsTo m e (p * 10 ^ j) := by
  have hbd : ((m == 2 ^ 52 && decide (e > Binary64.minExponent)) = true) ↔
      (m = 2 ^ 52 ∧ -1074 < e) := by
    simp [Binary64.minExponent]
  have hhi : ((4 * m + 2 : Nat) : ℚ) * 2 ^ (e - 2) = ((m : ℚ) + 1 / 2) * 2 ^ e :=
    quarters e (by push_cast; ring)
  have hlo : ((if (m == 2 ^ 52 && decide (e > Binary64.minExponent)) = true then 4 * m - 1
      else 4 * m - 2 : Nat) : ℚ) * 2 ^ (e - 2) =
      ((m : ℚ) - if m = 2 ^ 52 ∧ -1074 < e then 1 / 4 else 1 / 2) * 2 ^ e := by
    by_cases hb : m = 2 ^ 52 ∧ -1074 < e
    · rw [if_pos (hbd.2 hb), if_pos hb]
      exact quarters e (by rw [Nat.cast_sub (by omega)]; push_cast; ring)
    · rw [if_neg (fun h => hb (hbd.1 h)), if_neg hb]
      exact quarters e (by rw [Nat.cast_sub (by omega)]; push_cast; ring)
  unfold gridInside bounds Binary64.RoundsTo
  dsimp only
  generalize (if (m == 2 ^ 52 && decide (e > Binary64.minExponent)) = true then 4 * m - 1
    else 4 * m - 2) = low at hlo ⊢
  by_cases hpar : m % 2 = 0
  · simp only [show (m % 2 == 0) = true by simpa using hpar, if_true, if_pos hpar,
      Bool.and_eq_true, decide_eq_true_iff, onGrid_le_iff, le_onGrid_iff, hlo, hhi]
  · simp only [show (m % 2 == 0) = false by simpa using hpar, Bool.false_eq_true, if_false,
      if_neg hpar, Bool.and_eq_true, decide_eq_true_iff, onGrid_lt_iff, lt_onGrid_iff, hlo, hhi]

/-- A candidate is a multiple of `10^j`, on the grid of `n` digits, that rounds to `m · 2^e`. -/
theorem candidate_roundsTo {m : Nat} {e bigE : Int} {n : Nat} {c : Digits} (hm : 0 < m)
    (h : candidate m e bigE n = some c) :
    ∃ p : Nat, c = ofInteger p (bigE - n + 1) ∧
      Binary64.RoundsTo m e (p * 10 ^ (bigE - n + 1)) := by
  unfold candidate at h
  dsimp only at h
  obtain ⟨p, hp, rfl⟩ := Option.map_eq_some_iff.1 h
  refine ⟨p, rfl, (gridInside_iff hm).1 ?_⟩
  -- the pick is a neighbour that passed the test
  split at hp
  next h1 h2 =>
    split_ifs at hp <;> cases hp
    all_goals first | exact h1 | exact h2
  next h1 _ =>
    cases hp
    exact h1
  next _ h2 =>
    cases hp
    exact h2
  next => cases hp

/-- The grid point at or below `m · 2^e`. -/
theorem onGrid_floor (m : Nat) (e j : Int) :
    (onGrid (4 * m) (e - 2) j).1 / (onGrid (4 * m) (e - 2) j).2 = ⌊(m : ℚ) * 2 ^ e / 10 ^ j⌋₊ := by
  rw [← Nat.floor_div_eq_div (K := ℚ), onGrid_div, quarters (x := 4 * m) (c := (m : ℚ)) e (by push_cast; ring)]

/-- If a grid neighbour of `m · 2^e` rounds to it, the grid has a candidate. -/
theorem candidate_isSome {m : Nat} {e bigE : Int} {n : Nat} (hm : 0 < m)
    (h : Binary64.RoundsTo m e (⌊(m : ℚ) * 2 ^ e / 10 ^ (bigE - n + 1)⌋₊ * 10 ^ (bigE - n + 1)) ∨
      Binary64.RoundsTo m e
        ((⌊(m : ℚ) * 2 ^ e / 10 ^ (bigE - n + 1)⌋₊ + 1 : Nat) * 10 ^ (bigE - n + 1))) :
    (candidate m e bigE n).isSome := by
  rw [← onGrid_floor, ← gridInside_iff hm, ← gridInside_iff hm] at h
  unfold candidate
  dsimp only
  rw [Option.isSome_map]
  split
  next => split_ifs <;> rfl
  next => rfl
  next => rfl
  next h1 h2 =>
    rcases h with h | h
    · exact absurd h (by simp only [gridInside, bounds]; exact h1 ▸ Bool.false_ne_true)
    · exact absurd h (by simp only [gridInside, bounds]; exact h2 ▸ Bool.false_ne_true)

/-- The climb keeps a lower bound: it only steps to exponents that pass the test. -/
theorem climb_keeps (le : Int → Bool) : ∀ (fuel : Nat) (k : Int), le k = true →
    le (floorLog10.climb le fuel k) = true
  | 0, _, h => h
  | fuel + 1, k, h => by
    rw [floorLog10.climb]
    split
    · exact climb_keeps le fuel (k + 1) ‹_›
    · exact h

/-- The test of `floorLog10` compares a power of ten with `n / d`. -/
theorem floorLog10_test_iff {n d : Nat} (hd : 0 < d) (k : Int) :
    (if 0 ≤ k then decide (10 ^ k.toNat * d ≤ n) else decide (d ≤ n * 10 ^ (-k).toNat)) = true ↔
      (10 : ℚ) ^ k ≤ (n : ℚ) / d := by
  have hdq : (0 : ℚ) < d := by exact_mod_cast hd
  rw [le_div_iff₀ hdq]
  split_ifs with hk
  · obtain ⟨j, rfl⟩ := Int.eq_ofNat_of_zero_le hk
    simp only [Int.toNat_natCast, decide_eq_true_eq, zpow_natCast]
    exact_mod_cast Iff.rfl
  · obtain ⟨j, hj⟩ : ∃ j : Nat, k = -(j : Int) := ⟨(-k).toNat, by omega⟩
    subst hj
    simp only [neg_neg, Int.toNat_natCast, decide_eq_true_eq, zpow_neg, zpow_natCast]
    rw [← div_eq_inv_mul, div_le_iff₀ (by positivity)]
    exact_mod_cast Iff.rfl

/-- Three decimal digits are at most ten bits, so a power of ten is at most the power of two with
`10/3` times its exponent. -/
theorem ten_pow_le_two_pow_of_nonneg {k l : Nat} (h : 10 * k ≤ 3 * l) : 10 ^ k ≤ 2 ^ l := by
  have hcube : (10 ^ k) ^ 3 ≤ (2 ^ l) ^ 3 :=
    calc (10 ^ k) ^ 3 = 1000 ^ k := by rw [← pow_mul, mul_comm, pow_mul]; norm_num
      _ ≤ 1024 ^ k := Nat.pow_le_pow_left (by norm_num) k
      _ = 2 ^ (10 * k) := by rw [pow_mul]; norm_num
      _ ≤ 2 ^ (3 * l) := Nat.pow_le_pow_right (by norm_num) h
      _ = (2 ^ l) ^ 3 := by rw [← pow_mul, mul_comm]
  exact (Nat.pow_le_pow_iff_left (by norm_num)).1 hcube

/-- Ninety-three bits are at most twenty-eight decimal digits. -/
theorem two_pow_le_ten_pow {a b : Nat} (h : 28 * a ≤ 93 * b) : 2 ^ a ≤ 10 ^ b := by
  have hpow : (2 ^ a) ^ 28 ≤ (10 ^ b) ^ 28 :=
    calc (2 ^ a) ^ 28 = 2 ^ (28 * a) := by rw [← pow_mul, mul_comm]
      _ ≤ 2 ^ (93 * b) := Nat.pow_le_pow_right (by norm_num) h
      _ = (2 ^ 93) ^ b := by rw [pow_mul]
      _ ≤ (10 ^ 28) ^ b := Nat.pow_le_pow_left (by norm_num) b
      _ = (10 ^ b) ^ 28 := by rw [← pow_mul, ← pow_mul, mul_comm]
  exact (Nat.pow_le_pow_iff_left (by norm_num)).1 hpow

/-- `log10 2` is a little below `0.30103`; three decades below that estimate stay under
`2^(L-1)` for the binades of binary64. -/
theorem ten_pow_le_two_pow {t L : Int} (hbound : 100000 * (t + 3) ≤ 30103 * L) (hL1 : L ≤ 2621)
    (hL2 : -59619 ≤ L) : (10 : ℚ) ^ t ≤ 2 ^ (L - 1) := by
  by_cases ht : 0 ≤ t
  · obtain ⟨k, rfl⟩ := Int.eq_ofNat_of_zero_le ht
    obtain ⟨l, hl⟩ : ∃ l : Nat, L - 1 = l := ⟨(L - 1).toNat, by omega⟩
    rw [hl, zpow_natCast, zpow_natCast]
    exact_mod_cast ten_pow_le_two_pow_of_nonneg (by omega)
  by_cases hL : 1 ≤ L
  · calc (10 : ℚ) ^ t ≤ 1 := zpow_le_one_of_nonpos₀ (by norm_num) (by omega)
      _ ≤ 2 ^ (L - 1) := one_le_zpow₀ (by norm_num) (by omega)
  · -- both exponents negative: compare the reciprocals
    obtain ⟨b, hb⟩ : ∃ b : Nat, t = -(b : Int) := ⟨(-t).toNat, by omega⟩
    obtain ⟨a, ha⟩ : ∃ a : Nat, L - 1 = -(a : Int) := ⟨(1 - L).toNat, by omega⟩
    rw [hb, ha, zpow_neg, zpow_neg, zpow_natCast, zpow_natCast]
    apply inv_anti₀ (by positivity)
    exact_mod_cast two_pow_le_ten_pow (by omega)

/-- `floorLog10 n d` is at most the decimal exponent of `n / d`, for the binades of binary64. -/
theorem ten_pow_floorLog10_le {n d : Nat} (hn : 0 < n) (hd : 0 < d)
    (hL1 : (n.log2 : Int) - d.log2 ≤ 2621) (hL2 : -59619 ≤ (n.log2 : Int) - d.log2) :
    (10 : ℚ) ^ floorLog10 n d ≤ (n : ℚ) / d := by
  unfold floorLog10
  dsimp only
  rw [← floorLog10_test_iff hd]
  refine climb_keeps (fun k : Int =>
    if 0 ≤ k then decide (10 ^ k.toNat * d ≤ n) else decide (d ≤ n * 10 ^ (-k).toNat)) 8 _ ?_
  rw [floorLog10_test_iff hd]
  -- the estimate less three decades is below `2^(L-1)`, which is below `n / d`
  set L : Int := (n.log2 : Int) - d.log2
  have hest : 100000 * (L * 30103 / 100000 - 3 + 3) ≤ 30103 * L := by
    have := Int.ediv_mul_le (L * 30103) (show (100000 : Int) ≠ 0 by norm_num)
    linarith
  calc (10 : ℚ) ^ (L * 30103 / 100000 - 3) ≤ 2 ^ (L - 1) := ten_pow_le_two_pow hest hL1 hL2
    _ ≤ (n : ℚ) / d := (Binary64.log2_bracket hn hd).1.le

/-- On a grid finer than the rounding interval of `m · 2^e`, one of the two grid neighbours of
`m · 2^e` rounds to it. -/
theorem neighbour_roundsTo {m : Nat} {e j : Int} (hm : 0 < m)
    (hfine : (10 : ℚ) ^ j < (if m = 2 ^ 52 ∧ -1074 < e then 3 / 4 else 1) * 2 ^ e) :
    Binary64.RoundsTo m e (⌊(m : ℚ) * 2 ^ e / 10 ^ j⌋₊ * 10 ^ j) ∨
      Binary64.RoundsTo m e ((⌊(m : ℚ) * 2 ^ e / 10 ^ j⌋₊ + 1 : Nat) * 10 ^ j) := by
  have hs : (0 : ℚ) < 10 ^ j := by positivity
  have h2 : (0 : ℚ) < 2 ^ e := by positivity
  have hm1 : (1 : ℚ) ≤ m := by exact_mod_cast hm
  unfold Binary64.RoundsTo
  dsimp only
  set v : ℚ := (m : ℚ) * 2 ^ e
  set q := ⌊v / 10 ^ j⌋₊
  set below : ℚ := if m = 2 ^ 52 ∧ -1074 < e then 1 / 4 else 1 / 2 with hbelow
  -- the two neighbours are one grid step apart, on either side of `v`
  have hq : (q : ℚ) * 10 ^ j ≤ v := by
    have := Nat.floor_le (show 0 ≤ v / 10 ^ j by positivity)
    rwa [le_div_iff₀ hs] at this
  have hq1 : v < ((q + 1 : Nat) : ℚ) * 10 ^ j := by
    have := Nat.lt_floor_add_one (v / 10 ^ j)
    rw [div_lt_iff₀ hs] at this
    push_cast
    exact this
  -- the interval reaches past `v` on both sides, and is wider than the step
  have hb : 0 < below ∧ below ≤ 1 / 2 ∧ 1 / 2 + below =
      (if m = 2 ^ 52 ∧ -1074 < e then 3 / 4 else 1) := by
    rw [hbelow]
    split_ifs <;> norm_num
  have hlo : (m - below) * 2 ^ e < v := by
    simp only [v]
    nlinarith [hb.1]
  have hhi : v < ((m : ℚ) + 1 / 2) * 2 ^ e := by simp only [v]; nlinarith
  have hwide : 10 ^ j < ((m : ℚ) + 1 / 2) * 2 ^ e - (m - below) * 2 ^ e := by
    rw [← hb.2.2] at hfine
    linarith
  by_contra hno
  rw [not_or] at hno
  obtain ⟨h1, h2'⟩ := hno
  by_cases hpar : m % 2 = 0
  · -- even: the neighbours fall outside the closed interval
    rw [if_pos hpar] at h1 h2'
    have a : (q : ℚ) * 10 ^ j < (m - below) * 2 ^ e := by
      by_contra h
      exact h1 ⟨not_lt.1 h, hq.trans hhi.le⟩
    have b : ((m : ℚ) + 1 / 2) * 2 ^ e < ((q + 1 : Nat) : ℚ) * 10 ^ j := by
      by_contra h
      exact h2' ⟨hlo.le.trans hq1.le, not_lt.1 h⟩
    have hstep : ((q + 1 : Nat) : ℚ) * 10 ^ j - q * 10 ^ j = 10 ^ j := by push_cast; ring
    linarith
  · -- odd: they fall outside the open interval
    rw [if_neg hpar] at h1 h2'
    have a : (q : ℚ) * 10 ^ j ≤ (m - below) * 2 ^ e := by
      by_contra h
      exact h1 ⟨not_le.1 h, lt_of_le_of_lt hq hhi⟩
    have b : ((m : ℚ) + 1 / 2) * 2 ^ e ≤ ((q + 1 : Nat) : ℚ) * 10 ^ j := by
      by_contra h
      exact h2' ⟨lt_trans hlo hq1, not_le.1 h⟩
    have hstep : ((q + 1 : Nat) : ℚ) * 10 ^ j - q * 10 ^ j = 10 ^ j := by push_cast; ring
    linarith

/-- The search stops at the first grid with a candidate, which rounds to `m · 2^e`; with a
candidate on the grid of 17 digits it never falls back. -/
theorem search_roundsTo {m : Nat} {e bigE : Int} (hm : 0 < m)
    (h17 : (candidate m e bigE 17).isSome) :
    ∀ fuel n, n ≤ 17 → 17 < n + fuel →
      Binary64.RoundsTo m e (shortest.search m e bigE fuel n).value
  | 0, n, _, hf => absurd hf (by omega)
  | fuel + 1, n, hn, hf => by
    rw [shortest.search]
    split
    next c hc =>
      obtain ⟨p, rfl, hp⟩ := candidate_roundsTo hm hc
      rwa [value_ofInteger]
    next hc =>
      have hn17 : n ≠ 17 := fun h => by
        subst h
        rw [hc] at h17
        cases h17
      exact search_roundsTo hm h17 fuel (n + 1) (by omega) (by omega)

/-- The decimal exponent `shortest` starts from is no more than that of `m · 2^e`. -/
theorem ten_pow_bigE_le {m : Nat} {e : Int} (hm : 0 < m) (hr : Unpacked.Rounded m e)
    (he : e ≤ 971) :
    (10 : ℚ) ^ (if 0 ≤ e then floorLog10 (m * 2 ^ e.toNat) 1 else floorLog10 m (2 ^ (-e).toNat)) ≤
      (m : ℚ) * 2 ^ e := by
  have hlogm : m.log2 < 53 := (Nat.log2_lt hm.ne').2 hr.lt
  split_ifs with he0
  · obtain ⟨k, rfl⟩ := Int.eq_ofNat_of_zero_le he0
    have hN : 0 < m * 2 ^ k := Nat.mul_pos hm (Nat.two_pow_pos k)
    have hlog : (m * 2 ^ k).log2 < 1024 := by
      rw [Nat.log2_lt hN.ne']
      calc m * 2 ^ k < 2 ^ 53 * 2 ^ k := Nat.mul_lt_mul_of_pos_right hr.lt (Nat.two_pow_pos k)
        _ = 2 ^ (53 + k) := by rw [pow_add]
        _ ≤ 2 ^ 1024 := Nat.pow_le_pow_right (by norm_num) (by omega)
    have := ten_pow_floorLog10_le hN Nat.one_pos (by rw [show Nat.log2 1 = 0 by decide]; omega)
      (by rw [show Nat.log2 1 = 0 by decide]; omega)
    simpa [zpow_natCast] using this
  · obtain ⟨k, hk⟩ : ∃ k : Nat, e = -(k : Int) := ⟨(-e).toNat, by omega⟩
    subst hk
    have hk1074 : k ≤ 1074 := by have := hr.ge; omega
    have := ten_pow_floorLog10_le hm (Nat.two_pow_pos k)
      (by rw [Nat.log2_two_pow]; omega) (by rw [Nat.log2_two_pow]; omega)
    simpa [zpow_neg, div_eq_mul_inv] using this

/-- The grid of 17 digits is finer than the rounding interval. -/
theorem grid17_fine {m : Nat} {e bigE : Int} (hm53 : m < 2 ^ 53)
    (hbig : (10 : ℚ) ^ bigE ≤ (m : ℚ) * 2 ^ e) :
    (10 : ℚ) ^ (bigE - (17 : Nat) + 1) < (if m = 2 ^ 52 ∧ -1074 < e then 3 / 4 else 1) * 2 ^ e := by
  have h2 : (0 : ℚ) < 2 ^ e := by positivity
  have hsplit : (10 : ℚ) ^ (bigE - (17 : Nat) + 1) = 10 ^ bigE / 10 ^ 16 := by
    rw [show bigE - (17 : Nat) + 1 = bigE - (16 : Nat) by push_cast; ring, zpow_sub₀ (by norm_num),
      zpow_natCast]
  rw [hsplit, div_lt_iff₀ (by positivity)]
  refine lt_of_le_of_lt hbig ?_
  have hm' : (m : ℚ) < 2 ^ 53 := by exact_mod_cast hm53
  split_ifs with hb
  · rw [hb.1]
    push_cast
    nlinarith
  · nlinarith

/-- The shortest digits of a finite positive float round back to it. -/
theorem shortest_roundsTo {m : Nat} {e : Int} (hm : 0 < m) (hr : Unpacked.Rounded m e)
    (he : e ≤ 971) : Binary64.RoundsTo m e (shortest m e).value := by
  unfold shortest
  split
  · -- a whole number below `2^53` is written exactly
    rename_i hint
    simp only [Bool.and_eq_true, decide_eq_true_eq] at hint
    obtain ⟨k, hk⟩ := Int.eq_ofNat_of_zero_le hint.1
    rw [value_ofInteger, hk]
    have h2 : (0 : ℚ) < 2 ^ (k : Int) := by positivity
    unfold Binary64.RoundsTo
    dsimp only
    push_cast
    rw [Int.toNat_natCast, zpow_natCast]
    have hb : (0 : ℚ) < if m = 2 ^ 52 ∧ -1074 < (k : Int) then 1 / 4 else 1 / 2 := by
      split_ifs <;> norm_num
    split_ifs <;> constructor <;> nlinarith [pow_pos (two_pos : (0 : ℚ) < 2) k]
  · dsimp only
    apply search_roundsTo hm _ 17 1 (by omega) (by omega)
    exact candidate_isSome hm (neighbour_roundsTo hm (grid17_fine hr.lt (ten_pow_bigE_le hm hr he)))

/-! ### The shape of the digits -/

/-- The first digit of a positive number is not zero. -/
theorem ofNat_head_pos {n : Nat} (hn : 0 < n) : ∃ a rest, ofNat n = a :: rest ∧ 0 < a := by
  induction n using Nat.strong_induction_on with
  | _ n ih =>
    rw [ofNat]
    split
    · exact ⟨n, [], rfl, hn⟩
    · obtain ⟨a, rest, h, ha⟩ := ih (n / 10) (by omega) (by omega)
      exact ⟨a, rest ++ [n % 10], by rw [h]; rfl, ha⟩

/-- Dropping the trailing zeros of a positive number's digits keeps its first digit. -/
theorem ofInteger_head_pos {n : Nat} (hn : 0 < n) (shift : Int) :
    ∃ a rest, (ofInteger n shift).digits = a :: rest ∧ 0 < a := by
  obtain ⟨a, rest, h, ha⟩ := ofNat_head_pos hn
  have hkeep : ¬(a == 0) = true := by simpa using ha.ne'
  simp only [ofInteger, h, List.reverse_cons]
  rw [List.dropWhile_append]
  split
  · exact ⟨a, [], by simp [hkeep], ha⟩
  · exact ⟨a, (rest.reverse.dropWhile (· == 0)).reverse, by simp, ha⟩

theorem number_cons (a : Nat) (l : List Nat) : number (a :: l) = a * 10 ^ l.length + number l := by
  rw [← List.singleton_append, number_append]
  simp [number]

theorem number_lt {ds : List Nat} (h : ∀ d ∈ ds, d < 10) : number ds < 10 ^ ds.length := by
  induction ds with
  | nil => decide
  | cons a l ih =>
    have ha : a * 10 ^ l.length ≤ 9 * 10 ^ l.length :=
      Nat.mul_le_mul_right _ (Nat.le_of_lt_succ (h a List.mem_cons_self))
    have hl := ih fun d hd => h d (List.mem_cons_of_mem a hd)
    rw [number_cons, List.length_cons, pow_succ]
    omega

/-- A positive number's digits lie between the powers of ten around its first digit. -/
theorem value_bounds {n : Nat} (hn : 0 < n) (shift : Int) :
    (10 : ℚ) ^ ((ofInteger n shift).point - 1) ≤ (ofInteger n shift).value ∧
      (ofInteger n shift).value < 10 ^ (ofInteger n shift).point := by
  obtain ⟨a, rest, hd, ha⟩ := ofInteger_head_pos hn shift
  have hlt : number (a :: rest) < 10 ^ (rest.length + 1) := by
    have := @number_lt (ofInteger n shift).digits fun x hx => lt_ten_of_mem_ofInteger hx
    rwa [hd] at this
  have hge : 10 ^ rest.length ≤ number (a :: rest) := by
    rw [number_cons]
    exact Nat.le_add_right_of_le (Nat.le_mul_of_pos_left _ ha)
  have hlt' : (number (a :: rest) : ℚ) < 10 ^ (rest.length + 1) := by exact_mod_cast hlt
  have hge' : (10 : ℚ) ^ rest.length ≤ number (a :: rest) := by exact_mod_cast hge
  have hpos : (0 : ℚ) < 10 ^ ((ofInteger n shift).point - (rest.length + 1 : Nat)) := by positivity
  unfold value
  rw [hd, List.length_cons]
  constructor
  · calc (10 : ℚ) ^ ((ofInteger n shift).point - 1)
        = 10 ^ rest.length * 10 ^ ((ofInteger n shift).point - (rest.length + 1 : Nat)) := by
          rw [← zpow_natCast, ← zpow_add₀ (by norm_num)]
          congr 1
          push_cast
          ring
      _ ≤ _ := mul_le_mul_of_nonneg_right hge' hpos.le
  · calc (number (a :: rest) : ℚ) * 10 ^ ((ofInteger n shift).point - (rest.length + 1 : Nat))
        < 10 ^ (rest.length + 1) * 10 ^ ((ofInteger n shift).point - (rest.length + 1 : Nat)) :=
          mul_lt_mul_of_pos_right hlt' hpos
      _ = 10 ^ (ofInteger n shift).point := by
          rw [← zpow_natCast, ← zpow_add₀ (by norm_num)]
          congr 1
          ring

theorem shortest_eq_ofInteger (m : Nat) (e : Int) : ∃ q j, shortest m e = ofInteger q j := by
  unfold shortest
  split
  · exact ⟨_, 0, rfl⟩
  · exact search_eq_ofInteger m e _ 17 1

theorem two_pow_1023_le : (2 : ℚ) ^ 1023 ≤ 10 ^ 308 := by
  have h := two_pow_le_ten_pow (a := 1023) (b := 308) (by norm_num)
  rw [← @Nat.cast_le ℚ] at h
  simpa only [Nat.cast_pow, Nat.cast_ofNat] using h

/-- The least subnormal, halved, is above `10^-324`. -/
theorem ten_pow_lt_half_least :
    (10 : ℚ) ^ (-324 : Int) < 1 / 2 * 2 ^ (-1074 : Int) := by
  have h := two_pow_1023_le
  have h52 : (2 : ℚ) ^ 52 < 10 ^ 16 := by norm_num
  have hp : (2 : ℚ) ^ 1075 < 10 ^ 324 := by
    rw [show 1075 = 1023 + 52 from rfl, show 324 = 308 + 16 from rfl, pow_add, pow_add]
    exact mul_lt_mul' h h52 (by positivity) (by positivity)
  rw [zpow_neg, zpow_neg, zpow_ofNat, zpow_ofNat, one_div, ← mul_inv, ← pow_succ']
  exact inv_strictAnti₀ (by positivity) hp

/-- The largest finite float, `2^1024` rounded down, is below `10^309`. -/
theorem two_pow_lt_ten_pow_309 : (2 : ℚ) ^ 53 * 2 ^ (971 : Int) < 10 ^ (309 : Int) := by
  have h := two_pow_1023_le
  rw [zpow_ofNat, zpow_ofNat, ← pow_add]
  calc (2 : ℚ) ^ (53 + 971) = 2 ^ 1023 * 2 := pow_succ 2 1023
    _ < 10 ^ 308 * 10 := mul_lt_mul' h (by norm_num) (by norm_num) (by positivity)
    _ = 10 ^ 309 := (pow_succ 10 308).symm

section Shape

variable {m : Nat} {e : Int} (hm : 0 < m) (hr : Unpacked.Rounded m e) (he : e ≤ 971)
include hm hr he

/-- The shortest digits of a finite positive float are the digits of a positive number. -/
theorem shortest_eq_ofInteger_pos : ∃ q j, 0 < q ∧ shortest m e = ofInteger q j := by
  obtain ⟨q, j, hq⟩ := shortest_eq_ofInteger m e
  refine ⟨q, j, Nat.pos_of_ne_zero fun h0 => ?_, hq⟩
  have hlow := (shortest_roundsTo hm hr he).bounds.1
  rw [hq, value_ofInteger, h0, Nat.cast_zero, zero_mul] at hlow
  have h1 : (1 : ℚ) ≤ m := by exact_mod_cast hm
  have h2 : (0 : ℚ) < 2 ^ e := by positivity
  nlinarith

/-- The shortest digits of a finite positive float start with a nonzero digit. -/
theorem shortest_head_pos : ∃ a rest, (shortest m e).digits = a :: rest ∧ 0 < a := by
  obtain ⟨q, j, hq, hd⟩ := shortest_eq_ofInteger_pos hm hr he
  rw [hd]
  exact ofInteger_head_pos hq j

/-- The decimal point of the shortest digits of a finite positive float stands between `-323`
and `309`. -/
theorem shortest_point_bounds : -324 < (shortest m e).point ∧ (shortest m e).point ≤ 309 := by
  obtain ⟨q, j, hq, hd⟩ := shortest_eq_ofInteger_pos hm hr he
  obtain ⟨hlo, hhi⟩ := (shortest_roundsTo hm hr he).bounds
  obtain ⟨hbelow, habove⟩ := value_bounds hq j
  rw [← hd] at hbelow habove
  have hm1 : (1 : ℚ) ≤ m := by exact_mod_cast hm
  have hm53 : (m : ℚ) + 1 / 2 ≤ 2 ^ 53 := by
    have : m + 1 ≤ 2 ^ 53 := hr.lt
    have : ((m + 1 : Nat) : ℚ) ≤ 2 ^ 53 := by exact_mod_cast this
    push_cast at this
    linarith
  have h2lo : (2 : ℚ) ^ (-1074 : Int) ≤ 2 ^ e := zpow_le_zpow_right₀ (by norm_num) hr.ge
  have h2hi : (2 : ℚ) ^ e ≤ 2 ^ (971 : Int) := zpow_le_zpow_right₀ (by norm_num) he
  have h2 : (0 : ℚ) < 2 ^ e := by positivity
  constructor
  · -- the value is at least half the least subnormal, above `10^-324`
    have hv : 1 / 2 * (2 : ℚ) ^ (-1074 : Int) ≤ (shortest m e).value := by
      calc 1 / 2 * (2 : ℚ) ^ (-1074 : Int) ≤ ((m : ℚ) - 1 / 2) * 2 ^ e := by
            apply mul_le_mul _ h2lo (by positivity) <;> linarith
        _ ≤ _ := hlo
    exact (zpow_lt_zpow_iff_right₀ (by norm_num : (1 : ℚ) < 10)).1
      (ten_pow_lt_half_least.trans_le hv |>.trans habove)
  · -- the value is at most `2^1024`, below `10^309`
    have hv : (shortest m e).value ≤ 2 ^ 53 * 2 ^ (971 : Int) :=
      hhi.trans (mul_le_mul hm53 h2hi h2.le (by positivity))
    have := (zpow_lt_zpow_iff_right₀ (by norm_num : (1 : ℚ) < 10)).1 (hbelow.trans_lt
      (hv.trans_lt two_pow_lt_ten_pow_309))
    omega

end Shape

end TraceSynth.Digits
