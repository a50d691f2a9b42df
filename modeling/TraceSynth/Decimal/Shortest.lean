import TraceSynth.Decimal.Binary64

/-!
# Shortest decimal digits of a binary64 number

The digits of a finite nonzero binary64 number `v` are the fewest significant decimal digits of
a number that rounds back to `v`; of two such numbers with that many digits, the nearer to `v`,
and of two equally near ones, the one with the even last digit.

The numbers that round to `v = m · 2^e` form an interval reaching half a unit of `m` either side
(a quarter below at a power of two, where the unit below is half as large), with its ends
included when `m` is even. For `n = 1, 2, …, 17` the two neighbours of `v` on the grid of
`n`-digit decimals are tested in exact arithmetic; the first `n` with a neighbour in the
interval gives the digits. If a grid point lies in the interval, so does one of the two
neighbours, because the interval contains `v`.
-/

namespace TraceSynth

/-- A positive decimal `0.d₁d₂…dₙ × 10^point` with `d₁ ≠ 0` and `dₙ ≠ 0`. -/
structure Digits where
  /-- The significant digits, most significant first. -/
  digits : List Nat
  /-- Where the decimal point stands, counted from the left of the first digit. -/
  point : Int
  deriving DecidableEq, Inhabited, Repr

namespace Digits

/-- The decimal digits of a natural number, most significant first (`[0]` for zero). -/
def ofNat (n : Nat) : List Nat :=
  if n < 10 then [n] else ofNat (n / 10) ++ [n % 10]
termination_by n
decreasing_by omega

/-- The digits of a positive integer `n · 10^shift`, trailing zeros dropped. -/
def ofInteger (n : Nat) (shift : Int := 0) : Digits :=
  let ds := ofNat n
  let trimmed := (ds.reverse.dropWhile (· == 0)).reverse
  ⟨trimmed, (ds.length : Int) + shift⟩

/-- The largest `E` with `10^E ≤ n / d`, for `n, d > 0`. -/
def floorLog10 (n d : Nat) : Int :=
  -- the estimate from the bit lengths is within two of the answer; climb from below it
  let est : Int := ((Nat.log2 n : Int) - (Nat.log2 d : Int)) * 30103 / 100000
  let le (k : Int) : Bool :=
    if 0 ≤ k then 10 ^ k.toNat * d ≤ n else d ≤ n * 10 ^ (-k).toNat
  let rec climb : Nat → Int → Int
    | 0, k => k
    | fuel + 1, k => if le (k + 1) then climb fuel (k + 1) else k
  climb 8 (est - 3)

/-- The numerator and denominator of `x · 2^k / 10^j`. -/
def onGrid (x : Nat) (k j : Int) : Nat × Nat :=
  (x * 2 ^ (max k 0).toNat * 10 ^ (max (-j) 0).toNat, 2 ^ (max (-k) 0).toNat * 10 ^ (max j 0).toNat)

/-- The interval of numbers that round to `m · 2^e`, as `(low, value, high) · 2^(e-2)`. -/
def bounds (m : Nat) (e : Int) : Nat × Nat × Nat :=
  let low := if m == 2 ^ (52 : Nat) && e > Binary64.minExponent then 4 * m - 1 else 4 * m - 2
  (low, 4 * m, 4 * m + 2)

/-- The `n`-digit candidate nearest to `m · 2^e` inside its rounding interval, if there is one.
`E` is the decimal exponent of the value's first digit. -/
def candidate (m : Nat) (e : Int) (bigE : Int) (n : Nat) : Option Digits :=
  let (lo, v, hi) := bounds m e
  let k := e - 2
  let j := bigE - n + 1
  let (vn, den) := onGrid v k j
  let (ln, _) := onGrid lo k j
  let (hn, _) := onGrid hi k j
  let inclusive := m % 2 == 0
  let inside (q : Nat) : Bool :=
    (if inclusive then ln ≤ q * den else ln < q * den) &&
      (if inclusive then q * den ≤ hn else q * den < hn)
  let q := vn / den
  let pick : Option Nat :=
    match inside q, inside (q + 1) with
    | true, true =>
      let below := vn - q * den
      let above := (q + 1) * den - vn
      if below < above then some q else if above < below then some (q + 1)
      else if q % 2 == 0 then some q else some (q + 1)
    | true, false => some q
    | false, true => some (q + 1)
    | false, false => none
  pick.map fun d => ofInteger d j

/-- The shortest digits of the positive number `m · 2^e` (`m > 0`). -/
def shortest (m : Nat) (e : Int) : Digits :=
  if 0 ≤ e && m * 2 ^ e.toNat < 2 ^ (53 : Nat) then ofInteger (m * 2 ^ e.toNat)
  else
    let bigE := if 0 ≤ e then floorLog10 (m * 2 ^ e.toNat) 1 else floorLog10 m (2 ^ (-e).toNat)
    let rec search : Nat → Nat → Digits
      | 0, _ => ofInteger m
      | fuel + 1, n =>
        match candidate m e bigE n with
        | some d => d
        | none => search fuel (n + 1)
    search 17 1

end Digits

end TraceSynth
