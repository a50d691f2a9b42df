import TraceSynth.Text.Bytes

/-!
# Binary64 numbers as exact rationals

A finite binary64 number is `± m · 2^e` with `m < 2^53`. This module reads a `Float` into that
form through its bits, and rounds an exact positive rational to the nearest binary64 number,
a tie going to the even mantissa. Every decision is made in exact `Nat` arithmetic.
-/

namespace TraceSynth.Binary64

/-- What a binary64 bit pattern denotes. -/
inductive Parts where
  /-- Not a number. -/
  | nan
  /-- An infinity of the given sign (`true` for negative). -/
  | inf (neg : Bool)
  /-- The finite number `(-1)^neg · mantissa · 2^exponent`; zero has mantissa 0. -/
  | finite (neg : Bool) (mantissa : Nat) (exponent : Int)
  deriving DecidableEq, Inhabited

/-- The least exponent of a binary64 mantissa's unit. -/
def minExponent : Int := -1074

/-- The parts of a float, read from its bits. -/
def parts (x : Float) : Parts :=
  let b : Nat := x.toBits.toNat
  let neg := b / 2 ^ (63 : Nat) % 2 == 1
  let biased : Nat := b / 2 ^ (52 : Nat) % 2048
  let frac : Nat := b % 2 ^ (52 : Nat)
  if biased == 2047 then (if frac == 0 then .inf neg else .nan)
  else if biased == 0 then .finite neg frac minExponent
  else .finite neg (frac + 2 ^ (52 : Nat)) ((biased : Int) - 1075)

/-- Whether a float equals its own integer part: a whole number or an infinity, never NaN. -/
def isWhole (x : Float) : Bool :=
  match parts x with
  | .nan => false
  | .inf _ => true
  | .finite _ m e => 0 ≤ e || m % 2 ^ (-e).toNat == 0

/-- The float with the given sign, biased exponent and fraction bits. -/
def ofFields (neg : Bool) (biased frac : Nat) : Float :=
  Float.ofBits ((if neg then 2 ^ (63 : Nat) else 0) + biased * 2 ^ (52 : Nat) + frac).toUInt64

/-- The infinity of a sign. -/
def infinity (neg : Bool) : Float := ofFields neg 2047 0

/-- `n / d` rounded to the nearest natural number, a tie going to the even one. -/
def roundHalfEven (n d : Nat) : Nat :=
  let q := n / d
  let r := n % d
  if 2 * r < d then q else if 2 * r > d then q + 1 else if q % 2 == 0 then q else q + 1

/-- The numerator and denominator of `n / d · 2^k`. -/
def scale (n d : Nat) (k : Int) : Nat × Nat :=
  if 0 ≤ k then (n * 2 ^ k.toNat, d) else (n, d * 2 ^ (-k).toNat)

/-- The exponent `e` with `2^52 ≤ n / d / 2^e < 2^53`, for `n, d > 0`. -/
def normalExponent (n d : Nat) : Int :=
  -- first estimate from bit lengths, then correct by one step either way
  let e0 : Int := (Nat.log2 n : Int) - (Nat.log2 d : Int) - 52
  let below (e : Int) : Bool := let (a, b) := scale n d (-e); a < 2 ^ (52 : Nat) * b
  let above (e : Int) : Bool := let (a, b) := scale n d (-e); 2 ^ (53 : Nat) * b ≤ a
  if below e0 then e0 - 1 else if above e0 then e0 + 1 else e0

/-- The nearest binary64 number to the positive rational `n / d` (a tie to the even mantissa),
with its sign, and whether it overflowed to infinity. A quotient below half the least
subnormal rounds to zero. -/
def round (neg : Bool) (n d : Nat) : Float × Bool :=
  if n == 0 || d == 0 then (ofFields neg 0 0, false)
  else
    let e := max (normalExponent n d) minExponent
    let (a, b) := scale n d (-e)
    let m := roundHalfEven a b
    let (m, e) := if m == 2 ^ (53 : Nat) then (2 ^ (52 : Nat), e + 1) else (m, e)
    if e + 52 > 1023 then (infinity neg, true)
    else if m < 2 ^ (52 : Nat) then (ofFields neg 0 m, false)
    else (ofFields neg (e + 1075).toNat (m - 2 ^ (52 : Nat)), false)

end TraceSynth.Binary64
