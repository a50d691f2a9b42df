import TraceSynth.Random.Table

/-!
# A lagged Fibonacci random source

The source keeps 607 words and two positions, the feed and the tap 273 places behind it. Each
step moves both back by one (cyclically) and stores the sum of the two words at the feed,
which is the output. Seeding reduces the seed modulo `2^31 - 1` (0 becomes 89482311), runs the
Park–Miller generator twenty steps, and then fills each word from three further steps, shifted
by 40, 20 and 0 bits, mixed with the seeding table.

The draws built on it: a 63-bit number drops the top bit; a number below `n < 2^31` uses the
top 31 bits, masked when `n` is a power of two and otherwise redrawn above the largest multiple
of `n`; a float divides a 63-bit number by `2^63`, redrawn if it rounds to 1; a permutation
inserts each `i` at a drawn place below `i + 1`.
-/

namespace TraceSynth

/-- The state of the source. -/
structure Rng where
  vec : Array UInt64
  tap : Nat
  feed : Nat
  deriving Inhabited

/-- Computations drawing from the source. -/
abbrev RandM := StateM Rng

namespace Rng

/-- The number of words. -/
def size : Nat := 607

/-- The distance from the feed to the tap. -/
def lag : Nat := 273

/-- `2^31 - 1`. -/
def int32Max : Int := 2147483647

/-- One step of the Park–Miller generator `x ↦ 48271 x mod (2^31 - 1)`, by Schrage's method. -/
def seedStep (x : Int) : Int :=
  let hi := x.tdiv 44488
  let lo := x.tmod 44488
  let x := 48271 * lo - 3399 * hi
  if x < 0 then x + int32Max else x

/-- The word of a Park–Miller value, as its 64-bit two's complement. -/
def word (x : Int) : UInt64 := UInt64.ofInt x

/-- The source seeded with `seed`. -/
def seeded (seed : Int) : Rng :=
  let s := seed.tmod int32Max
  let s := if s < 0 then s + int32Max else s
  let s := if s == 0 then 89482311 else s
  let x := (List.range 20).foldl (fun x _ => seedStep x) s
  -- one word for each of the table's 607 words, gathered in reverse and turned around once
  let (words, _) := Random.cooked.toList.foldl (fun (acc : List UInt64 × Int) c =>
    let x := seedStep acc.2
    let u := word x <<< 40
    let x := seedStep x
    let u := u ^^^ (word x <<< 20)
    let x := seedStep x
    ((u ^^^ word x ^^^ c) :: acc.1, x)) ([], x)
  { vec := words.reverse.toArray, tap := 0, feed := size - lag }

end Rng

namespace Random

/-- The next 64-bit output. -/
def next64 : RandM UInt64 := do
  let r ← get
  let tap := if r.tap == 0 then Rng.size - 1 else r.tap - 1
  let feed := if r.feed == 0 then Rng.size - 1 else r.feed - 1
  let x := r.vec.getD feed 0 + r.vec.getD tap 0
  set { r with vec := r.vec.set! feed x, tap, feed }
  pure x

/-- A number below `2^63`. -/
def int63 : RandM Nat := do
  let x ← next64
  pure (x &&& 0x7FFFFFFFFFFFFFFF).toNat

/-- A number below `2^31`: the top bits of a 63-bit number. -/
def int31 : RandM Nat := do
  let x ← int63
  pure (x >>> 32)

/-- Redraw with `draw` while the result exceeds `max`; the chance of running out of tries is
negligible, and then the last draw stands. -/
def redrawAbove (draw : RandM Nat) (max : Nat) : Nat → Nat → RandM Nat
  | 0, v => pure v
  | tries + 1, v => if v > max then do redrawAbove draw max tries (← draw) else pure v

/-- A number below `n`, for `0 < n < 2^31`. -/
def int31n (n : Nat) : RandM Nat := do
  if n &&& (n - 1) == 0 then
    let v ← int31
    pure (v &&& (n - 1))
  else
    let max := 2 ^ (31 : Nat) - 1 - 2 ^ (31 : Nat) % n
    let v ← redrawAbove int31 max 1000 (← int31)
    pure (v % n)

/-- A number below `n`, for `0 < n < 2^63`. -/
def int63n (n : Nat) : RandM Nat := do
  if n &&& (n - 1) == 0 then
    let v ← int63
    pure (v &&& (n - 1))
  else
    let max := 2 ^ (63 : Nat) - 1 - 2 ^ (63 : Nat) % n
    let v ← redrawAbove int63 max 1000 (← int63)
    pure (v % n)

/-- A number below `n > 0`. -/
def intn (n : Nat) : RandM Nat :=
  if n ≤ 2 ^ (31 : Nat) - 1 then int31n n else int63n n

/-- A float in `[0, 1)`. -/
def float : RandM Float := do
  let draw : RandM Float := do
    let v ← int63
    pure (v.toUInt64.toFloat / 9223372036854775808.0)
  let rec again : Nat → Float → RandM Float
    | 0, f => pure f
    | tries + 1, f => if f == 1 then do again tries (← draw) else pure f
  again 1000 (← draw)

/-- A permutation of `0 ..< n`. -/
def perm (n : Nat) : RandM (List Nat) := do
  let m ← (List.range n).foldlM (fun (m : Array Nat) i => do
    let j ← intn (i + 1)
    let m := m.push 0
    let m := m.set! i (m.getD j 0)
    pure (m.set! j i)) #[]
  pure m.toList

end Random

end TraceSynth
