import TraceSynth.Text.Bytes

/-!
# Durations

A duration is a signed number of nanoseconds in the 64-bit range. Its text gives hours, minutes
and seconds (`1h2m3.5s`), or one smaller unit below a second (`1.5ms`, `2µs`, `7ns`), with
trailing fraction zeros dropped; zero is `0s`.

Rounding to a multiple rounds halves away from zero and saturates at the ends of the range.

Text is read as a sign and a sequence of decimal numbers each followed by a unit (`ns`, `us`,
`µs`, `μs`, `ms`, `s`, `m`, `h`), such as `1h30m` or `-1.5s`; `0` alone is zero. Fractions are
scaled in binary64, which is exact to the nanosecond for every unit.
-/

namespace TraceSynth

/-- A signed duration in nanoseconds. -/
structure Duration where
  nanos : Int
  deriving DecidableEq, Inhabited, Repr

namespace Duration

/-- The largest duration. -/
def maxNanos : Int := 9223372036854775807

/-- The smallest duration. -/
def minNanos : Int := -9223372036854775808

/-- Nanoseconds in a microsecond, millisecond, second, minute and hour. -/
def microsecond : Nat := 1000
def millisecond : Nat := 1000000
def second : Nat := 1000000000
def minute : Nat := 60000000000
def hour : Nat := 3600000000000

/-- Round to a multiple of `m` nanoseconds, halves away from zero; a non-positive `m` leaves
the duration alone. -/
def round (d : Duration) (m : Int) : Duration :=
  if m ≤ 0 then d
  else
    let r := d.nanos.natAbs % m.toNat
    let lessThanHalf := 2 * r < m.toNat
    if d.nanos < 0 then
      if lessThanHalf then ⟨d.nanos + r⟩
      else
        let d1 := d.nanos - m + r
        if d1 < minNanos then ⟨minNanos⟩ else ⟨d1⟩
    else
      if lessThanHalf then ⟨d.nanos - r⟩
      else
        let d1 := d.nanos + m - r
        if d1 > maxNanos then ⟨maxNanos⟩ else ⟨d1⟩

/-- The digits of a fraction `v / 10^prec` after the point, trailing zeros dropped, with the
point; empty when the fraction is zero. Also the whole part. -/
def fraction (v prec : Nat) : String × Nat :=
  let scale := 10 ^ prec
  let frac := v % scale
  if frac == 0 then ("", v / scale)
  else
    let digits := (Nat.toDigits 10 frac)
    let padded := List.replicate (prec - digits.length) '0' ++ digits
    let trimmed := (padded.reverse.dropWhile (· == '0')).reverse
    ("." ++ String.ofList trimmed, v / scale)

/-- The text of a duration. -/
def text (d : Duration) : String :=
  let u := d.nanos.natAbs
  let sign := if d.nanos < 0 then "-" else ""
  if u == 0 then "0s"
  else if u < second then
    let (prec, unit) :=
      if u < microsecond then (0, "ns")
      else if u < millisecond then (3, "µs")
      else (6, "ms")
    let (frac, whole) := fraction u prec
    sign ++ toString whole ++ frac ++ unit
  else
    let (frac, secs) := fraction u 9
    let mins := secs / 60
    let body :=
      if mins == 0 then toString (secs % 60) ++ frac ++ "s"
      else
        let hours := mins / 60
        let ms := toString (mins % 60) ++ "m" ++ toString (secs % 60) ++ frac ++ "s"
        if hours == 0 then ms else toString hours ++ "h" ++ ms
    sign ++ body

/-- A string in double quotes for error messages: quotes and backslashes escaped, and every byte
of a control or non-ASCII character written `\xhh`. -/
def quote (s : String) : String :=
  let hex (n : Nat) : Char := "0123456789abcdef".toList.getD n '0'
  let body := s.toList.foldl (fun acc c =>
    if c.toNat < 0x20 || c.toNat ≥ 0x80 then
      (String.toUTF8 (String.singleton c)).toList.foldl (fun a b =>
        a ++ "\\x" ++ String.singleton (hex (b.toNat / 16)) ++
          String.singleton (hex (b.toNat % 16))) acc
    else if c == '"' || c == '\\' then acc ++ "\\" ++ String.singleton c
    else acc.push c) ""
  "\"" ++ body ++ "\""

/-- The nanoseconds of a unit name. -/
def unitNanos : String → Option Nat
  | "ns" => some 1
  | "us" | "µs" | "μs" => some microsecond
  | "ms" => some millisecond
  | "s" => some second
  | "m" => some minute
  | "h" => some hour
  | _ => none

/-- Why a text is not a duration. -/
inductive ParseError where
  | invalid (text : String)
  | missingUnit (text : String)
  | unknownUnit (unit text : String)
  deriving Inhabited

/-- The message of a parse error. -/
def ParseError.message : ParseError → String
  | .invalid s => "time: invalid duration " ++ quote s
  | .missingUnit s => "time: missing unit in duration " ++ quote s
  | .unknownUnit u s => "time: unknown unit " ++ quote u ++ " in duration " ++ quote s

/-- `2^63`, the bound of an unsigned running total. -/
def limit : Nat := 9223372036854775808

/-- Leading digits as a number; none when it passes `2^63`. -/
def leadingInt (cs : List Char) : Option (Nat × List Char) :=
  let digits := cs.takeWhile Char.isDigit
  let rest := cs.dropWhile Char.isDigit
  digits.foldlM (fun x c =>
    if x > limit / 10 then none
    else
      let y := x * 10 + (c.toNat - 48)
      if y > limit then none else some y) 0 |>.map fun v => (v, rest)

/-- Leading digits of a fraction: the digits kept before they would overflow, and their scale. -/
def leadingFraction (cs : List Char) : Nat × Float × List Char :=
  let digits := cs.takeWhile Char.isDigit
  let rest := cs.dropWhile Char.isDigit
  let (x, scale, _) := digits.foldl (fun (x, scale, full) c =>
    if full then (x, scale, true)
    else if x > (limit - 1) / 10 then (x, scale, true)
    else
      let y := x * 10 + (c.toNat - 48)
      if y > limit then (x, scale, true) else (y, scale * 10, false)) (0, 1.0, false)
  (x, scale, rest)

/-- The components of a duration text after its sign; the total in nanoseconds. -/
def components (orig : String) : Nat → List Char → Nat → Except ParseError Nat
  | 0, _, d => pure d
  | _ + 1, [], d => pure d
  | fuel + 1, cs@(c :: _), d => do
    if !(c == '.' || c.isDigit) then throw (.invalid orig)
    let some (v, rest) := leadingInt cs | throw (.invalid orig)
    let pre := rest.length != cs.length
    let (f, scale, rest, post) := match rest with
      | '.' :: more =>
        let (f, scale, after) := leadingFraction more
        (f, scale, after, after.length != more.length)
      | _ => (0, 1.0, rest, false)
    if !pre && !post then throw (.invalid orig)
    let unitChars := rest.takeWhile fun ch => !(ch == '.' || ch.isDigit)
    let rest := rest.drop unitChars.length
    if unitChars.isEmpty then throw (.missingUnit orig)
    let u := String.ofList unitChars
    let some unit := unitNanos u | throw (.unknownUnit u orig)
    if v > limit / unit then throw (.invalid orig)
    let v := v * unit
    let v := if f > 0 then v + (f.toFloat * (unit.toFloat / scale)).toUInt64.toNat else v
    if v > limit then throw (.invalid orig)
    let d := d + v
    if d > limit then throw (.invalid orig)
    components orig fuel rest d

/-- Read a duration. -/
def parse (s : String) : Except ParseError Duration := do
  let cs := s.toList
  let (neg, body) := match cs with
    | '-' :: rest => (true, rest)
    | '+' :: rest => (false, rest)
    | _ => (false, cs)
  if body == ['0'] then return ⟨0⟩
  if body.isEmpty then throw (.invalid s)
  let d ← components s (body.length + 1) body 0
  if neg then return ⟨-(d : Int)⟩
  if d > limit - 1 then throw (.invalid s)
  return ⟨d⟩

end Duration

end TraceSynth
