import TraceSynth.Decimal.Binary64
import TraceSynth.Text.Quoted

/-!
# Reading numbers from text

Number literals are read from bytes with these rules:

* a float is an optional sign, then `inf`, `infinity` or `nan` in any case (no sign for `nan`),
  or decimal digits with an optional point and an `e` exponent, or `0x` hexadecimal digits with
  an optional point and a mandatory `p` exponent (a power of two);
* underscores may stand only between digits, or between a base prefix and a digit;
* the value is the nearest binary64 number, a tie going to the even mantissa; a value past the
  largest finite number is out of range, and one below the least subnormal reads as zero;
* an integer is an optional sign and digits in a base from 2 to 36, or, with base 0, in the base
  its prefix names (`0b`, `0o`, `0x`, or a leading `0` for octal, else decimal); it must fit the
  given count of bits.
-/

namespace TraceSynth.Reading

/-- Why a number text was refused. -/
inductive Refusal where
  /-- The text is no number literal. -/
  | malformed
  /-- The number does not fit. -/
  | range
  deriving DecidableEq, Inhabited, Repr

/-- The message of a text `s` refused by the reader named `reader`, such as
`strconv.ParseInt: parsing "x": invalid syntax`. -/
def Refusal.message (r : Refusal) (reader : String) (s : String) : String :=
  "strconv." ++ reader ++ ": parsing " ++ Quoted.quote (Bytes.ofString s) ++ ": " ++
    (match r with
     | .malformed => "invalid syntax"
     | .range => "value out of range")

/-- The lower-case letter of an ASCII byte. -/
def lower (c : UInt8) : UInt8 := if 0x41 ≤ c && c ≤ 0x5A then c + 0x20 else c

/-- Whether a byte is an ASCII decimal digit. -/
def isDigit (c : UInt8) : Bool := 0x30 ≤ c && c ≤ 0x39

/-- The value of a hexadecimal digit. -/
def hexValue (c : UInt8) : Option Nat :=
  if isDigit c then some (c.toNat - 0x30)
  else if 0x61 ≤ lower c && lower c ≤ 0x66 then some ((lower c).toNat - 0x61 + 10)
  else none

/-- Where a character of a number stands, for placing underscores. -/
inductive Seen where
  | start | digit | underscore | other
  deriving DecidableEq

/-- Whether the underscores of a number text stand only between digits, or between a base prefix
and a digit, and the text does not end with one. -/
def underscoresOk (s : List UInt8) : Bool :=
  let s := match s with
    | c :: rest => if c == 0x2B || c == 0x2D then rest else s
    | [] => []
  let (first, hex, body) : Seen × Bool × List UInt8 :=
    match s with
    | z :: b :: rest =>
      if z == 0x30 && (lower b == 0x62 || lower b == 0x6F || lower b == 0x78) then
        (.digit, lower b == 0x78, rest)
      else (.start, false, s)
    | _ => (.start, false, s)
  let step : Option Seen → UInt8 → Option Seen := fun st c =>
    match st with
    | none => none
    | some saw =>
      if isDigit c || (hex && (hexValue c).isSome) then some .digit
      else if c == 0x5F then (if saw == .digit then some .underscore else none)
      else if saw == .underscore then none
      else some .other
  match body.foldl step (some first) with
  | some saw => saw != .underscore
  | none => false

/-- How many leading bytes of `s` match `word` ignoring ASCII case. -/
def commonPrefixIgnoringCase : List UInt8 → List Char → Nat
  | c :: cs, w :: ws => if lower c == w.toNat.toUInt8 then 1 + commonPrefixIgnoringCase cs ws else 0
  | _, _ => 0

/-- The infinities and not-a-number: the value and how many bytes it takes. -/
def special (s : List UInt8) : Option (Float × Nat) :=
  let infinity (neg : Bool) (rest : List UInt8) (taken : Nat) : Option (Float × Nat) :=
    let n := commonPrefixIgnoringCase rest "infinity".toList
    let n := if 3 < n && n < 8 then 3 else n
    if n == 3 || n == 8 then some (Binary64.infinity neg, taken + n) else none
  match s with
  | c :: rest =>
    if c == 0x2B || c == 0x2D then infinity (c == 0x2D) rest 1
    else if lower c == 0x69 then infinity false s 0
    else if lower c == 0x6E then
      (if commonPrefixIgnoringCase s "nan".toList == 3 then some (0.0 / 0.0, 3) else none)
    else none
  | [] => none

/-- A float literal taken apart: sign, exact digits value, the power of the base the point
stands at, the base of the exponent (10 or 2), how many bytes it took, and whether it held an
underscore. -/
structure Literal where
  /-- A minus sign. -/
  neg : Bool
  /-- The digits, read as one integer. -/
  mantissa : Nat
  /-- The value is `mantissa · radix^exponent`. -/
  exponent : Int
  /-- 10 for decimal literals, 2 for hexadecimal ones. -/
  radix : Nat
  /-- The bytes the literal takes. -/
  length : Nat

/-- The digits and point of a literal's mantissa: the integer of the digits, how many digits
followed the point, whether any digit was read, and what follows. -/
def mantissaDigits (hex : Bool) : List UInt8 → Nat → Int → Bool → Bool → Bool →
    (Nat × Int × Bool × Bool × List UInt8)
  | [], m, frac, _, any, us => (m, frac, any, us, [])
  | c :: rest, m, frac, dot, any, us =>
    if c == 0x5F then mantissaDigits hex rest m frac dot any true
    else if c == 0x2E then
      (if dot then (m, frac, any, us, c :: rest) else mantissaDigits hex rest m frac true any us)
    else
      let dv := if isDigit c then some (c.toNat - 0x30) else if hex then hexValue c else none
      match dv with
      | some d =>
        mantissaDigits hex rest (m * (if hex then 16 else 10) + d) (if dot then frac + 1 else frac)
          dot true us
      | none => (m, frac, any, us, c :: rest)

/-- The digits of an exponent, underscores allowed between them; the value is capped. -/
def exponentDigits : List UInt8 → Nat → Bool → (Nat × Bool × List UInt8)
  | [], e, us => (e, us, [])
  | c :: rest, e, us =>
    if c == 0x5F then exponentDigits rest e true
    else if isDigit c then
      exponentDigits rest (if e < 10000 then e * 10 + (c.toNat - 0x30) else e) us
    else (e, us, c :: rest)

/-- The longest float literal at the start of `s`, if it begins with one. -/
def literal (s : List UInt8) : Option Literal :=
  let (neg, afterSign) := match s with
    | c :: rest => if c == 0x2B then (false, rest) else if c == 0x2D then (true, rest)
      else (false, s)
    | [] => (false, s)
  let (hex, body) := match afterSign with
    | z :: x :: rest@(_ :: _) =>
      if z == 0x30 && lower x == 0x78 then (true, rest) else (false, afterSign)
    | _ => (false, afterSign)
  let (m, frac, any, us, rest) := mantissaDigits hex body 0 0 false false false
  if !any then none
  else
    let pointShift : Int := if hex then -4 * frac else -frac
    let expChar : UInt8 := if hex then 0x70 else 0x65
    let finish (e : Int) (us : Bool) (rest : List UInt8) : Option Literal :=
      let length := s.length - rest.length
      if us && !underscoresOk (s.take length) then none
      else some ⟨neg, m, pointShift + e, if hex then 2 else 10, length⟩
    match rest with
    | c :: afterE =>
      if lower c == expChar then
        let (esign, digits) : Int × List UInt8 := match afterE with
          | d :: more =>
            if d == 0x2B then (1, more) else if d == 0x2D then (-1, more) else (1, afterE)
          | [] => (1, afterE)
        match digits with
        | d :: _ =>
          if isDigit d then
            let (e, us2, rest2) := exponentDigits digits 0 false
            finish (esign * e) (us || us2) rest2
          else none
        | [] => none
      else if hex then none
      else finish 0 us rest
    | [] => if hex then none else finish 0 us rest

/-- The binary64 number a whole text denotes. -/
def float (s : List UInt8) : Except Refusal Float :=
  match special s with
  | some (x, n) => if n == s.length then .ok x else .error .malformed
  | none =>
    match literal s with
    | none => .error .malformed
    | some lit =>
      if lit.length != s.length then .error .malformed
      else
        let (num, den) : Nat × Nat :=
          if 0 ≤ lit.exponent then (lit.mantissa * lit.radix ^ lit.exponent.toNat, 1)
          else (lit.mantissa, lit.radix ^ (-lit.exponent).toNat)
        let (x, overflow) := Binary64.round lit.neg num den
        if overflow then .error .range else .ok x

/-- The digits of an unsigned integer in a base, and whether an underscore was skipped (only when
`base0` allows them). The value must be below `2^bits`. Digits are checked in order, so an
overflow is found before a later bad byte. -/
def unsignedDigits (s : List UInt8) (base : Nat) (base0 : Bool) (bits : Nat) :
    Except Refusal (Nat × Bool) :=
  let maxVal := 2 ^ bits - 1
  let rec go : List UInt8 → Nat → Bool → Except Refusal (Nat × Bool)
    | [], n, us => .ok (n, us)
    | c :: rest, n, us =>
      if c == 0x5F && base0 then go rest n true
      else
        let d : Option Nat :=
          if isDigit c then some (c.toNat - 0x30)
          else if 0x61 ≤ lower c && lower c ≤ 0x7A then some ((lower c).toNat - 0x61 + 10)
          else none
        match d with
        | none => .error .malformed
        | some d =>
          if d ≥ base then .error .malformed
          else if n * base + d > maxVal then .error .range
          else go rest (n * base + d) us
  go s 0 false

/-- An unsigned integer in a base from 2 to 36, or with base 0 in the base its prefix names. -/
def unsigned (s : List UInt8) (base : Nat) (bits : Nat) : Except Refusal Nat :=
  if s.isEmpty then .error .malformed
  else if base == 0 then
    let (b, body) : Nat × List UInt8 := match s with
      | z :: x :: rest@(_ :: _) =>
        if z == 0x30 then
          (if lower x == 0x62 then (2, rest) else if lower x == 0x6F then (8, rest)
            else if lower x == 0x78 then (16, rest) else (8, x :: rest))
        else (10, s)
      | z :: rest => if z == 0x30 then (8, rest) else (10, s)
      | [] => (10, s)
    -- underscores are checked against the whole text, prefix included
    match unsignedDigits body b true bits with
    | .error e => .error e
    | .ok (n, us) => if us && !underscoresOk s then .error .malformed else .ok n
  else (unsignedDigits s base false bits).map Prod.fst

/-- A signed integer of `bits` bits in a base (0 for the prefix's base). -/
def signed (s : List UInt8) (base : Nat) (bits : Nat) : Except Refusal Int :=
  if s.isEmpty then .error .malformed
  else
    let (neg, body) := match s with
      | c :: rest =>
        if c == 0x2B then (false, rest) else if c == 0x2D then (true, rest) else (false, s)
      | [] => (false, s)
    let cutoff := 2 ^ (bits - 1)
    match unsigned body base 64 with
    | .error .malformed => .error .malformed
    | .error .range => .error .range
    | .ok n =>
      if !neg && n ≥ cutoff then .error .range
      else if neg && n > cutoff then .error .range
      else .ok (if neg then -(n : Int) else n)

/-- A decimal integer with an optional sign that fits 64 bits. -/
def decimalInteger (s : List UInt8) : Except Refusal Int := signed s 10 64

end TraceSynth.Reading
