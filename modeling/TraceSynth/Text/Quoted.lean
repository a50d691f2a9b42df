import TraceSynth.Text.Bytes
import TraceSynth.Text.Printable

/-!
# Double-quoted string literals

`quote` writes a byte string between double quotes. Printable characters stay as they are;
the quote and the backslash get a backslash; the seven control characters with a letter escape
use it (`\a \b \f \n \r \t \v`); other characters below the space and DEL become `\xHH`, other
characters below U+10000 `\uHHHH`, the rest `\UHHHHHHHH`; a stray byte becomes `\xHH`.

`unquote` reads a double-quoted, back-quoted or single-quoted literal back into bytes. Escapes
`\xHH` and three-digit octal escapes give one byte each; `\u` and `\U` give the UTF-8 bytes of
a code point; a back-quoted literal holds its bytes as they are, carriage returns dropped.
-/

namespace TraceSynth.Quoted

/-- The `width` lower-case hexadecimal digits of `n`. -/
def hexDigits (n width : Nat) : List Char :=
  (List.range width).reverse.map fun i => Bytes.hexDigit (n / 16 ^ i % 16)

/-- The escape of a code point that cannot be written as it is. -/
def escapeCode (c : Nat) : List Char :=
  if c == 7 then ['\\', 'a'] else if c == 8 then ['\\', 'b'] else if c == 12 then ['\\', 'f']
  else if c == 10 then ['\\', 'n'] else if c == 13 then ['\\', 'r'] else if c == 9 then ['\\', 't']
  else if c == 11 then ['\\', 'v']
  else if c < 0x20 || c == 0x7F then '\\' :: 'x' :: hexDigits c 2
  else if c < 0x10000 then '\\' :: 'u' :: hexDigits c 4
  else '\\' :: 'U' :: hexDigits c 8

/-- The written form of one unit inside double quotes. -/
def writePiece : Piece → List Char
  | .stray b => '\\' :: 'x' :: hexDigits b.toNat 2
  | .char c =>
    if c == '"' || c == '\\' then ['\\', c]
    else if Unicode.isPrintable c.toNat then [c]
    else escapeCode c.toNat

/-- A byte string as a double-quoted literal. -/
def quote (s : Bytes) : String :=
  String.ofList ('"' :: (s.pieces.flatMap writePiece ++ ['"']))

/-- The value of a hexadecimal digit byte. -/
def hexValue (c : UInt8) : Option Nat :=
  if 0x30 ≤ c && c ≤ 0x39 then some (c.toNat - 0x30)
  else if 0x61 ≤ c && c ≤ 0x66 then some (c.toNat - 0x61 + 10)
  else if 0x41 ≤ c && c ≤ 0x46 then some (c.toNat - 0x41 + 10)
  else none

/-- The value of `n` hexadecimal digits at the start of a byte list. -/
def hexRun : Nat → List UInt8 → Nat → Option Nat
  | 0, _, acc => some acc
  | n + 1, c :: rest, acc => (hexValue c).bind fun d => hexRun n rest (acc * 16 + d)
  | _ + 1, [], _ => none

/-- What the unit of a quoted literal that starts with byte `c` before `rest` reads as: the bytes
it stands for, and how many bytes of `rest` it takes besides `c`. -/
def unquoteUnit (quote : UInt8) (c : UInt8) (rest : List UInt8) : Option (List UInt8 × Nat) :=
  if c == quote && (quote == 0x27 || quote == 0x22) then none
  else if c ≥ 0x80 then
    match Utf8.decodeFirst c rest with
    | some (ch, n) => some (Utf8.encode ch.toNat, n)
    | none => some (Utf8.encode 0xFFFD, 0)
  else if c != 0x5C then some ([c], 0)
  else
    match rest with
    | [] => none
    | e :: more =>
      let one (b : Nat) : Option (List UInt8 × Nat) := some ([b.toUInt8], 1)
      if e == 0x61 then one 7 else if e == 0x62 then one 8 else if e == 0x66 then one 12
      else if e == 0x6E then one 10 else if e == 0x72 then one 13 else if e == 0x74 then one 9
      else if e == 0x76 then one 11 else if e == 0x5C then one 0x5C
      else if e == 0x78 then (hexRun 2 more 0).map fun v => ([v.toUInt8], 3)
      else if e == 0x75 || e == 0x55 then
        let n := if e == 0x75 then 4 else 8
        (hexRun n more 0).bind fun v =>
          if v > 0x10FFFF || (0xD800 ≤ v && v ≤ 0xDFFF) then none else some (Utf8.encode v, n + 1)
      else if 0x30 ≤ e && e ≤ 0x37 then
        match more with
        | d1 :: d2 :: _ =>
          if 0x30 ≤ d1 && d1 ≤ 0x37 && 0x30 ≤ d2 && d2 ≤ 0x37 then
            let v := (e.toNat - 0x30) * 64 + (d1.toNat - 0x30) * 8 + (d2.toNat - 0x30)
            if v > 255 then none else some ([v.toUInt8], 3)
          else none
        | _ => none
      else if e == 0x27 || e == 0x22 then (if e == quote then one e.toNat else none)
      else none

/-- The bytes of a quoted literal's body up to its closing quote, and what follows that quote.
A line feed in the body is refused; a single-quoted body holds one unit. -/
def unquoteBody (quote : UInt8) (single : Bool) (l : List UInt8) :
    Option (List UInt8 × List UInt8) :=
  match l with
  | [] => none
  | c :: rest =>
    if c == quote then some ([], rest)
    else if c == 0x0A then none
    else
      match unquoteUnit quote c rest with
      | none => none
      | some (bytes, n) =>
        if single then
          match rest.drop n with
          | q :: after => if q == quote then some (bytes, after) else none
          | [] => none
        else
          (unquoteBody quote single (rest.drop n)).map fun (more, after) => (bytes ++ more, after)
termination_by l.length
decreasing_by
  all_goals
    simp only [List.length_drop, List.length_cons]
    omega

/-- The bytes a whole quoted literal stands for: double-quoted, single-quoted (one character) or
back-quoted (raw, carriage returns dropped). -/
def unquote (s : Bytes) : Option Bytes :=
  match s.toList with
  | q :: body =>
    if q == 0x60 then
      match body.reverse with
      | 0x60 :: inner =>
        let inner := inner.reverse
        if inner.contains 0x60 then none else some ⟨inner.filter (· != 0x0D)⟩
      | _ => none
    else if q == 0x22 || q == 0x27 then
      match unquoteBody q (q == 0x27) body with
      | some (bytes, []) => some ⟨bytes⟩
      | _ => none
    else none
  | [] => none

end TraceSynth.Quoted
