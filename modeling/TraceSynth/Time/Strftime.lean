import TraceSynth.Time.Clock
import TraceSynth.Text.Bytes

/-!
# Formatting readings with `%` directives

A format is copied as it is except for directives, a `%` followed by flags and a width in any
order, then a conversion character:

* flags: `-` no padding, `_` pad with spaces, `0` pad with zeros, `^` upper case, `#` swap
  case; a width after `-` pads with spaces, and a width is at most 1024;
* numbers: `Y` year, `C` century, `y` year in the century, `G`/`g` ISO week-based year, `m`
  month, `d`/`e` day, `j` day of the year, `H`/`k` hour, `I`/`l` hour on a twelve-hour
  clock, `M` minute, `S` second, `s` seconds since the epoch, `f` microseconds, `u`/`w`
  weekday (Monday or Sunday first), `U`/`W` week of the year (weeks starting on Sunday or
  Monday), `V` ISO week;
* names: `A`/`a` weekday, `B`/`b`/`h` month, `p`/`P` AM or PM, `Z` zone name;
* `z` zone offset `+hhmm`; `:z` adds a colon, `::z` seconds, and `:::z` only the fields that
  are not zero after the hours;
* composites: `c`, `D`, `x`, `F`, `T`, `X`, `R`, `r`, `v`, `+`, whose parts take the case flags
  but no width or padding;
* `n` newline, `t` tab, `%` percent.

Numbers are padded with zeros to their usual width or the given one, `e`, `k`, `l` and `s` with
spaces; names, `n`, `t` and `%` are padded with spaces. A zone offset is padded as a whole, its
sign staying in front of zeros. A zone without a name shows its offset.

Numbers are written digit by digit from a table when they are unpadded or padded to two or
four places, which reads a negative number below ten as a single digit: its low eight bits
with the digit code `0x30` or-ed in. The result is therefore a byte string that need not be
UTF-8; `formatText` reads such bytes as U+FFFD.

A directive with an unknown conversion, or one cut off by the end of the format, is copied as
it was written, padded to the given width (for an unknown conversion, one less than the width,
before the conversion character).
-/

namespace TraceSynth

namespace Strftime

/-- How a directive pads. -/
inductive Padding where
  /-- No flag: the conversion's own default. -/
  | usual
  /-- The `-` flag: no padding. -/
  | none
  /-- The `_` flag, or a width after `-`. -/
  | spaces
  /-- The `0` flag. -/
  | zeros
  deriving DecidableEq, Inhabited

/-- The character a number is padded with. -/
def Padding.numberFill : Padding → Char
  | .usual | .zeros => '0'
  | .spaces => ' '
  | .none => '\x00'

/-- A number's padding when its default fill is a space. -/
def Padding.spaced : Padding → Padding
  | .usual => .spaces
  | p => p

/-- The flags and width of a directive. -/
structure Spec where
  padding : Padding := .usual
  width : Nat := 0
  upper : Bool := false
  swap : Bool := false
  deriving Inhabited

/-- The full and short names of weekdays, from Sunday. -/
def weekdayNames : List String :=
  ["Sunday", "Monday", "Tuesday", "Wednesday", "Thursday", "Friday", "Saturday"]

/-- The full names of months, from January. -/
def monthNames : List String :=
  ["January", "February", "March", "April", "May", "June", "July", "August", "September",
    "October", "November", "December"]

/-- The first three letters of a name. -/
def short (s : String) : String := String.ofList (s.toList.take 3)

/-- The byte a digit table gives for a number below ten: the digit code `0x30` or-ed into the
number's low eight bits. It is the digit itself for `0` to `9`; a negative number gives some
byte that is rarely a digit. -/
def digitByte (n : Int) : UInt8 := UInt8.ofNat (n % 256).toNat ||| 0x30

/-- A number padded to a width. Padded to two or four places, or not padded at all, a negative
number is written from the digit table as one `digitByte` after the fill; otherwise the decimal
text is padded on the left to the width. -/
def number (n : Int) (width : Nat) (padding : Padding) : Bytes :=
  let fill := UInt8.ofNat padding.numberFill.toNat
  if n < 0 && (padding == .none || width == 2 || width == 4) then
    ⟨List.replicate (if padding == .none then 0 else width - 1) fill ++ [digitByte n]⟩
  else
    let digits := (Bytes.ofString (toString n)).toList
    if padding == .none then ⟨digits⟩
    else ⟨List.replicate (width - digits.length) fill ++ digits⟩

/-- A text padded with spaces (or zeros when asked) to a width, in the asked case: swapping
lowers a text that ends in a capital and raises any other. -/
def text (s : String) (width : Nat) (padding : Padding) (upper swap : Bool) : String :=
  let pad :=
    if width > s.length && padding != .none then
      String.ofList (List.replicate (width - s.length) (if padding == .zeros then '0' else ' '))
    else ""
  let cased :=
    let endsCapital := match s.toList.getLast? with
      | some c => decide (c.toNat < 'a'.toNat)
      | none => false
    if swap && endsCapital then s.toLower
    else if swap || upper then s.toUpper
    else s
  pad ++ cased

/-- A directive copied as it was written, padded to a width. -/
def literal (written : List Char) (width : Nat) (padding : Padding) : Bytes :=
  Bytes.ofString (text (String.ofList written) width padding false false)

/-- The ISO week-based year and week of a reading. -/
def isoWeek (t : Clock) : Int × Nat :=
  let w := t.weekday
  let d : Int := if w == 0 then -3 else 4 - (w : Int)
  let thursday := t.days + d
  let (y, _, _) := Clock.civilFromDays thursday
  let yday := (thursday - Clock.daysFromCivil y 1 1).toNat
  (y, yday / 7 + 1)

/-- The hour on a twelve-hour clock. -/
def twelve (h : Nat) : Nat := if h > 12 then h - 12 else if h == 0 then 12 else h

/-- The zone offset with `colons` colons, before padding: the hours padded to two places as a
number is (a space going before the sign), then the minutes, then the seconds as the colons
ask. -/
def offsetText (t : Clock) (colons : Nat) (padding : Padding) : List Char :=
  let sign := if t.offset < 0 then '-' else '+'
  let a := t.offset.natAbs
  let hours := (number (a / 3600 : Nat) 2 padding).chars
  let head := match hours with
    | ' ' :: rest => ' ' :: sign :: rest
    | _ => sign :: hours
  let rem := a % 3600
  let minutes :=
    if colons ≤ 2 || rem != 0 then
      (if colons != 0 then [':'] else []) ++ (Clock.pad 2 (rem / 60)).toList ++
        (if colons == 2 || (colons == 3 && rem % 60 != 0) then
          ':' :: (Clock.pad 2 (rem % 60)).toList
        else [])
    else []
  head ++ minutes

/-- The zone offset padded as a whole to the width; padded with zeros, its sign stays first. -/
def zoneOffset (t : Clock) (colons : Nat) (sp : Spec) : String :=
  let body := offsetText t colons sp.padding
  if sp.padding == .none || sp.width ≤ body.length then String.ofList body
  else
    let fill := sp.padding.numberFill
    let pad := List.replicate (sp.width - body.length) fill
    match body with
    | sign :: rest => if fill == '0' then String.ofList (sign :: pad ++ rest)
      else String.ofList (pad ++ body)
    | [] => String.ofList pad

/-- A name padded and cased as a directive asks. -/
def named (sp : Spec) (s : String) : Bytes :=
  Bytes.ofString (text s sp.width sp.padding sp.upper sp.swap)

/-- The parts of a composite directive: conversion letters and the characters between them. -/
def composite? : Char → Option (List Char)
  | 'c' => some "a b e H:M:S Y".toList
  | '+' => some "a b e H:M:S Z Y".toList
  | 'F' => some "Y-m-d".toList
  | 'D' | 'x' => some "m/d/y".toList
  | 'v' => some "e-b-Y".toList
  | 'T' | 'X' => some "H:M:S".toList
  | 'r' => some "I:M:S p".toList
  | 'R' => some "H:M".toList
  | _ => none

/-- The bytes of a conversion, or none for an unknown one. -/
def convert (t : Clock) (sp : Spec) : Char → Option Bytes
  | 'Y' => some (number t.year (if sp.width == 0 then 4 else sp.width) sp.padding)
  | 'y' => some (number (t.year.tmod 100) (max sp.width 2) sp.padding)
  | 'C' => some (number (t.year.tdiv 100) (max sp.width 2) sp.padding)
  | 'g' => some (number ((isoWeek t).1.tmod 100) (max sp.width 2) sp.padding)
  | 'G' => some (number (isoWeek t).1 (if sp.width == 0 then 4 else sp.width) sp.padding)
  | 'm' => some (number t.month (max sp.width 2) sp.padding)
  | 'B' => some (named sp (monthNames.getD (t.month - 1) ""))
  | 'b' | 'h' => some (named sp (short (monthNames.getD (t.month - 1) "")))
  | 'A' => some (named sp (weekdayNames.getD t.weekday ""))
  | 'a' => some (named sp (short (weekdayNames.getD t.weekday "")))
  | 'w' => some (number t.weekday sp.width sp.padding)
  | 'u' => some (number (if t.weekday == 0 then 7 else t.weekday) sp.width sp.padding)
  | 'V' => some (number (isoWeek t).2 (max sp.width 2) sp.padding)
  | 'U' => some (number ((t.yearDay + 6 - t.weekday) / 7) (max sp.width 2) sp.padding)
  | 'W' =>
    let wk := if t.weekday > 0 then t.yearDay + 7 - t.weekday else t.yearDay
    some (number (wk / 7) (max sp.width 2) sp.padding)
  | 'e' => some (number t.day (max sp.width 2) sp.padding.spaced)
  | 'd' => some (number t.day (max sp.width 2) sp.padding)
  | 'j' => some (number t.yearDay (max sp.width 3) sp.padding)
  | 'k' => some (number t.hour (max sp.width 2) sp.padding.spaced)
  | 'H' => some (number t.hour (max sp.width 2) sp.padding)
  | 'l' => some (number (twelve t.hour) (max sp.width 2) sp.padding.spaced)
  | 'I' => some (number (twelve t.hour) (max sp.width 2) sp.padding)
  | 'p' => some (named sp (if t.hour < 12 then "AM" else "PM"))
  | 'P' => some (named sp (if t.hour < 12 then "am" else "pm"))
  | 'M' => some (number t.minute (max sp.width 2) sp.padding)
  | 'S' => some (number t.second (max sp.width 2) sp.padding)
  | 's' => some (number t.unixSeconds sp.width sp.padding.spaced)
  | 'f' => some (number (t.nanos / 1000) (if sp.width == 0 then 6 else sp.width) sp.padding)
  | 'Z' =>
    if t.zone.isEmpty then some (Bytes.ofString (zoneOffset t 0 sp))
    else some (named sp t.zone)
  | 'z' => some (Bytes.ofString (zoneOffset t 0 sp))
  | 't' => some (Bytes.ofString (text "\t" sp.width sp.padding false false))
  | 'n' => some (Bytes.ofString (text "\n" sp.width sp.padding false false))
  | '%' => some (Bytes.ofString (text "%" sp.width sp.padding false false))
  | _ => none

/-- The bytes of a composite's parts: each letter converted with no width or padding and the
case of the directive, the other characters copied. -/
def compositeText (t : Clock) (upper : Bool) (parts : List Char) : Bytes :=
  parts.foldl (fun acc c => acc ++ (convert t { upper } c).getD (Bytes.ofString c.toString))
    Bytes.empty

/-- Read one directive from its character `b` after the `%` and what was read of it, `seen`
(from its `%`): the bytes it gives and the rest of the format. -/
def directive (t : Clock) : Nat → List Char → Spec → Char → List Char → Bytes × List Char
  | 0, seen, sp, b, rest => (literal (seen ++ [b]) sp.width sp.padding, rest)
  | fuel + 1, seen, sp, b, rest =>
    let seen' := seen ++ [b]
    -- a flag: the directive goes on, or ends with the format as it was before the flag
    let flag (sp' : Spec) : Bytes × List Char :=
      match rest with
      | [] => (literal seen' sp.width sp.padding, [])
      | c :: more => directive t fuel seen' sp' c more
    if b == '-' then flag { sp with padding := .none }
    else if b == '_' then flag { sp with padding := .spaces }
    else if b == '^' then flag { sp with upper := true }
    else if b == '#' then flag { sp with swap := true }
    else if b == '0' then flag { sp with padding := .zeros }
    else if '1' ≤ b && b ≤ '9' then
      let ds := b :: rest.takeWhile Char.isDigit
      let after := rest.drop (ds.length - 1)
      let width := min 1024 (ds.foldl (fun a d => a * 10 + (d.toNat - '0'.toNat)) 0)
      let sp := { sp with width, padding := if sp.padding == .none then .spaces else sp.padding }
      match after with
      | [] => (literal (seen ++ ds) sp.width sp.padding, [])
      | c :: more => directive t fuel (seen ++ ds) sp c more
    else if b == ':' then
      let more := rest.takeWhile (· == ':')
      let colons := 1 + more.length
      match rest.drop more.length with
      | 'z' :: after =>
        if colons > 3 then (literal (seen' ++ more ++ ['z']) sp.width sp.padding, after)
        else (Bytes.ofString (zoneOffset t colons sp), after)
      | after => (literal (seen' ++ more) sp.width sp.padding, after)
    else
      match composite? b with
      | some parts => (compositeText t sp.upper parts, rest)
      | none =>
        match convert t sp b with
        | some s => (s, rest)
        | none => (literal seen (sp.width - 1) sp.padding ++ Bytes.ofString b.toString, rest)

/-- Format from a point of the format on. -/
def formatChars (t : Clock) : Nat → List Char → Bytes
  | 0, _ => Bytes.empty
  | _ + 1, [] => Bytes.empty
  | fuel + 1, '%' :: rest =>
    match rest with
    | [] => Bytes.ofString "%"
    | b :: more =>
      let (s, after) := directive t (more.length + 1) ['%'] {} b more
      s ++ formatChars t fuel after
  | fuel + 1, c :: rest => Bytes.ofString c.toString ++ formatChars t fuel rest

/-- Format a reading, as bytes. -/
def format (t : Clock) (f : String) : Bytes :=
  formatChars t (f.length + 1) f.toList

/-- Format a reading as text, a byte that is not UTF-8 read as U+FFFD. -/
def formatText (t : Clock) (f : String) : String := (format t f).toStringLossy

end Strftime

end TraceSynth
