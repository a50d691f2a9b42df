import TraceSynth.Toml.Document
import TraceSynth.Decimal.Read
import TraceSynth.Time.Clock

/-!
# Decoding TOML numbers, dates and times

The written characters of a number, date or time are decoded here, by these rules:

* an integer is decimal with an optional sign and no leading zero, or `0x`, `0o`, `0b`
  digits; underscores may stand only between digits, one at a time; it must fit 64 signed bits;
* a float has digits on both sides of its one point, no underscore next to its point or
  exponent letter, and no leading zero; `inf` and `nan` may carry a sign;
* a date is `YYYY-MM-DD` and must exist; a time is `HH:MM:SS` with an optional fraction, of which
  nine digits are kept; a second may be `60`; a date and time are joined by `T` or a space, and
  a zone is `Z` or an offset `±HH:MM` below a day.

A date and time with a zone is a reading of the clock, normalized as a calendar carries its
fields; the local forms keep their own text, written canonically.
-/

namespace TraceSynth.Toml

/-- A decoded number, date or time. -/
inductive Scalar where
  | integer (n : Int)
  | float (x : Float)
  /-- A date and time in a zone. -/
  | dateTime (c : Clock)
  /-- A date without a zone, with its text `1979-05-27`. -/
  | localDate (text : String)
  /-- A time of day without a zone, with its text `07:32:00.5`. -/
  | localTime (text : String)
  /-- A date and time without a zone, with its text `1979-05-27T07:32:00`. -/
  | localDateTime (text : String)

/-- The bytes of characters that are all ASCII. -/
def asciiBytes (cs : List Char) : List UInt8 := cs.map fun c => c.toNat.toUInt8

/-- Whether two underscores stand next to each other. -/
def hasDoubleUnderscore : List Char → Bool
  | '_' :: '_' :: _ => true
  | _ :: rest => hasDoubleUnderscore rest
  | [] => false

/-- The digits of an integer without its underscores, which may stand only between digits, one
at a time. -/
def integerDigits (cs : List Char) : Except String (List Char) :=
  let body := match cs with
    | '+' :: rest | '-' :: rest => rest
    | _ => cs
  if body.isEmpty then .ok cs
  else if body.head? == some '_' then .error "number cannot start with underscore"
  else if cs.getLast? == some '_' then .error "number cannot end with underscore"
  else if !cs.contains '_' then .ok cs
  else if hasDoubleUnderscore cs then
    .error "number must have at least one digit between underscores"
  else .ok (cs.filter (· != '_'))

/-- Read integer digits in a base, named in the message when they do not fit. -/
def basedInteger (base : Nat) (name : String) (cs : List Char) : Except String Int := do
  let ds ← integerDigits cs
  match Reading.signed (asciiBytes ds) base 64 with
  | .ok n => pure n
  | .error r =>
    throw ("couldn't parse " ++ name ++ " number: " ++ r.message "ParseInt" (String.ofList ds))

/-- Decode an integer. -/
def decodeInteger (written : String) : Except String Int :=
  let cs := written.toList
  match cs with
  | '0' :: 'x' :: rest@(_ :: _) => basedInteger 16 "hexadecimal" rest
  | '0' :: 'o' :: rest@(_ :: _) => basedInteger 8 "octal" rest
  | '0' :: 'b' :: rest@(_ :: _) => basedInteger 2 "binary" rest
  | _ => do
    let ds ← integerDigits cs
    let start := if ds.head? == some '+' || ds.head? == some '-' then 1 else 0
    if ds.length > start + 1 && ds.getD start ' ' == '0' then
      throw "leading zero not allowed on decimal number"
    basedInteger 10 "decimal" ds

/-- Remove the underscores of a float, checking that each stands between digits and apart from
the point and the exponent letter. `prev` is the character before, underscores included. -/
def floatDigits (before : Bool) (prev : Option Char) (acc : List Char) :
    List Char → Except String (List Char)
  | [] => .ok acc.reverse
  | '_' :: rest =>
    if !before then .error "number must have at least one digit between underscores"
    else if rest.head? == some 'e' || rest.head? == some 'E' then
      .error "cannot have underscore before exponent"
    else floatDigits false (some '_') acc rest
  | c :: rest =>
    if c == '+' || c == '-' then floatDigits false (some c) (c :: acc) rest
    else if c == 'e' || c == 'E' then
      if rest.head? == some '_' then .error "cannot have underscore after exponent"
      else floatDigits before (some c) (c :: acc) rest
    else if c == '.' then
      if rest.head? == some '_' then .error "cannot have underscore after decimal point"
      else if prev == some '_' then .error "cannot have underscore before decimal point"
      else floatDigits before (some c) (c :: acc) rest
    else floatDigits true (some c) (c :: acc) rest

/-- Check the points of a float: at most one, with a digit on each side. -/
def checkPoints (seen : Bool) (prev : Option Char) : List Char → Except String Unit
  | [] => .ok ()
  | '.' :: rest =>
    if seen then .error "float can have at most one decimal point"
    else if !(prev.map Char.isDigit).getD false then
      .error "float decimal point must be preceded by a digit"
    else if !(rest.head?.map Char.isDigit).getD false then
      .error "float decimal point must be followed by a digit"
    else checkPoints true (some '.') rest
  | c :: rest => checkPoints seen (some c) rest

/-- Decode a float. -/
def decodeFloat (written : String) : Except String Float := do
  let cs := written.toList
  if cs == ['+', 'n', 'a', 'n'] || cs == ['-', 'n', 'a', 'n'] then return 0.0 / 0.0
  let cleaned ←
    if cs.head? == some '_' then throw "number cannot start with underscore"
    else if cs.getLast? == some '_' then throw "number cannot end with underscore"
    else if !cs.contains '_' then pure cs
    else floatDigits false none [] cs
  if cleaned.head? == some '.' then throw "float cannot start with a dot"
  if cleaned.getLast? == some '.' then throw "float cannot end with a dot"
  checkPoints false none cleaned
  let start := if cleaned.head? == some '+' || cleaned.head? == some '-' then 1 else 0
  if cleaned.getD start ' ' == '0' && cleaned.length > start + 1 &&
      (cleaned.getD (start + 1) ' ').isDigit then
    throw "float integer part cannot have leading zeroes"
  match Reading.float (asciiBytes cleaned) with
  | .ok x => pure x
  | .error r => throw ("unable to parse float: " ++ r.message "ParseFloat" (String.ofList cleaned))

/-- The number that decimal digits spell. -/
def digitsValue (cs : List Char) : Except String Nat :=
  cs.foldlM (fun acc c =>
    if c.isDigit then .ok (acc * 10 + (c.toNat - '0'.toNat)) else .error "expected digit (0-9)") 0

/-- Read a date `YYYY-MM-DD` that exists. -/
def readDate (cs : List Char) : Except String (Nat × Nat × Nat) := do
  if cs.length != 10 || cs.getD 4 ' ' != '-' || cs.getD 7 ' ' != '-' then
    throw "dates are expected to have the format YYYY-MM-DD"
  let y ← digitsValue (cs.take 4)
  let m ← digitsValue ((cs.drop 5).take 2)
  let d ← digitsValue ((cs.drop 8).take 2)
  if !(0 < m && m < 13 && 0 < d && d ≤ Clock.monthDays y m) then throw "impossible date"
  pure (y, m, d)

/-- A time of day as written: the fraction keeps at most nine digits. -/
structure TimeOfDay where
  hour : Nat
  minute : Nat
  second : Nat
  nanos : Nat
  /-- How many digits of the fraction were kept. -/
  precision : Nat

/-- The text of a time of day, `07:32:00.5`, with the fraction digits kept. -/
def TimeOfDay.text (t : TimeOfDay) : String :=
  Clock.pad 2 t.hour ++ ":" ++ Clock.pad 2 t.minute ++ ":" ++ Clock.pad 2 t.second ++
    (if t.precision > 0 then "." ++ String.ofList ((Clock.pad 9 t.nanos).toList.take t.precision)
     else "")

/-- Read a time of day `HH:MM:SS[.fraction]` at the front, and what follows it. -/
def readTime (cs : List Char) : Except String (TimeOfDay × List Char) := do
  if (cs.take 8).length < 8 then throw "times are expected to have the format HH:MM:SS[.NNNNNN]"
  let hour ← digitsValue (cs.take 2)
  if hour > 23 then throw "hour cannot be greater 23"
  if cs.getD 2 ' ' != ':' then throw "expecting colon between hours and minutes"
  let minute ← digitsValue ((cs.drop 3).take 2)
  if minute > 59 then throw "minutes cannot be greater 59"
  if cs.getD 5 ' ' != ':' then throw "expecting colon between minutes and seconds"
  let second ← digitsValue ((cs.drop 6).take 2)
  if second > 60 then throw "seconds cannot be greater 60"
  match cs.drop 8 with
  | '.' :: frac =>
    let ds := frac.takeWhile Char.isDigit
    if ds.isEmpty then
      throw (if frac.isEmpty then "nanoseconds need at least one digit"
        else "need at least one digit after fraction point")
    let kept := ds.take 9
    let n ← digitsValue kept
    pure ({ hour, minute, second, nanos := n * 10 ^ (9 - kept.length),
            precision := kept.length }, frac.drop ds.length)
  | rest => pure ({ hour, minute, second, nanos := 0, precision := 0 }, rest)

/-- Read a date and a time of day at the front, and what follows them. -/
def readDateTime (cs : List Char) : Except String ((Nat × Nat × Nat) × TimeOfDay × List Char) :=
  do
  if (cs.take 11).length < 11 then
    throw "local datetimes are expected to have the format YYYY-MM-DDTHH:MM:SS[.NNNNNNNNN]"
  let date ← readDate (cs.take 10)
  let sep := cs.getD 10 ' '
  if !(sep == 'T' || sep == ' ' || sep == 't') then
    throw "datetime separator is expected to be T or a space"
  let (t, rest) ← readTime (cs.drop 11)
  pure (date, t, rest)

/-- Read a zone offset `±HH:MM`, in seconds east of UTC. -/
def readOffset (cs : List Char) : Except String Int := do
  if cs.length != 6 then throw "invalid date-time timezone"
  let dir : Int ← match cs.head? with
    | some '-' => pure (-1)
    | some '+' => pure 1
    | _ => throw "invalid timezone offset character"
  if cs.getD 3 ' ' != ':' then throw "expected a : separator"
  let h ← digitsValue ((cs.drop 1).take 2)
  if h > 23 then throw "invalid timezone offset hours"
  let m ← digitsValue ((cs.drop 4).take 2)
  if m > 59 then throw "invalid timezone offset minutes"
  pure (dir * (h * 3600 + m * 60 : Nat))

/-- Decode a date and time with a zone; an offset of zero is UTC, another has no name. -/
def decodeDateTime (written : String) : Except String Clock := do
  let ((year, month, day), t, rest) ← readDateTime written.toList
  let (offset, rest) ← match rest with
    | 'Z' :: more | 'z' :: more => pure (0, more)
    | _ => pure (← readOffset rest, [])
  if !rest.isEmpty then throw "extra bytes at the end of the timezone"
  let c : Clock := { year, month, day, hour := t.hour, minute := t.minute, second := t.second,
                     nanos := t.nanos, offset, zone := if offset == 0 then "UTC" else "" }
  pure c.normalized

/-- Decode a number, date or time of a kind. -/
def Scalar.decode (kind : ScalarKind) (written : String) : Except String Scalar :=
  match kind with
  | .integer => (decodeInteger written).map .integer
  | .float => (decodeFloat written).map .float
  | .dateTime => (decodeDateTime written).map .dateTime
  | .localDate => do
    let _ ← readDate written.toList
    pure (.localDate written)
  | .localTime => do
    let (t, rest) ← readTime written.toList
    if !rest.isEmpty then throw "extra characters at the end of a local time"
    pure (.localTime t.text)
  | .localDateTime => do
    let ((y, m, d), t, rest) ← readDateTime written.toList
    if !rest.isEmpty then throw "extra characters at the end of a local date time"
    pure (.localDateTime
      (Clock.pad 4 y ++ "-" ++ Clock.pad 2 m ++ "-" ++ Clock.pad 2 d ++ "T" ++ t.text))

end TraceSynth.Toml
