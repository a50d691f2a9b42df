import TraceSynth.Decimal.Read
import TraceSynth.Decimal.Binary64
import TraceSynth.Text.Bytes
import TraceSynth.Time.Clock

/-!
# What a YAML scalar denotes

The core schema reads a plain scalar by its text: `null`, `~` and the empty text are null;
`true`/`false` in three spellings are booleans; decimal, `0x`, `0o`, `0b` and leading-zero octal
integers (underscores ignored) are integers; decimal floats and the `.inf`/`.nan` spellings are
floats; a `YYYY-M-D` date, with an optional time, is a timestamp; anything else is a string.
An explicit tag asks for one of these, and a text that reads as another is refused, except
that an integer in the signed 64-bit range is accepted as a float.
-/

namespace TraceSynth.Yaml

/-- What a scalar's text denotes. -/
inductive Resolved where
  | null
  | bool (b : Bool)
  /-- An integer in the range of a signed or an unsigned 64-bit word. -/
  | int (n : Int)
  | float (x : Float)
  | str
  /-- A timestamp, with the reading it denotes. -/
  | timestamp (c : Clock)
  /-- The merge key `<<`. -/
  | merge
  deriving Inhabited

namespace Resolved

/-- The short tag of a resolution. -/
def tag : Resolved → String
  | .null => "!!null"
  | .bool _ => "!!bool"
  | .int _ => "!!int"
  | .float _ => "!!float"
  | .str => "!!str"
  | .timestamp _ => "!!timestamp"
  | .merge => "!!merge"

end Resolved

/-- The prefix of the tags of the core schema. -/
def coreTagPrefix : String := "tag:yaml.org,2002:"

/-- A tag with the core schema's prefix written as `!!`. -/
def shortTag (tag : String) : String :=
  if tag.startsWith coreTagPrefix then "!!" ++ String.ofList (tag.toList.drop coreTagPrefix.length)
  else tag

/-- Texts whose meaning is fixed by their spelling. -/
def spelled (text : String) : Option Resolved :=
  let nan : Float := 0.0 / 0.0
  match text with
  | "true" | "True" | "TRUE" => some (.bool true)
  | "false" | "False" | "FALSE" => some (.bool false)
  | "" | "~" | "null" | "Null" | "NULL" => some .null
  | ".nan" | ".NaN" | ".NAN" => some (.float nan)
  | ".inf" | ".Inf" | ".INF" | "+.inf" | "+.Inf" | "+.INF" =>
    some (.float (Binary64.infinity false))
  | "-.inf" | "-.Inf" | "-.INF" => some (.float (Binary64.infinity true))
  | "<<" => some .merge
  | _ => none

/-- The class of a text's first character that decides how it is read: a sign, a digit, a
letter that starts a spelled word, a point, or none (always a string). -/
inductive Hint where
  | sign
  | digit
  | word
  | point
  deriving DecidableEq

/-- The hint of a first character. -/
def hintOf (c : Char) : Option Hint :=
  if c == '+' || c == '-' then some .sign
  else if c.isDigit then some .digit
  else if "yYnNtTfFoO~".toList.contains c then some .word
  else if c == '.' then some .point
  else none

/-- Digits after an optional sign and exponent mark: the exponent of a decimal float. -/
def isExponentText : List Char → Bool
  | '+' :: rest | '-' :: rest => !rest.isEmpty && rest.all Char.isDigit
  | rest => !rest.isEmpty && rest.all Char.isDigit

/-- The decimal float form `[-+]?(\.d+|d+(\.d*)?)([eE][-+]?d+)?`. -/
def isDecimalFloatText (cs : List Char) : Bool :=
  let body := match cs with
    | '+' :: rest | '-' :: rest => rest
    | _ => cs
  let whole := body.takeWhile Char.isDigit
  let rest := body.dropWhile Char.isDigit
  let afterMantissa : Option (List Char) :=
    if whole.isEmpty then
      match rest with
      | '.' :: frac =>
        if (frac.takeWhile Char.isDigit).isEmpty then none else some (frac.dropWhile Char.isDigit)
      | _ => none
    else
      match rest with
      | '.' :: frac => some (frac.dropWhile Char.isDigit)
      | _ => some rest
  match afterMantissa with
  | none => false
  | some [] => true
  | some (e :: exp) => (e == 'e' || e == 'E') && isExponentText exp

/-- The value of a decimal digit character. -/
def digitValue (c : Char) : Nat := c.toNat - '0'.toNat

/-- One or two digits, read greedily. -/
def shortNumber : List Char → Option (Nat × List Char)
  | a :: b :: rest =>
    if !a.isDigit then none
    else if b.isDigit then some (10 * digitValue a + digitValue b, rest)
    else some (digitValue a, b :: rest)
  | [a] => if a.isDigit then some (digitValue a, []) else none
  | [] => none

/-- Exactly two digits. -/
def twoDigits : List Char → Option Nat
  | [a, b] => if a.isDigit && b.isDigit then some (10 * digitValue a + digitValue b) else none
  | _ => none

/-- Whether a Gregorian year is a leap year. -/
def isLeapYear (y : Nat) : Bool := y % 4 == 0 && (y % 100 != 0 || y % 400 == 0)

/-- The number of days of a month. -/
def daysIn (month year : Nat) : Nat :=
  if month == 2 then (if isLeapYear year then 29 else 28)
  else if month == 4 || month == 6 || month == 9 || month == 11 then 30
  else 31

/-- A date `YYYY-M-D` (one or two digits for month and day, each in its range): the year,
month and day, and the text after it. -/
def readDate (cs : List Char) : Option ((Nat × Nat × Nat) × List Char) :=
  match cs with
  | y1 :: y2 :: y3 :: y4 :: '-' :: rest =>
    if !([y1, y2, y3, y4].all Char.isDigit) then none
    else
      let year := [y1, y2, y3, y4].foldl (fun n c => 10 * n + digitValue c) 0
      match shortNumber rest with
      | some (month, '-' :: rest) =>
        match shortNumber rest with
        | some (day, rest) =>
          if 1 ≤ month && month ≤ 12 && 1 ≤ day && day ≤ daysIn month year then
            some ((year, month, day), rest)
          else none
        | none => none
      | _ => none
  | _ => none

/-- The nanoseconds of the digits of a fraction of a second; digits past the ninth are
ignored. -/
def fractionNanos (ds : List Char) : Nat :=
  ((ds.take 9) ++ List.replicate (9 - min 9 ds.length) '0').foldl
    (fun n c => 10 * n + digitValue c) 0

/-- A time `H:M:S` with an optional fraction of a second after `.` or `,`: the hour, minute,
second and nanoseconds, and the text after it. -/
def readClock (cs : List Char) : Option ((Nat × Nat × Nat × Nat) × List Char) :=
  match shortNumber cs with
  | some (h, ':' :: rest) =>
    match shortNumber rest with
    | some (m, ':' :: rest) =>
      match shortNumber rest with
      | some (s, rest) =>
        if h < 24 && m < 60 && s < 60 then
          match rest with
          | p :: d :: more =>
            if (p == '.' || p == ',') && d.isDigit then
              let ds := (d :: more).takeWhile Char.isDigit
              some ((h, m, s, fractionNanos ds), (d :: more).drop ds.length)
            else some ((h, m, s, 0), rest)
          | _ => some ((h, m, s, 0), rest)
        else none
      | none => none
    | _ => none
  | _ => none

/-- A zone ending the text: `Z` for UTC, or `±hh:mm` (hours up to 24, minutes up to 60) for
its offset in seconds. -/
def readZone : List Char → Option (Option Int)
  | ['Z'] => some none
  | [sign, h1, h2, ':', m1, m2] =>
    if sign != '+' && sign != '-' then none
    else match twoDigits [h1, h2], twoDigits [m1, m2] with
      | some h, some m =>
        if h ≤ 24 && m ≤ 60 then
          let off : Int := ((h * 60 + m) * 60 : Nat)
          some (some (if sign == '-' then -off else off))
        else none
      | _, _ => none
  | _ => none

/-- The reading a timestamp text denotes: a date alone (midnight UTC), a date and time joined
by `T` or `t` with a zone, or a date and time joined by spaces without one (UTC). A zero
offset is UTC; another offset gives a zone known only by its offset. -/
def readTimestamp (cs : List Char) : Option Clock := do
  let ((year, month, day), rest) ← readDate cs
  let date : Clock := { year := year, month, day }
  match rest with
  | [] => some date
  | sep :: rest =>
    if sep == 'T' || sep == 't' then
      let ((hour, minute, second, nanos), zone) ← readClock rest
      let offset ← readZone zone
      let c := { date with hour, minute, second, nanos }
      match offset with
      | none => some c
      | some 0 => some c
      | some off => some { c with offset := off, zone := "" }
    else if sep == ' ' then
      let ((hour, minute, second, nanos), after) ← readClock (rest.dropWhile (· == ' '))
      if after.isEmpty then some { date with hour, minute, second, nanos } else none
    else none

/-- Whether a text is a timestamp. -/
def isTimestampText (cs : List Char) : Bool := (readTimestamp cs).isSome

/-- The integer of a binary or octal text whose digits carry a sign of their own: after
`0b` or `0o` the rest is read in that base with an optional sign (or, failing that, as an
unsigned word), and after `-0b` or `-0o` the rest is read negated. The schema admits these
after every other reading of the text has failed. -/
def prefixedInteger (plain : List Char) : Option Int :=
  let bytesOf (cs : List Char) : List UInt8 := (Bytes.ofString (String.ofList cs)).toList
  let attempt (base : Nat) (digits : List Char) (wordToo : Bool) : Option Int :=
    match Reading.signed (bytesOf digits) base 64 with
    | .ok n => some n
    | .error _ =>
      if wordToo then
        match Reading.unsigned (bytesOf digits) base 64 with
        | .ok n => some n
        | .error _ => none
      else none
  match plain with
  | '0' :: 'b' :: rest => attempt 2 rest true
  | '-' :: '0' :: 'b' :: rest => attempt 2 ('-' :: rest) false
  | '0' :: 'o' :: rest => attempt 8 rest true
  | '-' :: '0' :: 'o' :: rest => attempt 8 ('-' :: rest) false
  | _ => none

/-- What the text of a scalar denotes when `tag` (short form, or empty) is asked for: a string
tag reads every text as a string, and only an empty tag or the timestamp tag admits
timestamps. -/
def resolve (tag : String) (text : String) : Resolved :=
  let hint := match text.toList with
    | [] => some Hint.word
    | c :: _ => hintOf c
  match hint with
  | none => .str
  | some h =>
    if tag == "!!str" || tag == "!!binary" then .str
    else match spelled text with
      | some r => r
      | none =>
        if h == .point then
          match Reading.float (Bytes.ofString text).toList with
          | .ok x => .float x
          | .error _ => .str
        else if h == .word then .str
        else if let some c := (if tag == "" || tag == "!!timestamp" then
            readTimestamp text.toList else none) then .timestamp c
        else
          let plain := text.toList.filter (· != '_')
          let bytes := (Bytes.ofString (String.ofList plain)).toList
          match Reading.signed bytes 0 64 with
          | .ok n => .int n
          | .error _ =>
            match Reading.unsigned bytes 0 64 with
            | .ok n => .int n
            | .error _ =>
              let asFloat : Option Float :=
                if isDecimalFloatText plain then
                  match Reading.float bytes with
                  | .ok x => some x
                  | .error _ => none
                else none
              match asFloat with
              | some x => .float x
              | none =>
                match prefixedInteger plain with
                | some n => .int n
                | none => .str

/-- The float nearest to an integer. -/
def intToFloat (n : Int) : Float := (Binary64.round (n < 0) n.natAbs 1).1

/-- Tags that are read by the schema; other tags keep their text as it is. -/
def isResolvableTag (tag : String) : Bool :=
  tag == "" || tag == "!!str" || tag == "!!bool" || tag == "!!int" || tag == "!!float" ||
    tag == "!!timestamp" || tag == "!!null"

/-- Read a scalar under the tag `tag`: a text that denotes another type is refused with the
schema's message, except that an integer in the range of a signed 64-bit word is read as a
float when a float is asked for. -/
def decodeAs (tag : String) (text : String) : Except String Resolved :=
  if !isResolvableTag tag then .ok .str
  else
    let r := resolve tag text
    if tag == "" || tag == r.tag || tag == "!!str" || tag == "!!binary" then .ok r
    else match tag, r with
      | "!!float", .int n =>
        if n < 9223372036854775808 then .ok (.float (intToFloat n))
        else .error ("yaml: cannot decode !!int `" ++ text ++ "` as a !!float")
      | _, _ => .error ("yaml: cannot decode " ++ r.tag ++ " `" ++ text ++ "` as a " ++ tag)

end TraceSynth.Yaml
