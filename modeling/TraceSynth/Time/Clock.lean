import TraceSynth.Text.Bytes

/-!
# Wall-clock readings

A reading is a civil date and time in a zone, with the zone's offset east of UTC and its name
(`UTC`, or empty for a zone known only by its offset). Readings are written and read in the
layouts the program uses: RFC 3339 with optional nanoseconds, the log timestamps
`2006-01-02 15:04:05.000` and `15:04:05.000`, and the long form
`2006-01-02 15:04:05.999999999 -0700 MST`.

Day counts use the proleptic Gregorian calendar: `days` is the number of days from
1970-01-01, from which the weekday and the day of the year follow.
-/

namespace TraceSynth

/-- A wall-clock reading in a zone. -/
structure Clock where
  year : Int := 1
  month : Nat := 1
  day : Nat := 1
  hour : Nat := 0
  minute : Nat := 0
  second : Nat := 0
  nanos : Nat := 0
  /-- Seconds east of UTC. -/
  offset : Int := 0
  /-- The zone's name, empty when only the offset is known. -/
  zone : String := "UTC"
  deriving Inhabited, Repr

namespace Clock

/-- A number in decimal, zero-padded to `width` digits. -/
def pad (width : Nat) (n : Nat) : String :=
  let s := toString n
  String.ofList (List.replicate (width - s.length) '0') ++ s

/-- A signed year padded to four digits. -/
def padYear (y : Int) : String :=
  if y < 0 then "-" ++ pad 4 y.natAbs else pad 4 y.toNat

/-- Whether a year is a leap year. -/
def isLeap (y : Int) : Bool := y % 4 == 0 && (y % 100 != 0 || y % 400 == 0)

/-- The days of a month. -/
def monthDays (y : Int) (m : Nat) : Nat :=
  match m with
  | 2 => if isLeap y then 29 else 28
  | 4 | 6 | 9 | 11 => 30
  | _ => 31

/-- Days from 1970-01-01 to a civil date. -/
def daysFromCivil (y : Int) (m d : Nat) : Int :=
  let y := if m ≤ 2 then y - 1 else y
  let era := (if y ≥ 0 then y else y - 399) / 400
  let yoe := y - era * 400
  let mp : Int := if m > 2 then (m : Int) - 3 else (m : Int) + 9
  let doy := (153 * mp + 2) / 5 + (d : Int) - 1
  let doe := yoe * 365 + yoe / 4 - yoe / 100 + doy
  era * 146097 + doe - 719468

/-- The civil date of a day count from 1970-01-01. -/
def civilFromDays (z : Int) : Int × Nat × Nat :=
  let z := z + 719468
  let era := (if z ≥ 0 then z else z - 146096) / 146097
  let doe := z - era * 146097
  let yoe := (doe - doe / 1460 + doe / 36524 - doe / 146096) / 365
  let y := yoe + era * 400
  let doy := doe - (365 * yoe + yoe / 4 - yoe / 100)
  let mp := (5 * doy + 2) / 153
  let d := (doy - (153 * mp + 2) / 5 + 1).toNat
  let m := if mp < 10 then (mp + 3).toNat else (mp - 9).toNat
  (if m ≤ 2 then y + 1 else y, m, d)

/-- Days from 1970-01-01 to the reading's date. -/
def days (c : Clock) : Int := daysFromCivil c.year c.month c.day

/-- The weekday, 0 for Sunday. -/
def weekday (c : Clock) : Nat := ((c.days + 4) % 7).toNat

/-- The day of the year, 1 for the first of January. -/
def yearDay (c : Clock) : Nat := (c.days - daysFromCivil c.year 1 1).toNat + 1

/-- Seconds since 1970-01-01 00:00:00 UTC. -/
def unixSeconds (c : Clock) : Int :=
  c.days * 86400 + (c.hour * 3600 + c.minute * 60 + c.second : Nat) - c.offset

/-- The UTC reading of a count of nanoseconds since 1970-01-01 00:00:00 UTC. -/
def ofUnixNanos (n : Int) : Clock :=
  let secs := n.fdiv 1000000000
  let dayCount := secs.fdiv 86400
  let inDay := (secs - dayCount * 86400).toNat
  let (year, month, day) := civilFromDays dayCount
  { year, month, day, hour := inDay / 3600, minute := inDay / 60 % 60, second := inDay % 60,
    nanos := (n - secs * 1000000000).toNat }

/-- The reading with its fields carried over as a calendar does: a second `60` is the first
second of the next minute, and so on into hours and days. The zone stays. -/
def normalized (c : Clock) : Clock :=
  let wall := ofUnixNanos
    ((c.days * 86400 + (c.hour * 3600 + c.minute * 60 + c.second : Nat)) * 1000000000 + c.nanos)
  { wall with offset := c.offset, zone := c.zone }

/-- The date, `2006-01-02`. -/
def dateText (c : Clock) : String :=
  padYear c.year ++ "-" ++ pad 2 c.month ++ "-" ++ pad 2 c.day

/-- The time of day, `15:04:05`. -/
def timeText (c : Clock) : String :=
  pad 2 c.hour ++ ":" ++ pad 2 c.minute ++ ":" ++ pad 2 c.second

/-- The milliseconds, `.000`, truncated. -/
def millisText (c : Clock) : String := "." ++ pad 3 (c.nanos / 1000000)

/-- The nanoseconds with trailing zeros dropped, `.999999999`; empty when whole. -/
def nanosText (c : Clock) : String :=
  if c.nanos == 0 then ""
  else
    let digits := (pad 9 c.nanos).toList
    "." ++ String.ofList (digits.reverse.dropWhile (· == '0')).reverse

/-- The offset as `+hh:mm`, or `Z` for UTC. -/
def offsetText (c : Clock) : String :=
  if c.offset == 0 then "Z"
  else
    let mins := c.offset.natAbs / 60
    (if c.offset < 0 then "-" else "+") ++ pad 2 (mins / 60) ++ ":" ++ pad 2 (mins % 60)

/-- The offset as `-0700`. -/
def numericZone (c : Clock) : String :=
  let mins := c.offset.natAbs / 60
  (if c.offset < 0 then "-" else "+") ++ pad 2 (mins / 60) ++ pad 2 (mins % 60)

/-- The log timestamp `2006-01-02 15:04:05.000`. -/
def stamp (c : Clock) : String := c.dateText ++ " " ++ c.timeText ++ c.millisText

/-- The time of day with milliseconds, `15:04:05.000`. -/
def clockText (c : Clock) : String := c.timeText ++ c.millisText

/-- RFC 3339 with seconds, `2006-01-02T15:04:05Z07:00`. -/
def rfc3339 (c : Clock) : String := c.dateText ++ "T" ++ c.timeText ++ c.offsetText

/-- RFC 3339 with the nanoseconds that are not zero. -/
def rfc3339Nano (c : Clock) : String :=
  c.dateText ++ "T" ++ c.timeText ++ c.nanosText ++ c.offsetText

/-- The long form `2006-01-02 15:04:05.999999999 -0700 MST`; a zone without a name shows its
offset again. -/
def longText (c : Clock) : String :=
  c.dateText ++ " " ++ c.timeText ++ c.nanosText ++ " " ++ c.numericZone ++ " " ++
    (if c.zone.isEmpty then c.numericZone else c.zone)

/-- Exactly `n` digits as a number. -/
def digitsAt (cs : List Char) (n : Nat) : Option (Nat × List Char) :=
  let ds := cs.take n
  if ds.length == n && ds.all Char.isDigit then
    some (ds.foldl (fun acc c => acc * 10 + (c.toNat - 48)) 0, cs.drop n)
  else none

/-- A character. -/
def expectChar (cs : List Char) (c : Char) : Option (List Char) :=
  match cs with
  | d :: rest => if d == c then some rest else none
  | [] => none

/-- Read RFC 3339 with optional fractional seconds. `Z` is UTC; a numeric offset gives a zone
without a name. -/
def parse? (s : String) : Option Clock := do
  let cs := s.toList
  let (y, cs) ← digitsAt cs 4
  let cs ← expectChar cs '-'
  let (mo, cs) ← digitsAt cs 2
  let cs ← expectChar cs '-'
  let (d, cs) ← digitsAt cs 2
  let cs ← match cs with
    | c :: rest => if c == 'T' || c == 't' then some rest else none
    | [] => none
  let (h, cs) ← digitsAt cs 2
  let cs ← expectChar cs ':'
  let (mi, cs) ← digitsAt cs 2
  let cs ← expectChar cs ':'
  let (sec, cs) ← digitsAt cs 2
  let (nanos, cs) ← match cs with
    | '.' :: rest =>
      let ds := rest.takeWhile Char.isDigit
      if ds.isEmpty then none
      else
        let nine := (ds ++ List.replicate 9 '0').take 9
        some (nine.foldl (fun acc c => acc * 10 + (c.toNat - 48)) 0, rest.drop ds.length)
    | _ => some (0, cs)
  let (offset, zone) ← match cs with
    | ['Z'] | ['z'] => some (0, "UTC")
    | sign :: rest =>
      if sign != '+' && sign != '-' then none
      else do
        let (oh, rest) ← digitsAt rest 2
        let rest ← expectChar rest ':'
        let (om, rest) ← digitsAt rest 2
        if !rest.isEmpty || oh > 23 || om > 59 then none
        let off : Int := (oh * 3600 + om * 60 : Nat)
        some (if sign == '-' then -off else off, "")
    | [] => none
  if mo < 1 || mo > 12 || d < 1 || d > monthDays y mo || h > 23 || mi > 59 || sec > 59 then none
  pure { year := y, month := mo, day := d, hour := h, minute := mi, second := sec, nanos,
         offset, zone }

end Clock

end TraceSynth
