import TraceSynth.Log.Entry
import TraceSynth.Decimal.Format
import TraceSynth.Value.Convert
import TraceSynth.Program.Print

/-!
# Console log lines

The console layout writes an entry on one line: an optional timestamp, the level in capitals,
the message, and the fields as `key=value` in byte order of their keys. With colours each piece
is wrapped in an ANSI colour code.

Field values are written by kind: a duration rounded to milliseconds, a time of day with
milliseconds, a string cut to fifty bytes (the cut may split a character), and everything else
in its general form. The search layout also tags the message by what it reports (`PHASE`,
`IMPROVE`, `INFER`, `SEARCH`), writes scores to four decimals, rates to two, and shortens run
identifiers to eight bytes.
-/

namespace TraceSynth

/-- Byte strings joined by single spaces. -/
def Bytes.joinSpaced : List Bytes → Bytes
  | [] => Bytes.empty
  | b :: rest => rest.foldl (fun acc c => acc ++ Bytes.ofString " " ++ c) b

namespace FieldValue

/-- The general text of a value: the form used inside lists and for kinds without a rule of
their own. Durations and times here keep full precision. -/
def general : FieldValue → Bytes
  | .float x => Bytes.ofString (Binary64.general x)
  | .int n => Bytes.ofString (toString n)
  | .str s => s
  | .bool b => Bytes.ofString (if b then "true" else "false")
  | .null => Bytes.ofString "<nil>"
  | .list xs =>
    Bytes.ofString "[" ++ Bytes.joinSpaced (xs.attach.map fun ⟨x, _⟩ => general x) ++
      Bytes.ofString "]"
  | .duration d => Bytes.ofString d.text
  | .time t => Bytes.ofString t.longText
  | .label n => Bytes.ofString n
  | .program p => Bytes.ofString p.toText
  | .value v => Bytes.ofString v.render
  | .error m => Bytes.ofString m

/-- The console text of a value. -/
def console : FieldValue → Bytes
  | .duration d => Bytes.ofString (d.round Duration.millisecond).text
  | .time t => Bytes.ofString t.clockText
  | .str s => if s.size > 50 then s.take 50 ++ Bytes.ofString "..." else s
  | v => v.general

/-- The search console text of a field: scores and rates fixed, run identifiers short. -/
def searchConsole (key : String) (v : FieldValue) : Bytes :=
  match key, v with
  | "score", .float x | "from", .float x | "to", .float x => Bytes.ofString (Binary64.fixed x 4)
  | "executions_per_sec", .float x => Bytes.ofString (Binary64.fixed x 2 ++ "/sec")
  | "run", .str s => if s.size > 8 then s.take 8 else (FieldValue.str s).console
  | _, _ => v.console

end FieldValue

/-- The layout of console lines. -/
structure ConsoleLayout where
  /-- Whether lines begin with a timestamp. -/
  timestamp : Bool := true
  /-- Whether pieces are coloured. -/
  colors : Bool := false
  /-- Whether lines follow the search layout. -/
  search : Bool := false
  deriving Inhabited

namespace ConsoleLayout

/-- The colour of a level. -/
def levelColor : Level → Nat
  | .info => 32
  | .warn => 33
  | .error => 31
  | .fatal | .panic => 35
  | _ => 37

/-- A piece, coloured when the layout has colours. -/
def paint (l : ConsoleLayout) (color : Nat) (s : Bytes) : Bytes :=
  if l.colors then
    Bytes.ofString ("\x1b[" ++ toString color ++ "m") ++ s ++ Bytes.ofString "\x1b[0m"
  else s

/-- Whether `s` occurs in `t`. -/
def contains (t s : String) : Bool := (t.splitOn s).length > 1

/-- The tag of a search message, empty when there is none. -/
def searchTag (msg : String) : String :=
  if contains msg "phase" then "PHASE"
  else if contains msg "Score improved" then "IMPROVE"
  else if contains msg "proposal" then "INFER"
  else if contains msg "Search" then "SEARCH"
  else ""

/-- Insert a field into a list sorted by key bytes. -/
def insertField (f : String × FieldValue) :
    List (String × FieldValue) → List (String × FieldValue)
  | [] => [f]
  | g :: rest =>
    if Bytes.ofString f.1 < Bytes.ofString g.1 then f :: g :: rest else g :: insertField f rest

/-- The fields in byte order of their keys. -/
def sortFields (fs : List (String × FieldValue)) : List (String × FieldValue) :=
  fs.foldl (fun acc f => insertField f acc) []

/-- The console text of a field value under this layout. -/
def value (l : ConsoleLayout) (key : String) (v : FieldValue) : Bytes :=
  if l.search then v.searchConsole key else v.console

/-- One field, `key=value`. -/
def field (l : ConsoleLayout) (kv : String × FieldValue) : Bytes :=
  let (k, v) := kv
  if l.colors then
    Bytes.ofString ("\x1b[34m" ++ k ++ "\x1b[0m=\x1b[32m") ++ l.value k v ++
      Bytes.ofString "\x1b[0m"
  else Bytes.ofString (k ++ "=") ++ l.value k v

/-- The line of an entry, with its newline. -/
def line (l : ConsoleLayout) (e : Entry) : Bytes :=
  let ts := if l.timestamp then l.paint 36 (Bytes.ofString e.time.stamp) ++ Bytes.ofString " "
    else Bytes.empty
  let lvl :=
    l.paint (levelColor e.level) (Bytes.ofString (e.level.name.toUpper)) ++ Bytes.ofString " "
  let tag := if l.search then searchTag e.message else ""
  let tagText := if tag.isEmpty then Bytes.empty
    else l.paint 35 (Bytes.ofString ("[" ++ tag ++ "]")) ++ Bytes.ofString " "
  let fields := sortFields e.fields
  let fieldText := match fields with
    | [] => Bytes.empty
    | f :: rest => rest.foldl (fun acc g => acc ++ Bytes.ofString " " ++ l.field g)
        (Bytes.ofString " " ++ l.field f)
  ts ++ lvl ++ tagText ++ Bytes.ofString e.message ++ fieldText ++ Bytes.ofString "\n"

/-- The search lines of the entries a logger at `lvl` keeps, without timestamps, colours or
line ends. -/
def searchLines (lvl : Level) (entries : List Entry) : List String :=
  let layout : ConsoleLayout := { timestamp := false, colors := false, search := true }
  (entries.filter fun e => lvl.enabled e.level).map fun e =>
    ((layout.line e).toStringLossy.dropEnd 1).toString

end ConsoleLayout

end TraceSynth
