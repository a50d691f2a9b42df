import TraceSynth.Value.Basic
import TraceSynth.Program.Stmt
import TraceSynth.Time.Clock
import TraceSynth.Time.Duration

/-!
# Log entries

A log entry has a time, a level, a message and named fields. Field values keep the kind of
thing they hold, since each kind is written its own way: numbers (binary64 or integer),
strings (as bytes, which may be cut anywhere), booleans, nothing, lists, durations in
nanoseconds, times, labels (phase, level and format names), programs, values, and errors.

Levels are ordered from the most severe: a logger at a level keeps the entries at that level or
above.
-/

namespace TraceSynth

/-- A log level, most severe first. -/
inductive Level where
  | panic
  | fatal
  | error
  | warn
  | info
  | debug
  | trace
  deriving DecidableEq, Inhabited, Repr

namespace Level

/-- The rank of a level, 0 for the most severe. -/
def rank : Level → Nat
  | .panic => 0
  | .fatal => 1
  | .error => 2
  | .warn => 3
  | .info => 4
  | .debug => 5
  | .trace => 6

/-- Whether a logger at level `at` keeps an entry at level `l`. -/
def enabled (at_ l : Level) : Bool := l.rank ≤ at_.rank

/-- The name of a level; warn is `warning`. -/
def name : Level → String
  | .panic => "panic"
  | .fatal => "fatal"
  | .error => "error"
  | .warn => "warning"
  | .info => "info"
  | .debug => "debug"
  | .trace => "trace"

/-- ASCII lower case. -/
def lowerAscii (s : String) : String :=
  String.ofList (s.toList.map fun c =>
    if 'A' ≤ c && c ≤ 'Z' then Char.ofNat (c.toNat + 32) else c)

/-- The level a name denotes, in any case; `warn` and `warning` are both warn. -/
def ofName? (s : String) : Option Level :=
  match lowerAscii s with
  | "panic" => some .panic
  | "fatal" => some .fatal
  | "error" => some .error
  | "warn" | "warning" => some .warn
  | "info" => some .info
  | "debug" => some .debug
  | "trace" => some .trace
  | _ => none

end Level

/-- A field value. -/
inductive FieldValue where
  | float (x : Float)
  | int (n : Int)
  | str (s : Bytes)
  | bool (b : Bool)
  | null
  | list (xs : List FieldValue)
  | duration (d : Duration)
  | time (t : Clock)
  /-- A value of a named text kind (a phase, a level, a format), written in full. -/
  | label (name : String)
  | program (p : Program)
  | value (v : Value)
  | error (msg : String)
  deriving Inhabited

/-- A log entry. -/
structure Entry where
  time : Clock := {}
  level : Level
  message : String
  fields : List (String × FieldValue) := []
  deriving Inhabited

/-- Set fields, replacing those of the same name. -/
def Entry.withFields (e : Entry) (fs : List (String × FieldValue)) : Entry :=
  { e with fields := fs.foldl (fun acc (k, v) =>
      if acc.any (·.1 == k) then acc.map fun p => if p.1 == k then (k, v) else p
      else acc ++ [(k, v)]) e.fields }

end TraceSynth
