import TraceSynth.Search.Config
import TraceSynth.Time.Duration

/-!
# The progress monitor

While a search runs, a monitor samples its counters once per interval, keeps the last thousand
samples, and raises an alert whenever a resource reading crosses its threshold. The resource
readings (heap bytes and concurrent tasks) come from the machine, so they are an argument of
each sample here; the counters come from a source that the monitor calls once per sample.

A sample's execution rate is the change in executions since the previous sample; the first
sample after a start is measured against zero. A threshold of zero disables its alert, and a
sample checks the heap before the tasks.
-/

namespace TraceSynth

/-- What the machine reports at a sample. -/
structure Reading where
  /-- Bytes allocated on the heap. -/
  heap : Nat
  /-- Tasks running at once. -/
  tasks : Nat
  deriving Inhabited

/-- The readings above which a sample raises an alert; zero disables one. -/
structure Thresholds where
  heap : Nat := 2 ^ (30 : Nat)
  tasks : Nat := 10000
  deriving Inhabited

/-- One sample of the counters. -/
structure Sample where
  stats : SearchStats
  /-- The change in executions since the previous sample. -/
  delta : Int
  reading : Reading
  deriving Inhabited

/-- The kind of an alert. -/
inductive AlertKind where
  | heapHigh
  | tasksHigh
  deriving Inhabited, BEq

/-- A reading that crossed its threshold. -/
structure Alert where
  kind : AlertKind
  value : Nat
  threshold : Nat
  deriving Inhabited

namespace Alert

/-- The name of an alert's kind. -/
def name (a : Alert) : String :=
  match a.kind with
  | .heapHigh => "heap_high"
  | .tasksHigh => "goroutines_high"

/-- The text of an alert. -/
def message (a : Alert) : String :=
  match a.kind with
  | .heapHigh => "High heap usage: " ++ toString a.value ++ " bytes"
  | .tasksHigh => "High goroutine count: " ++ toString a.value

end Alert

/-- The alerts a reading raises, the heap first. -/
def Thresholds.alerts (t : Thresholds) (r : Reading) : List Alert :=
  (if t.heap > 0 && r.heap > t.heap then
    [{ kind := .heapHigh, value := r.heap, threshold := t.heap }]
   else []) ++
  (if t.tasks > 0 && r.tasks > t.tasks then
    [{ kind := .tasksHigh, value := r.tasks, threshold := t.tasks }]
   else [])

/-- A progress monitor. -/
structure Monitor where
  /-- The time between samples. -/
  interval : Duration
  thresholds : Thresholds := {}
  /-- The samples kept, oldest first. -/
  history : List Sample := []
  /-- The alerts raised, in order. -/
  alerts : List Alert := []
  /-- The executions of the previous sample, zero at a start. -/
  lastExecutions : Nat := 0
  /-- Whether the monitor has been started and not stopped. -/
  running : Bool := false
  /-- Whether the sampler is taking samples; a start whose context was already cancelled
  leaves it idle. -/
  sampling : Bool := false
  /-- The number of calls made to the counter source. -/
  calls : Nat := 0
  deriving Inhabited

namespace Monitor

/-- The number of samples kept. -/
def historySize : Nat := 1000

/-- A stopped monitor; an interval that is not positive means five seconds. -/
def create (interval : Duration) : Monitor :=
  { interval := if interval.nanos ≤ 0 then ⟨5 * Duration.second⟩ else interval }

/-- Start sampling; `cancelled` starts a sampler that stops before its first sample. -/
def start (m : Monitor) (cancelled : Bool) : Except String Monitor :=
  if m.running then .error "search monitor already running"
  else .ok { m with running := true, sampling := !cancelled, lastExecutions := 0 }

/-- Stop sampling. -/
def stop (m : Monitor) : Except String Monitor :=
  if m.running then .ok { m with running := false, sampling := false }
  else .error "search monitor not running"

/-- Take one sample of the counters and the reading. -/
def sample (m : Monitor) (stats : SearchStats) (r : Reading) : Monitor :=
  let s : Sample :=
    { stats, delta := (stats.executions : Int) - m.lastExecutions, reading := r }
  let history := m.history ++ [s]
  { m with
    history := history.drop (history.length - historySize),
    alerts := m.alerts ++ m.thresholds.alerts r,
    lastExecutions := stats.executions,
    calls := m.calls + 1 }

/-- Let the sampler take `k` more samples, calling the source with the number of earlier
calls; an idle sampler takes none. -/
def collect (m : Monitor) (source : Nat → SearchStats) (r : Reading) : Nat → Monitor
  | 0 => m
  | k + 1 => if m.sampling then (m.sample (source m.calls) r).collect source r k else m

end Monitor

end TraceSynth
