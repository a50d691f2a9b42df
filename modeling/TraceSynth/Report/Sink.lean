import TraceSynth.Text.Bytes

/-!
# Bounded writers

A writer collects the bytes written to it. A writer with a limit refuses the write that would
take the total past the limit, with the message `write limit reached`; what it holds is then of
no further use, since the writers that feed it give up at their first failure.
-/

namespace TraceSynth

/-- A writer, with an optional limit on the bytes written in total. -/
structure Sink where
  limit : Option Nat := none
  written : Bytes := Bytes.empty
  deriving Inhabited

namespace Sink

/-- The message of a refused write. -/
def limitReached : String := "write limit reached"

/-- Write bytes. -/
def write (s : Sink) (b : Bytes) : Except String Sink :=
  match s.limit with
  | some l =>
    if s.written.size + b.size > l then .error limitReached
    else .ok { s with written := s.written ++ b }
  | none => .ok { s with written := s.written ++ b }

/-- Write pieces of text in order, stopping at the first refusal. -/
def writeAll (s : Sink) (pieces : List String) : Except String Sink :=
  pieces.foldlM (fun s p => s.write (Bytes.ofString p)) s

end Sink

end TraceSynth
