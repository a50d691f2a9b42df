import TraceSynth.Text.Bytes

/-!
# Base64

The standard alphabet with padding, as a settings file writes a binary scalar: line breaks
anywhere are skipped, the characters must close their last group of four, with one or two `=`
only at the end, and the bits the padding leaves over are not checked.
-/

namespace TraceSynth.Base64

/-- The six-bit value of a character of the alphabet: `A-Z`, `a-z`, `0-9`, `+`, `/`. -/
def value? (c : Char) : Option Nat :=
  if 'A' ≤ c && c ≤ 'Z' then some (c.toNat - 65)
  else if 'a' ≤ c && c ≤ 'z' then some (c.toNat - 97 + 26)
  else if '0' ≤ c && c ≤ '9' then some (c.toNat - 48 + 52)
  else if c == '+' then some 62
  else if c == '/' then some 63
  else none

/-- Six bits at a time, emitting a byte whenever eight have arrived; `acc` holds the bits not
yet emitted, the bytes are kept in reverse. -/
def fold (st : List UInt8 × Nat × Nat) (v : Nat) : List UInt8 × Nat × Nat :=
  let (out, acc, nbits) := st
  let acc := acc * 64 + v
  let nbits := nbits + 6
  if nbits ≥ 8 then (UInt8.ofNat (acc / 2 ^ (nbits - 8)) :: out, acc % 2 ^ (nbits - 8), nbits - 8)
  else (out, acc, nbits)

/-- The bytes a text encodes, `none` when it is not base64 with padding. -/
def decode? (s : String) : Option Bytes := do
  let cs := s.toList.filter fun c => c != '\r' && c != '\n'
  if cs.length % 4 != 0 then none
  let npad := (cs.reverse.takeWhile (· == '=')).length
  if npad > 2 then none
  let vals ← (cs.take (cs.length - npad)).mapM value?
  let (out, _, _) := vals.foldl fold ([], 0, 0)
  pure ⟨out.reverse⟩

end TraceSynth.Base64
