import TraceSynth.Inference.Proposal
import TraceSynth.Text.Sort

/-!
# Inferring loops from skeletons

For each start position of a sampled trace's skeleton and each block length up to a bound, a
block repeated at least `minIterations` times is a plain loop. After the repetitions, each
following block of bounded length is tried as the else block: then and else blocks are
consumed greedily, then first, and at least `minIterations` rounds reaching past the
repetitions make a loop with a conditional, if the trace fits its pattern. Its blocks' common
start may also be shared, as long as it does not swallow both blocks whole.

Proposals are kept once per pattern, in the order found, and ranked: most traces explained
first, then fewest spelled-out events, then without a conditional, then the later start, then
the pattern in byte order.
-/

namespace TraceSynth

/-- The bounds of the search for loops. -/
structure InferConfig where
  /-- The rounds a region must show. -/
  minIterations : Int := 3
  /-- The most traces mined for proposals. -/
  maxSamples : Int := 10
  /-- The longest then or else block. -/
  maxBodyLength : Int := 30
  deriving Inhabited

namespace InferConfig

/-- The bounds used: at least two rounds, and defaults for non-positive bounds. -/
def clamp (c : InferConfig) : InferConfig :=
  { minIterations := if c.minIterations < 2 then 2 else c.minIterations
    maxSamples := if c.maxSamples ≤ 0 then 10 else c.maxSamples
    maxBodyLength := if c.maxBodyLength ≤ 0 then 30 else c.maxBodyLength }

end InferConfig

namespace Skeleton

/-- The number of consecutive copies of `block` from `pos`. -/
def repeats (sk : Array Char) (block : List Char) : Nat → Nat → Nat
  | 0, _ => 0
  | fuel + 1, pos =>
    if block.length > 0 && Proposal.occursAt sk pos block then
      1 + repeats sk block fuel (pos + block.length)
    else 0

/-- Consume then or else blocks greedily, then first: the end reached and the rounds. -/
def alternate (sk : Array Char) (thn els : List Char) : Nat → Nat → Nat × Nat
  | 0, pos => (pos, 0)
  | fuel + 1, pos =>
    if thn.length > 0 && Proposal.occursAt sk pos thn then
      let (e, n) := alternate sk thn els fuel (pos + thn.length)
      (e, n + 1)
    else if els.length > 0 && Proposal.occursAt sk pos els then
      let (e, n) := alternate sk thn els fuel (pos + els.length)
      (e, n + 1)
    else (pos, 0)

/-- The lengths `1 ..= m`. -/
def lengths (m : Nat) : List Nat := (List.range m).map (· + 1)

/-- The proposals sharing `1 ..` leading tags of two blocks, stopping at the first difference
and before sharing both blocks whole. -/
def sharedVariants (t : Trace) (start len thenLen elsePos elseLen : Nat) (thn els : List Char) :
    List Proposal :=
  let rec go : Nat → Nat → List Proposal
    | 0, _ => []
    | fuel + 1, k =>
      if k ≤ thenLen && k ≤ elseLen && thn[k - 1]? == els[k - 1]? then
        if k == thenLen && k == elseLen then []
        else
          Proposal.make t start len k (start + k) (thenLen - k) (elsePos + k) (elseLen - k) true ::
            go fuel (k + 1)
      else []
  go (thenLen + 1) 1

/-- The proposals mined from one trace, in the order found. -/
def candidates (c : InferConfig) (t : Trace) : List Proposal :=
  let sk := t.tags
  let n := sk.size
  let minIter := c.minIterations.toNat
  let maxLen := c.maxBodyLength.toNat
  (List.range (n + 1 - minIter)).flatMap fun start =>
    (lengths (min maxLen (n - start))).flatMap fun thenLen =>
      let thn := sliceTags sk start thenLen
      let reps := repeats sk thn (n + 1) start
      let plain := if reps ≥ minIter then
          [Proposal.make t start (reps * thenLen) 0 start thenLen 0 0 false] else []
      let elsePos := start + reps * thenLen
      let withElse := (lengths (min maxLen (n - elsePos))).flatMap fun elseLen =>
        let els := sliceTags sk elsePos elseLen
        let (stop, iters) := alternate sk thn els (n + 1) start
        if iters < minIter || stop ≤ elsePos then []
        else
          let p := Proposal.make t start (stop - start) 0 start thenLen elsePos elseLen true
          if !p.fits t then []
          else p :: sharedVariants t start (stop - start) thenLen elsePos elseLen thn els
      plain ++ withElse

/-- At most `n` traces spread evenly over the list. -/
def sample (traces : List Trace) (n : Nat) : List Trace :=
  if traces.length ≤ n then traces
  else (List.range n).filterMap fun i => traces[i * traces.length / n]?

/-- Whether `a` ranks before `b`. -/
def ranksBefore (a b : Proposal) : Bool :=
  if a.worksFor.length != b.worksFor.length then a.worksFor.length > b.worksFor.length
  else if a.numStmts != b.numStmts then a.numStmts < b.numStmts
  else if a.hasConditional != b.hasConditional then !a.hasConditional
  else if a.start != b.start then a.start > b.start
  else decide (Bytes.ofString a.pattern < Bytes.ofString b.pattern)

/-- Keep the first proposal of each pattern. -/
def dedup (ps : List Proposal) : List Proposal :=
  (ps.foldl (fun (acc : List Proposal × List String) p =>
    if acc.2.contains p.pattern then acc else (p :: acc.1, p.pattern :: acc.2)) ([], [])).1.reverse

/-- The proposals for a list of traces, best first. -/
def infer (c : InferConfig) (traces : List Trace) : List Proposal :=
  let c := c.clamp
  let found := dedup ((sample traces c.maxSamples.toNat).flatMap (candidates c))
  let scored := found.map fun p =>
    { p with worksFor := (traces.zipIdx.filter fun (t, _) => p.fits t).map (·.2) }
  sortStable (fun a b => !ranksBefore b a) scored

end Skeleton

end TraceSynth
