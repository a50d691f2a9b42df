import TraceSynth.Generate.Inputs
import TraceSynth.Random.Source

/-!
# Selecting inputs from a large pool

A large pool of inputs is cut down before a search scores it. The inputs after the first `keep`
are scored, in pool order, and put in buckets of equal key: the event count of the input's trace
times 1000, plus its score. Up to ten buckets are drawn, and up to two inputs from each. The
first `keep` inputs always stay, and the inputs kept stay in pool order, each with its trace. A
pool of fewer than twenty inputs is kept whole.

Buckets compare keys as floats: the two zeros share a bucket, and a NaN key, equal to no key,
opens a bucket of its own that no draw finds again, so an input scored NaN is never drawn.
-/

namespace TraceSynth

namespace Generate

/-- The size below which an input pool is kept whole. -/
def selectThreshold : Nat := 20

/-- Up to `n` elements drawn without repetition, in drawn order; all when there are few. -/
def pickN (xs : List α) (n : Nat) [Inhabited α] : RandM (List α) := do
  if xs.length ≤ n then return xs
  let perm ← Random.perm xs.length
  pure ((perm.take n).map fun j => xs.getD j default)

/-- Put a position with its key into the bucket of an equal key, or into a new bucket when no
bucket's key equals it. -/
def addToBucket (acc : List (Float × List Nat)) (p : Nat × Float) : List (Float × List Nat) :=
  if acc.any (·.1 == p.2) then acc.map fun b => if b.1 == p.2 then (b.1, b.2 ++ [p.1]) else b
  else acc ++ [(p.2, [p.1])]

/-- Positions with their keys, in buckets of equal key, the buckets in order of their first
position. -/
def buckets (keyed : List (Nat × Float)) : List (Float × List Nat) := keyed.foldl addToBucket []

/-- The positions in the bucket of key `k`: none when no bucket's key equals `k`. -/
def bucketOf (bs : List (Float × List Nat)) (k : Float) : List Nat :=
  ((bs.find? (·.1 == k)).map (·.2)).getD []

/-- Up to ten bucket keys drawn, and up to two positions from the bucket of each. -/
def drawBuckets (bs : List (Float × List Nat)) : RandM (List Nat) := do
  let keys ← pickN (bs.map (·.1)) 10
  keys.foldlM (fun chosen k => do pure (chosen ++ (← pickN (bucketOf bs k) 2))) []

/-- The bucket key of the input at position `i` scored `s`. -/
def selectionKey (traces : List Trace) (i : Nat) (s : Float) : Float :=
  (traces.getD i default).events.length.toFloat * 1000 + s

/-- The positions kept from a pool of `n`: the first `keep`, and those drawn from the buckets
of the scored positions `keyed`, in increasing order. -/
def chosenPositions (n keep : Nat) (keyed : List (Nat × Float)) (rng : Rng) : List Nat :=
  sortStable (· ≤ ·) (List.range (min keep n) ++ ((drawBuckets (buckets keyed)).run rng).1)

/-- Subsample a pool of inputs with their traces, scoring the inputs past the first `keep` with
`score`, in pool order; the first failure to score stops it. -/
def selectInputs {m : Type → Type} [Monad m] [MonadExceptOf Failure m] (inputs : List Input)
    (traces : List Trace) (keep : Nat) (score : Nat → m Float) (rng : Rng) :
    m (List Input × List Trace) := do
  let n := inputs.length
  if n < selectThreshold then return (inputs, traces)
  let keyed ← ((List.range n).drop keep).mapM fun i => do
    let s ← tryCatchThe Failure (score i) fun e =>
      throwThe Failure (e.wrap ("failed to score input " ++ toString i ++ ": "))
    pure (i, selectionKey traces i s)
  let chosen := chosenPositions n keep keyed rng
  pure (chosen.map (inputs.getD · default), chosen.map (traces.getD · default))

end Generate

end TraceSynth
