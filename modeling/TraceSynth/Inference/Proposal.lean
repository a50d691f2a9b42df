import TraceSynth.Trace.Basic

/-!
# Loop proposals

A proposal says that a region of a source trace's skeleton is a loop: the skeleton is `pre`,
then some rounds of the body, then `post`. A round is a shared block followed by the then
block, or, for a loop with a conditional, by the else block. Positions index the source trace:
`start` and `length` bound the unrolled region, and each block's position is that of its first
occurrence.

The pattern is the skeleton language as a regular expression, `pre(shared then)*post` or
`pre(shared(then|else))*post` (without the inner group when nothing is shared). Every
alternative of a round is non-empty, so whether a skeleton fits, and how many rounds it makes,
follow from one pass over the body from its end: a position's round count is that of the first
alternative, in order, that starts there and leaves a remainder that parses.
-/

namespace TraceSynth

/-- An inferred loop over a region of a source trace. -/
structure Proposal where
  /-- The regular expression of the skeletons the loop produces. -/
  pattern : String
  /-- The trace it was mined from. -/
  source : Trace
  /-- The first event of the loop region. -/
  start : Nat
  /-- The number of events the unrolled loop covers. -/
  length : Nat
  /-- The length of the block both branches share. -/
  sharedLen : Nat
  /-- The position and length of the then block, after the shared one. -/
  thenPos : Nat
  thenLen : Nat
  /-- The position and length of the else block, after the shared one. -/
  elsePos : Nat
  elseLen : Nat
  /-- Whether the body holds a conditional. -/
  branches : Bool
  /-- The indices of the traces whose skeletons fit. -/
  worksFor : List Nat := []
  /-- The skeleton before the loop. -/
  preTags : List Char
  /-- The shared block. -/
  sharedTags : List Char
  /-- The then block. -/
  thenTags : List Char
  /-- The else block, empty without a conditional. -/
  elseTags : List Char
  /-- The skeleton after the loop. -/
  postTags : List Char
  deriving Inhabited

/-- The tags of a trace's events. -/
def Trace.tags (t : Trace) : Array Char := (t.events.map fun e => e.kind.tag).toArray

/-- The tags at positions `[a, a + n)`. -/
def sliceTags (sk : Array Char) (a n : Nat) : List Char := (sk.extract a (a + n)).toList

namespace Proposal

/-- The proposal for a region of `source`, with its pattern. -/
def make (source : Trace) (start length shared thenPos thenLen elsePos elseLen : Nat)
    (branches : Bool) : Proposal :=
  let sk := source.tags
  let pre := sliceTags sk 0 start
  let sh := sliceTags sk start shared
  let th := sliceTags sk thenPos thenLen
  let el := if branches then sliceTags sk elsePos elseLen else []
  let post := (sk.extract (start + length) sk.size).toList
  let body :=
    if !branches then String.ofList (sh ++ th)
    else if shared > 0 then
      String.ofList sh ++ "(" ++ String.ofList th ++ "|" ++ String.ofList el ++ ")"
    else String.ofList th ++ "|" ++ String.ofList el
  { pattern := String.ofList pre ++ "(" ++ body ++ ")*" ++ String.ofList post, source, start,
    length, sharedLen := shared, thenPos, thenLen, elsePos, elseLen, branches, preTags := pre,
    sharedTags := sh, thenTags := th, elseTags := el, postTags := post }

/-- Whether the loop body branches. -/
def hasConditional (p : Proposal) : Bool := p.branches

/-- The number of events a program following the proposal spells out. -/
def numStmts (p : Proposal) : Nat :=
  p.preTags.length + p.sharedTags.length + p.thenTags.length + p.elseTags.length +
    p.postTags.length

/-- The alternatives of one round, in the order they are tried. -/
def alternatives (p : Proposal) : List (List Char) :=
  [p.sharedTags ++ p.thenTags] ++ (if p.branches then [p.sharedTags ++ p.elseTags] else [])

/-- Whether `alt` occurs in `body` at position `pos`. -/
def occursAt (body : Array Char) (pos : Nat) (alt : List Char) : Bool :=
  pos + alt.length ≤ body.size && (body.extract pos (pos + alt.length)).toList == alt

/-- The round count of the body from each position on, `-1` where the rest does not parse. -/
def roundCounts (alts : List (List Char)) (body : Array Char) : Array Int :=
  let init := (Array.replicate (body.size + 1) (-1 : Int)).set! body.size 0
  (List.range body.size).reverse.foldl (fun res pos =>
    let found := alts.findSome? fun alt =>
      if alt.length > 0 && occursAt body pos alt then
        let rest := res.getD (pos + alt.length) (-1)
        if rest ≥ 0 then some (rest + 1) else none
      else none
    res.set! pos (found.getD (-1))) init

/-- The number of rounds the loop makes in a skeleton, `-1` if the skeleton does not fit. -/
def iterationsIn (p : Proposal) (sk : Array Char) : Int :=
  let pre := p.preTags.length
  let post := p.postTags.length
  if pre + post ≤ sk.size && (sk.extract 0 pre).toList == p.preTags &&
      (sk.extract (sk.size - post) sk.size).toList == p.postTags then
    let body := sk.extract pre (sk.size - post)
    (roundCounts p.alternatives body).getD 0 (-1)
  else -1

/-- The number of rounds in a trace, `-1` if it does not fit. -/
def numIterations (p : Proposal) (t : Trace) : Int := p.iterationsIn t.tags

/-- Whether a trace's skeleton fits the pattern. -/
def fits (p : Proposal) (t : Trace) : Bool := p.numIterations t ≥ 0

/-- The number of distinct round counts among the traces that fit. -/
def shapes (p : Proposal) (traces : List Trace) : Nat :=
  (traces.filterMap fun t =>
    let n := p.numIterations t
    if n ≥ 0 then some n else none).eraseDups.length

end Proposal

end TraceSynth
