import TraceSynth.Proofs.Search.Steps

/-!
# Annealing keeps the best program it saw

A round of annealing draws a random change of the current program from the walk's stream, scores
it, and takes it when it scores strictly lower, or else when a uniform draw falls below
`min 1 (exp (-beta * new / old))`. A taken candidate becomes the current program, and the best
one when it scores strictly below the best. `Engine.Walk.Runs` describes the rounds a walk runs
this way, as a list of `Engine.Round`s, and `Engine.annealRounds_runs` shows that the engine's
rounds are such a run, reporting an improvement for each round whose candidate scored strictly
below the current program.

Along a run the best program stays one of those seen, the start and the candidates taken, and no
score seen is strictly below the best score (`Engine.Walk.Runs.least`). Scores are floats: a NaN
is below nothing, so a candidate scored NaN is never an improvement, and the best score is the
least of the scores seen in the order of the floats.

## Main results

* `Engine.Walk.Runs.least`: the best score is the least score seen along a run;
* `Engine.anneal_keeps_best`: annealing returns the best program it saw, scored at the summary's
  score, after at most its budget of rounds, and reports each improvement from the score of the
  program current at that round.
-/

namespace TraceSynth

namespace Engine

/-- Whether a round takes a candidate scored `sc` when the current program scores `score`, and
the stream after deciding: a strictly lower score is taken without a draw, any other when a
uniform draw falls below `min 1 (exp (-beta * sc / score))`. -/
def acceptance (beta score sc : Float) (rng : Rng) : Bool × Rng :=
  if sc < score then (true, rng)
  else
    let (f, rng') := Random.float.run rng
    let t := Float.exp (-beta * sc / score)
    (!(f ≥ if t < 1 then t else 1), rng')

/-- A round of annealing as the walk saw it. -/
structure Round where
  /-- The number of the round. -/
  index : Nat
  /-- The program current when the round starts. -/
  current : Program
  score : Float
  /-- The candidate drawn. -/
  cand : Program
  candScore : Float
  taken : Bool

namespace Round

/-- The candidates some rounds took, with their scores. -/
def takenScored (rs : List Round) : List (Program × Float) :=
  (rs.filter (·.taken)).map fun r => (r.cand, r.candScore)

/-- The improvements some rounds report: one for each round whose candidate scored strictly below
the current program, from the current score to the candidate's. -/
def improvements (phase : Phase) (rs : List Round) : List Improvement :=
  rs.filterMap fun r =>
    if r.candScore < r.score then
      some { phase, iteration := r.index, before := r.score, after := r.candScore }
    else none

@[simp] theorem takenScored_nil : takenScored [] = [] := rfl

theorem takenScored_cons (r : Round) (rs : List Round) :
    takenScored (r :: rs) =
      (if r.taken then [(r.cand, r.candScore)] else []) ++ takenScored rs := by
  cases h : r.taken <;> simp [takenScored, h]

/-- Each improvement reported goes strictly down, from the score of a round's current program. -/
theorem mem_improvements {phase : Phase} {rs : List Round} {im : Improvement}
    (h : im ∈ improvements phase rs) :
    im.phase = phase ∧ im.after < im.before ∧
      ∃ r ∈ rs, r.index = im.iteration ∧ r.score = im.before ∧ r.candScore = im.after := by
  obtain ⟨r, hr, him⟩ := List.mem_filterMap.1 h
  split at him
  · next hlt =>
    cases him
    exact ⟨rfl, hlt, r, hr, rfl, rfl, rfl⟩
  · cases him

theorem improvements_cons (phase : Phase) (r : Round) (rs : List Round) :
    improvements phase (r :: rs) = improvements phase [r] ++ improvements phase rs := by
  simp only [improvements, List.filterMap_cons, List.filterMap_nil]
  split <;> rfl

end Round

namespace Walk

/-- The walk annealing starts from: `p`, scored `s₀`, current and best. -/
def start (p : Program) (s₀ : Float) (executions : Nat) (rng : Rng) : Walk :=
  { current := p, score := s₀, best := p, bestScore := s₀, executions, rng }

/-- The walk after a round that drew `cand`, scored `sc`, on `inputs` inputs, with `taken` the
decision and `rng` the stream after it. -/
def next (w : Walk) (inputs : Nat) (cand : Program) (sc : Float) (taken : Bool) (rng : Rng) :
    Walk where
  current := if taken then cand else w.current
  score := if taken then sc else w.score
  best := if taken ∧ sc < w.bestScore then cand else w.best
  bestScore := if taken ∧ sc < w.bestScore then sc else w.bestScore
  round := w.round + 1
  executions := w.executions + inputs
  rng

/-- The rounds a walk runs, from the first walk to the last: each draws a random change of the
current program from the walk's stream, scores it on the problem, and goes on from the walk
`Walk.next` gives for the decision `acceptance` makes. -/
inductive Runs (beta : Float) (prob : SearchProblem) (finalizing : Bool) (ctx : MutationContext) :
    Walk → List Round → Walk → Prop
  | stop (w : Walk) : Runs beta prob finalizing ctx w [] w
  | round {w w' : Walk} {rs : List Round} {cand : Program} {sc : Float} {rng : Rng} :
      (w.current.randomChange ctx).run w.rng = (.ok cand, rng) →
      Metric.evaluate cand prob.inputs prob.traces finalizing = .ok sc →
      Runs beta prob finalizing ctx (w.next prob.inputs.length cand sc
        (acceptance beta w.score sc rng).1 (acceptance beta w.score sc rng).2) rs w' →
      Runs beta prob finalizing ctx w
        (⟨w.round, w.current, w.score, cand, sc, (acceptance beta w.score sc rng).1⟩ :: rs) w'

namespace Runs

variable {beta : Float} {prob : SearchProblem} {finalizing : Bool} {ctx : MutationContext}

/-- A run counts its rounds. -/
theorem round_eq {w w' : Walk} {rs : List Round} (h : Runs beta prob finalizing ctx w rs w') :
    w'.round = w.round + rs.length := by
  induction h with
  | stop => rfl
  | round _ _ _ ih =>
    rw [ih]
    simp only [next, List.length_cons]
    omega

/-- Along a run the current program is scored at the current score, at each round and at the
end, and every candidate taken is scored at its score. -/
theorem scored {w w' : Walk} {rs : List Round} (h : Runs beta prob finalizing ctx w rs w')
    (hw : Metric.evaluate w.current prob.inputs prob.traces finalizing = .ok w.score) :
    (∀ r ∈ rs, Metric.evaluate r.current prob.inputs prob.traces finalizing = .ok r.score) ∧
      (∀ x ∈ Round.takenScored rs, Metric.evaluate x.1 prob.inputs prob.traces finalizing = .ok x.2) ∧
      Metric.evaluate w'.current prob.inputs prob.traces finalizing = .ok w'.score := by
  induction h with
  | stop => exact ⟨fun _ h => (by cases h), fun _ h => (by cases h), hw⟩
  | @round w w' rs cand sc rng _ hsc _ ih =>
    -- the next walk's current program is the candidate when taken, else the same
    have hnext : Metric.evaluate (w.next prob.inputs.length cand sc (acceptance beta w.score sc rng).1
        (acceptance beta w.score sc rng).2).current prob.inputs prob.traces finalizing =
        .ok (w.next prob.inputs.length cand sc (acceptance beta w.score sc rng).1
          (acceptance beta w.score sc rng).2).score := by
      simp only [next]
      split
      · exact hsc
      · exact hw
    obtain ⟨hrounds, htaken, hlast⟩ := ih hnext
    refine ⟨?_, ?_, hlast⟩
    · intro r hr
      rcases List.mem_cons.1 hr with rfl | hr
      · exact hw
      · exact hrounds r hr
    · intro x hx
      rw [Round.takenScored_cons, List.mem_append] at hx
      rcases hx with hx | hx
      · split at hx
        · rw [List.mem_singleton.1 hx]
          exact hsc
        · cases hx
      · exact htaken x hx

/-- The best score is the least score seen: if the best program is among `L` and no score of
`L` is strictly below the best score, then after a run the best program is among `L` and the
candidates taken, and no score among them is strictly below the best score. A best score that
is a number stays one. -/
theorem least {w w' : Walk} {rs : List Round} (h : Runs beta prob finalizing ctx w rs w') :
    ∀ {L : List (Program × Float)}, (w.best, w.bestScore) ∈ L → (∀ x ∈ L, ¬x.2 < w.bestScore) →
      (w'.best, w'.bestScore) ∈ L ++ Round.takenScored rs ∧
        (∀ x ∈ L ++ Round.takenScored rs, ¬x.2 < w'.bestScore) ∧
        (w.bestScore.isNaN = false → w'.bestScore.isNaN = false) := by
  induction h with
  | stop => exact fun hmem hle => ⟨by simpa using hmem, by simpa using hle, id⟩
  | @round w w' rs cand sc rng _ _ _ ih =>
    intro L hmem hle
    -- the walk after the round, with the taken candidate added to the scores seen
    set taken := (acceptance beta w.score sc rng).1
    have hstep : (w.next prob.inputs.length cand sc taken (acceptance beta w.score sc rng).2).best
          = (if taken ∧ sc < w.bestScore then cand else w.best) ∧
        (w.next prob.inputs.length cand sc taken (acceptance beta w.score sc rng).2).bestScore
          = (if taken ∧ sc < w.bestScore then sc else w.bestScore) := ⟨rfl, rfl⟩
    have hL : L ++ Round.takenScored (⟨w.round, w.current, w.score, cand, sc, taken⟩ :: rs) =
        (L ++ if taken then [(cand, sc)] else []) ++ Round.takenScored rs := by
      rw [Round.takenScored_cons, List.append_assoc]
    rw [hL]
    rw [hstep.1, hstep.2] at ih
    by_cases hbetter : taken = true ∧ sc < w.bestScore
    · -- a candidate strictly below the best becomes the best
      rw [if_pos hbetter, if_pos hbetter] at ih
      obtain ⟨hm, hl, hn⟩ := ih (L := L ++ if taken then [(cand, sc)] else [])
        (by simp [hbetter.1]) (by
          intro x hx
          rcases List.mem_append.1 hx with hx | hx
          · exact fun hlt => hle x hx (FloatOrder.lt_trans hlt hbetter.2)
          · simp only [hbetter.1, if_true, List.mem_singleton] at hx
            rw [hx]
            exact FloatOrder.lt_irrefl sc)
      exact ⟨hm, hl, fun _ => hn (FloatOrder.isNaN_of_lt hbetter.2)⟩
    · -- otherwise the best stays, and a candidate taken is not strictly below it
      rw [if_neg hbetter, if_neg hbetter] at ih
      refine ih (by simp [hmem]) ?_
      intro x hx
      rcases List.mem_append.1 hx with hx | hx
      · exact hle x hx
      · split at hx
        · next htaken =>
          rw [List.mem_singleton.1 hx]
          exact fun hlt => hbetter ⟨htaken, hlt⟩
        · cases hx

end Runs

end Walk

open EngineM

/-- Changing only what a step of annealing counts keeps the improvements reported. -/
theorem returns_modify {s : EngineState} {f : EngineState → EngineState}
    {Q : PUnit → EngineState → Prop} (h : Q () (f s)) : Returns (modify f : EngineM PUnit) s Q := by
  intro a s' hs
  cases hs
  exact h

theorem evaluate_returns (p : Program) (prob : SearchProblem) (finalizing : Bool)
    (s : EngineState) : Returns (evaluate p prob finalizing) s fun sc s' =>
      Metric.evaluate p prob.inputs prob.traces finalizing = .ok sc ∧
        s'.improvements = s.improvements := by
  unfold evaluate lift
  cases h : Metric.evaluate p prob.inputs prob.traces finalizing with
  | error e => exact Returns.bind Returns.throw
  | ok sc =>
    exact Returns.bind (Returns.pure (Returns.bind (returns_modify (Returns.pure ⟨rfl, rfl⟩))))

theorem emit_returns (level : Level) (msg : String) (fields : List (String × FieldValue))
    (s : EngineState) : Returns (emit level msg fields) s fun _ s' =>
      s'.improvements = s.improvements :=
  returns_modify rfl

section Annealing

variable (cfg : SearchConfig) (phase : Phase) (prob : SearchProblem) (finalizing : Bool)
  (ctx : MutationContext)

/-- The walk went from `w` to `w'` by at most `left` rounds, and the improvements reported grew
from those of `s` by the improvements of those rounds, in order. -/
def RoundsFrom (left : Nat) (w : Walk) (s : EngineState) (w' : Walk) (s' : EngineState) : Prop :=
  ∃ rs, Walk.Runs cfg.beta prob finalizing ctx w rs w' ∧ rs.length ≤ left ∧
    s'.improvements.toList = s.improvements.toList ++ Round.improvements phase rs

/-- The rounds of annealing run as `Walk.Runs` says, at most `left` of them, and report the
improvements of those rounds, in order. -/
theorem annealRounds_runs : ∀ (left : Nat) (w : Walk) (s : EngineState),
    Returns (annealRounds cfg phase prob finalizing ctx left w) s
      (RoundsFrom cfg phase prob finalizing ctx left w s)
  | 0, w, s => Returns.pure ⟨[], .stop w, le_refl _, by simp [Round.improvements]⟩
  | left + 1, w, s => by
    rw [annealRounds.eq_2]
    refine Returns.ite (fun _ => Returns.pure ⟨[], .stop w, Nat.zero_le _, by simp [Round.improvements]⟩)
      fun _ => ?_
    split
    next res rng hrun =>
    extract_lets w₁ step
    -- the round that draws `cand`, then the rounds after it
    have hstep : ∀ cand, res = .ok cand →
        Returns (step cand) s (RoundsFrom cfg phase prob finalizing ctx (left + 1) w s) := by
      intro cand hres
      subst hres
      dsimp -zeta only [step]
      refine Returns.bind (returns_modify ?_)
      refine Returns.bind (Returns.mono (evaluate_returns cand prob finalizing _)
        fun sc s₂ hsc => ?_)
      refine Returns.bind (returns_modify ?_)
      extract_lets jp
      -- the round as a `Round`, and the rounds after it from the walk `Walk.next` gives
      have hcont : ∀ s₄ W, s₄.improvements.toList = s.improvements.toList ++
          Round.improvements phase [⟨w.round, w.current, w.score, cand, sc,
            (acceptance cfg.beta w.score sc rng).1⟩] →
          W = w.next prob.inputs.length cand sc (acceptance cfg.beta w.score sc rng).1
            (acceptance cfg.beta w.score sc rng).2 →
          Returns (annealRounds cfg phase prob finalizing ctx left W) s₄
            (RoundsFrom cfg phase prob finalizing ctx (left + 1) w s) := by
        intro s₄ W h₄ hW
        subst hW
        refine (annealRounds_runs left _ s₄).mono fun w' s' hrest => ?_
        obtain ⟨rs, hruns, hlen, himp⟩ := hrest
        refine ⟨_ :: rs, .round hrun hsc.1 hruns, by simpa using hlen, ?_⟩
        rw [himp, h₄, Round.improvements_cons phase _ rs, List.append_assoc]
      -- the decision the round makes, whatever it is
      have hjp : ∀ s₄, s₄.improvements.toList = s.improvements.toList ++
          Round.improvements phase [⟨w.round, w.current, w.score, cand, sc,
            (acceptance cfg.beta w.score sc rng).1⟩] →
          Returns (jp (acceptance cfg.beta w.score sc rng)) s₄
            (RoundsFrom cfg phase prob finalizing ctx (left + 1) w s) := by
        intro s₄ h₄
        rcases hacc : acceptance cfg.beta w.score sc rng with ⟨accept, rng₂⟩
        rw [hacc] at h₄
        dsimp only [jp]
        split
        · next hreject =>
          have : accept = false := by simpa using hreject
          subst this
          exact hcont s₄ _ (by rw [hacc]; exact h₄) (by rw [hacc]; rfl)
        · next htake =>
          have : accept = true := by simpa using htake
          subst this
          refine Returns.bind (returns_modify ?_)
          refine hcont _ _ (by rw [hacc]; exact h₄) ?_
          rw [hacc]
          by_cases hb : sc < w.bestScore <;> simp [Walk.next, hb, w₁]
      split
      · next hlt =>
        -- an improvement: reported, and taken without a draw
        have hacc : acceptance cfg.beta w.score sc rng = (true, w₁.rng) := by
          simp [acceptance, hlt, w₁]
        refine Returns.bind (returns_modify ?_)
        refine Returns.bind (Returns.mono (emit_returns _ _ _ _) fun _ s₅ h₅ => ?_)
        refine Returns.bind (Returns.pure ?_)
        rw [← hacc]
        refine hjp s₅ ?_
        rw [h₅, hacc]
        simp [Round.improvements, hlt, hsc.2, w₁]
      · next hlt =>
        -- any other candidate: a uniform draw decides
        split
        next f rng₂ hfloat =>
        have hlt' : ¬sc < w.score := hlt
        have hacc : acceptance cfg.beta w.score sc rng =
            (!(f ≥ if (-cfg.beta * sc / w.score).exp < 1 then (-cfg.beta * sc / w.score).exp
              else 1), rng₂) := by
          simp only [acceptance, if_neg hlt']
          rw [show Random.float.run rng = (f, rng₂) from hfloat]
        refine Returns.bind (Returns.pure ?_)
        rw [← hacc]
        refine hjp _ ?_
        rw [hacc]
        simp [Round.improvements, hlt', hsc.2]
    clear_value step
    split
    · next _ cand => exact Returns.bind (Returns.pure (hstep cand rfl))
    · exact Returns.bind Returns.throw

/-- What annealing `p` for at most `n` rounds returns, as `r`, moving the engine from `s` to
`s'`, when `p` scores `s₀` and the walk runs the rounds `rs` to the walk `w`: the program
returned is the best program of `w`, `p` or a candidate taken, scored at the summary's score,
and no score of `p` or of a candidate taken is strictly below it (so it is at most each that is
a number, when `s₀` is one); the summary counts the rounds, at most `n`; and the improvements
reported are those of the rounds, each strictly down from the score of the program current at
its round. -/
structure AnnealOutcome (p : Program) (n : Nat) (rng : Rng) (s s' : EngineState)
    (r : Program × PhaseStats × Rng) (s₀ : Float) (rs : List Round) (w : Walk) : Prop where
  start : Metric.evaluate p prob.inputs prob.traces finalizing = .ok s₀
  runs : Walk.Runs cfg.beta prob finalizing ctx (Walk.start p s₀ prob.inputs.length rng) rs w
  last : r.1 = w.best ∧ r.2.1.score = w.bestScore ∧ r.2.2 = w.rng
  scored : Metric.evaluate r.1 prob.inputs prob.traces finalizing = .ok r.2.1.score
  seen : (r.1, r.2.1.score) ∈ (p, s₀) :: Round.takenScored rs
  least : ∀ x ∈ (p, s₀) :: Round.takenScored rs, ¬x.2 < r.2.1.score
  le : s₀.isNaN = false → ∀ x ∈ (p, s₀) :: Round.takenScored rs, x.2.isNaN = false →
    r.2.1.score ≤ x.2
  iterations : r.2.1.iterations = rs.length ∧ rs.length ≤ n
  reported : s'.improvements.toList = s.improvements.toList ++ Round.improvements phase rs
  improvement : ∀ im ∈ Round.improvements phase rs, im.phase = phase ∧ im.after < im.before ∧
    ∃ r ∈ rs, r.index = im.iteration ∧ r.score = im.before ∧
      Metric.evaluate r.current prob.inputs prob.traces finalizing = .ok r.score

/-- Annealing returns the best program it saw: the best of the start and every candidate taken,
after at most its budget of rounds, reporting each improvement from the current score. -/
theorem anneal_keeps_best {p : Program} {n : Nat} {rng : Rng} {s s' : EngineState}
    {r : Program × PhaseStats × Rng}
    (h : (anneal cfg phase p prob n finalizing ctx rng).exec s = (.ok r, s')) :
    ∃ s₀ rs w, AnnealOutcome cfg phase prob finalizing ctx p n rng s s' r s₀ rs w := by
  have hret : Returns (anneal cfg phase p prob n finalizing ctx rng) s fun r s' =>
      ∃ s₀ rs w, AnnealOutcome cfg phase prob finalizing ctx p n rng s s' r s₀ rs w := by
    unfold anneal
    refine Returns.bind (Returns.mono (evaluate_returns p prob finalizing s) fun s₀ s₁ h₁ => ?_)
    refine Returns.bind ((annealRounds_runs cfg phase prob finalizing ctx n _ s₁).mono
      fun w s₂ hrounds => ?_)
    obtain ⟨rs, hruns, hlen, h₂⟩ := hrounds
    refine Returns.bind (Returns.mono (emit_returns _ _ _ s₂) fun _ s₃ h₃ => Returns.pure ?_)
    -- the facts of the run, from the walk annealing starts with
    have hround := hruns.round_eq
    obtain ⟨-, htaken, -⟩ := hruns.scored h₁.1
    obtain ⟨hmem, hleast, hnum⟩ := hruns.least (L := [(p, s₀)]) (List.mem_singleton_self _)
      (by simpa using FloatOrder.lt_irrefl s₀)
    -- every score seen is the score of its program
    have hseen : ∀ x ∈ (p, s₀) :: Round.takenScored rs,
        Metric.evaluate x.1 prob.inputs prob.traces finalizing = .ok x.2 := by
      intro x hx
      rcases List.mem_cons.1 hx with rfl | hx
      · exact h₁.1
      · exact htaken x hx
    refine ⟨s₀, rs, w, ?_⟩
    constructor
    · exact h₁.1
    · exact hruns
    · exact ⟨rfl, rfl, rfl⟩
    · exact hseen (w.best, w.bestScore) hmem
    · exact hmem
    · exact hleast
    · intro hs₀ x hx hx'
      exact FloatOrder.le_of_not_lt (hnum hs₀) hx' (hleast x hx)
    · exact ⟨by simpa [Walk.start] using hround, hlen⟩
    · rw [h₃, h₂, h₁.2]
    · intro im him
      obtain ⟨hphase, hdown, r, hr, hidx, hbefore, -⟩ := Round.mem_improvements him
      exact ⟨hphase, hdown, r, hr, hidx, hbefore, (hruns.scored h₁.1).1 r hr⟩
  exact hret r s' h

end Annealing

set_option maxRecDepth 100000 in
/-- Annealing `var n = arg0; return 2` for up to three rounds against the traces of `return arg1`
on the inputs `[1, 1]` and `[3, 4]`, on the source seeded with 85: the first round returns `n`,
right on the first input (score 1 to 1/2), the second declares `n` from `arg1` (score 0), and the
walk stops there, so both rounds ran, took their candidate and reported an improvement. -/
theorem anneal_keeps_best_two_rounds :
    let inputs := ["[1, 1]", "[3, 4]"].map fun t => (Input.parse t).toOption.getD default
    let prob : SearchProblem :=
      { inputs := inputs
        traces := (recordAll (.program { body := .seq [.ret (Expr.arg 1)] }) inputs 20 1).toOption.getD [] }
    let p : Program := { body := .seq [.assign (.var "n") (some (Expr.arg 0)) true,
      .ret (.const (.number 2))] }
    ∃ r s', (anneal {} .wholeInputSearch p prob 3 false { constants := [.number 1], nargs := 2 }
        (Rng.seeded 85)).exec { seed := 0 } = (.ok r, s') ∧
      r.2.1.iterations = 2 ∧ s'.improvements.size = 2 ∧
      ∃ s₀ rs w, AnnealOutcome {} .wholeInputSearch prob false { constants := [.number 1], nargs := 2 }
        p 3 (Rng.seeded 85) { seed := 0 } s' r s₀ rs w := by
  intro inputs prob p
  -- one Boolean over the run: a `match` on its result would have the kernel run it twice
  have hok : (let x := (anneal {} .wholeInputSearch p prob 3 false
      { constants := [.number 1], nargs := 2 } (Rng.seeded 85)).exec { seed := 0 }
    (x.1.toOption.map fun r => r.2.1.iterations) == some 2 && x.2.improvements.size == 2) = true := by
    decide +kernel
  rcases hrun : (anneal {} .wholeInputSearch p prob 3 false { constants := [.number 1], nargs := 2 }
      (Rng.seeded 85)).exec { seed := 0 } with ⟨e | r, s'⟩
  · rw [hrun] at hok
    cases hok
  · rw [hrun] at hok
    simp only [Except.toOption, Option.map_some, beq_iff_eq, Option.some.injEq, Bool.and_eq_true]
      at hok
    exact ⟨r, s', rfl, hok.1, hok.2, anneal_keeps_best _ _ _ _ _ hrun⟩

end Engine

end TraceSynth
