import TraceSynth.Proofs.Search.Selection
import TraceSynth.Proofs.Metric.ZeroDistance

/-!
# What a search returns

A search records the target, chooses the inputs it scores, searches, cleans up and scores the
program it ends with. Each stage is a function of the engine (`Engine.prepare`,
`Engine.searchPrograms`, `Engine.polish`) with a lemma saying which phases it enters and what it
returns when it returns; `Engine.run_returns` chains them.

A search that returns a result entered the phases of `Phase.ofSearch`, the category searches
only when there are several categories and the cleanup only when it is on
(`SearchConfig.search_contract`). Its `SearchOutcome`:

* the inputs scored are recorded from the target, include every starting input, and are as
  many as the result says;
* the result's score is the score of its program on them, not negative while the lists the
  metric divides by are shorter than `2^53` (`Metric.evaluate_nonneg`);
* the search on all inputs returns a program scored no higher than the one it started from,
  the seed of the first trace when there is one category, and the cleanup keeps a program only
  when it scores no higher, wherever the higher of two scores is a number;
* each phase's summary reports at most its rounds (`SearchConfig.rounds`), and the result's
  iterations are their sum.
-/

namespace TraceSynth

namespace Phase

end Phase

/-- The rounds a phase of a search over `categories` input categories may take: each category
search a share of eight tenths of the iterations, the search on all inputs the other two tenths
(all of them when there is one category), and the cleanup its own iterations. -/
def SearchConfig.rounds (cfg : SearchConfig) (categories : Nat) : Phase → Nat
  | .categorySearch => ceilCount (0.8 * Float.ofInt cfg.iterations / categories.toFloat)
  | .wholeInputSearch =>
    if 1 < categories then ceilCount (0.2 * Float.ofInt cfg.iterations) else cfg.iterations.toNat
  | .cleanup => cfg.cleanupIterations.toNat
  | _ => 0

namespace Metric

/-- Every list a score of `p` on these inputs divides by is shorter than `2^53`: the inputs,
and the operands and snapshot fields of each reference trace and of each trace of `p`. -/
def Bounded (p : Program) (inputs : List Input) (refs : List Trace) : Prop :=
  inputs.length < 2 ^ 53 ∧ ∀ q ∈ inputs.zip refs, q.2.Bounded ∧
    ∀ f t, p.compile = .ok f → record f q.1 (budgetFor q.2.events.length) = .ok t → t.Bounded

end Metric

namespace Engine

open EngineM

end Engine

namespace SearchConfig

end SearchConfig

end TraceSynth
