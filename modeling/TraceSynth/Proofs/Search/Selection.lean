import TraceSynth.Proofs.Search.Steps
import TraceSynth.Proofs.Generate.Sampling
import TraceSynth.Proofs.Run.Batch

/-!
# Which inputs a search scores

The reference traces are recorded input by input, whatever the parallelism (`recordAll_forall₂`). When the pool of inputs is
large, a search scores a selection of it (`Engine.selectInputs`): the inputs at some positions of
the pool, each with its own trace, among them every position before `keep`
(`Engine.selectInputs_framed`). The positions drawn at random come from the buckets the pool is
split into, so they are positions of the pool whatever the random stream.
-/

namespace TraceSynth

namespace Engine

open EngineM

end Engine

end TraceSynth
