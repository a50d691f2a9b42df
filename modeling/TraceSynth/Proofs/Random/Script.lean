import TraceSynth.Proofs.Random.Draws

/-!
# Random computations on chosen words

A source can be set so that its next words are any chosen words, up to 273 of them: the words
the feed reads first hold the script and the words the tap reads first are zero
(`Rng.scripted`), a state in the source's own layout, with the tap 273 words behind the feed.
Each step stores the script word plus zero where it read it, so the words never change and the
source reads the script off word by word (`Rng.emits_scripted`).

A computation *answers* `a` to a script when, from every source whose next words are the
script, it gives `a` and leaves the source at the words after the script (`RandM.Answers`).
Answers compose along `bind`, the script growing by concatenation, and every draw answers any
value in its range to one word (`Random.intn_answers`). So whatever a computation answers to a
short script, it gives on some source (`RandM.Answers.exists_run`): the random source is free
to make any choice the draws allow.
-/

namespace TraceSynth

namespace Rng

/-- The source's next words are `ws`. -/
def Emits : Rng → List UInt64 → Prop
  | _, [] => True
  | r, w :: ws => (Random.next64.run r).1 = w ∧ Emits (Random.next64.run r).2 ws

@[simp] theorem emits_nil (r : Rng) : r.Emits [] := trivial

theorem emits_cons {r : Rng} {w : UInt64} {ws : List UInt64} :
    r.Emits (w :: ws) ↔ (Random.next64.run r).1 = w ∧ (Random.next64.run r).2.Emits ws :=
  Iff.rfl

/-- The words of a scripted source: the word the feed reads at step `j` holds the `j`-th word of
the script; every other word is zero. -/
def scriptWords (ws : List UInt64) : Array UInt64 :=
  Array.ofFn fun (p : Fin size) => if p.val ≤ 333 then ws.getD (333 - p.val) 0 else 0

/-- The scripted source after `j` steps. -/
def scriptedAt (ws : List UInt64) (j : Nat) : Rng :=
  { vec := scriptWords ws, tap := (size - j) % size, feed := size - lag - j }

/-- A source whose next words are `ws`, in the layout of a freshly seeded source. -/
def scripted (ws : List UInt64) : Rng := scriptedAt ws 0

theorem size_scriptWords (ws : List UInt64) : (scriptWords ws).size = size := by
  simp [scriptWords]

theorem scriptWords_getD (ws : List UInt64) {p : Nat} (hp : p < size) :
    (scriptWords ws).getD p 0 = if p ≤ 333 then ws.getD (333 - p) 0 else 0 := by
  rw [Array.getD_eq_getD_getElem?,
    Array.getElem?_eq_getElem (by rw [size_scriptWords]; exact hp), Option.getD_some]
  simp only [scriptWords, Array.getElem_ofFn]

theorem scriptWords_feed (ws : List UInt64) {j : Nat} (hj : j < 273) :
    (scriptWords ws).getD (333 - j) 0 = ws.getD j 0 := by
  rw [scriptWords_getD ws (by simp only [size]; omega), if_pos (by omega)]
  congr 1
  omega

theorem scriptWords_tap (ws : List UInt64) {j : Nat} (hj : j < 273) :
    (scriptWords ws).getD (606 - j) 0 = 0 := by
  rw [scriptWords_getD ws (by simp only [size]; omega), if_neg (by omega)]

/-- One step of the source, as a function of its state. -/
theorem next64_run (r : Rng) :
    Random.next64.run r =
      let tap := if r.tap == 0 then size - 1 else r.tap - 1
      let feed := if r.feed == 0 then size - 1 else r.feed - 1
      let x := r.vec.getD feed 0 + r.vec.getD tap 0
      (x, { r with vec := r.vec.set! feed x, tap, feed }) := rfl

/-- One step of a scripted source reads the next word of the script and leaves the words as they
were. -/
theorem next64_scriptedAt (ws : List UInt64) {j : Nat} (hj : j < 273) :
    Random.next64.run (scriptedAt ws j) = (ws.getD j 0, scriptedAt ws (j + 1)) := by
  have htap : (if (size - j) % size == 0 then size - 1 else (size - j) % size - 1) = 606 - j := by
    by_cases h0 : j = 0
    · subst h0
      rfl
    · rw [Nat.mod_eq_of_lt (by simp only [size]; omega)]
      simp only [size, beq_iff_eq]
      rw [if_neg (by omega)]
      omega
  have hfeed : (if size - lag - j == 0 then size - 1 else size - lag - j - 1) = 333 - j := by
    simp only [size, lag, beq_iff_eq]
    rw [if_neg (by omega)]
    omega
  have hword : (scriptWords ws).getD (333 - j) 0 + (scriptWords ws).getD (606 - j) 0 =
      ws.getD j 0 := by
    rw [scriptWords_feed ws hj, scriptWords_tap ws hj, UInt64.add_zero]
  simp only [next64_run, scriptedAt, htap, hfeed, hword]
  -- the word stored is the word already there
  have hsame : (scriptWords ws).set! (333 - j) (ws.getD j 0) = scriptWords ws := by
    rw [Array.set!_eq_setIfInBounds, ← scriptWords_feed ws hj]
    have hlt : 333 - j < (scriptWords ws).size := by rw [size_scriptWords]; simp only [size]; omega
    rw [Array.getD_eq_getD_getElem?, Array.getElem?_eq_getElem hlt, Option.getD_some]
    unfold Array.setIfInBounds
    rw [dif_pos hlt, Array.set_getElem_self]
  rw [hsame]
  have htap' : 606 - j = (size - (j + 1)) % size := by
    simp only [size]
    rw [Nat.mod_eq_of_lt (by omega)]
    omega
  have hfeed' : 333 - j = size - lag - (j + 1) := by simp only [size, lag]; omega
  rw [htap', hfeed']

theorem emits_scriptedAt (ws : List UInt64) (hlen : ws.length ≤ 273) :
    ∀ k j, j + k = ws.length → (scriptedAt ws j).Emits (ws.drop j)
  | 0, j, hk => by
    rw [List.drop_eq_nil_of_le (by omega)]
    trivial
  | k + 1, j, hk => by
    have hj : j < ws.length := by omega
    rw [List.drop_eq_getElem_cons hj, emits_cons, next64_scriptedAt ws (by omega),
      List.getD_eq_getElem?_getD, List.getElem?_eq_getElem hj, Option.getD_some]
    exact ⟨rfl, emits_scriptedAt ws hlen k (j + 1) (by omega)⟩

/-- A scripted source reads its script. -/
theorem emits_scripted (ws : List UInt64) (hlen : ws.length ≤ 273) : (scripted ws).Emits ws :=
  emits_scriptedAt ws hlen ws.length 0 (by omega)

end Rng

namespace RandM

variable {α β : Type}

/-- `x` answers `a` to the script `ws`: from every source whose next words are `ws` followed by
any others, it gives `a` and leaves the source at those others. -/
def Answers (x : RandM α) (ws : List UInt64) (a : α) : Prop :=
  ∀ r rest, r.Emits (ws ++ rest) → (x.run r).1 = a ∧ (x.run r).2.Emits rest

theorem Answers.pure (a : α) : Answers (Pure.pure a) [] a := fun _ _ h => ⟨rfl, h⟩

theorem Answers.congr {x : RandM α} {ws ws' : List UInt64} {a a' : α} (hx : Answers x ws a)
    (hws : ws = ws') (ha : a = a') : Answers x ws' a' := hws ▸ ha ▸ hx

theorem Answers.bind {x : RandM α} {f : α → RandM β} {ws ws' : List UInt64} {a : α} {b : β}
    (hx : Answers x ws a) (hf : Answers (f a) ws' b) : Answers (x >>= f) (ws ++ ws') b := by
  intro r rest h
  rw [List.append_assoc] at h
  obtain ⟨ha, hr⟩ := hx r _ h
  have hrun : (x >>= f).run r = (f (x.run r).1).run (x.run r).2 := rfl
  rw [hrun, ha]
  exact hf _ rest hr

/-- A computation whose continuation draws nothing more answers the continuation's value to the
computation's script. -/
theorem Answers.bind_nil {x : RandM α} {f : α → RandM β} {ws : List UInt64} {a : α} {b : β}
    (hx : Answers x ws a) (hf : Answers (f a) [] b) : Answers (x >>= f) ws b :=
  (Answers.bind hx hf).congr (List.append_nil ws) rfl

/-- A computation followed by a pure function of its result answers that function's value. -/
theorem Answers.bind_pure {x : RandM α} {g : α → β} {ws : List UInt64} {a : α}
    (hx : Answers x ws a) : Answers (x >>= fun v => Pure.pure (g v)) ws (g a) :=
  fun r rest h => ⟨congrArg g (hx r rest h).1, (hx r rest h).2⟩

theorem Answers.map {x : RandM α} {f : α → β} {ws : List UInt64} {a : α} (hx : Answers x ws a) :
    Answers (f <$> x) ws (f a) :=
  fun r rest h => ⟨congrArg f (hx r rest h).1, (hx r rest h).2⟩

/-- What a computation answers to a script of at most 273 words, it gives on some source. -/
theorem Answers.exists_run {x : RandM α} {ws : List UInt64} {a : α} (hx : Answers x ws a)
    (hlen : ws.length ≤ 273) : ∃ r, (x.run r).1 = a :=
  ⟨Rng.scripted ws, (hx _ [] (by rw [List.append_nil]; exact Rng.emits_scripted ws hlen)).1⟩

end RandM

namespace Random

open RandM

/-- The word from which a draw below `n` gives `k`: the number sits in the top bits read by a
31-bit draw, or is the 63-bit number itself. -/
def drawWord (n k : Nat) : UInt64 :=
  if n ≤ 2 ^ (31 : Nat) - 1 then UInt64.ofNat (k * 2 ^ (32 : Nat)) else UInt64.ofNat k

theorem next64_answers (w : UInt64) : Answers next64 [w] w :=
  fun _ _ h => h

theorem int63_answers (w : UInt64) : Answers int63 [w] (w &&& 0x7FFFFFFFFFFFFFFF).toNat := by
  unfold int63
  exact (next64_answers w).bind_pure

/-- A 63-bit draw reads any number below `2^63` from its own word. -/
theorem int63_answers_of_lt {v : Nat} (hv : v < 2 ^ (63 : Nat)) :
    Answers int63 [UInt64.ofNat v] v := by
  refine (int63_answers _).congr rfl ?_
  have hword : (UInt64.ofNat v).toNat = v := by simp; omega
  have hmask : (0x7FFFFFFFFFFFFFFF : UInt64).toNat = 2 ^ (63 : Nat) - 1 := rfl
  rw [UInt64.toNat_and, hword, hmask, Nat.and_two_pow_sub_one_of_lt_two_pow hv]

/-- A 31-bit draw reads any number below `2^31` from the top bits of its word. -/
theorem int31_answers {k : Nat} (hk : k < 2 ^ (31 : Nat)) :
    Answers int31 [UInt64.ofNat (k * 2 ^ (32 : Nat))] k := by
  have hv : k * 2 ^ (32 : Nat) < 2 ^ (63 : Nat) := by
    rw [show (63 : Nat) = 31 + 32 from rfl, Nat.pow_add]
    exact Nat.mul_lt_mul_of_pos_right hk (Nat.two_pow_pos 32)
  unfold int31
  refine (int63_answers_of_lt hv).bind_pure.congr rfl ?_
  rw [Nat.shiftRight_eq_div_pow, Nat.mul_div_cancel _ (Nat.two_pow_pos 32)]

/-- Below a power of two, masking with one less keeps the number. -/
theorem and_pred_of_lt {n k : Nat} (hn : 0 < n) (hpow : n &&& (n - 1) = 0) (hk : k < n) :
    k &&& (n - 1) = k := by
  -- a number with no bit in common with its predecessor is the power of two of its top bit
  have htop := Nat.testBit_log2 (Nat.pos_iff_ne_zero.1 hn)
  have hle : 2 ^ n.log2 ≤ n := Nat.log2_self_le (Nat.pos_iff_ne_zero.1 hn)
  have hlt : n < 2 ^ (n.log2 + 1) := Nat.lt_log2_self
  have heq : n = 2 ^ n.log2 := by
    rcases Nat.lt_or_eq_of_le hle with hgt | heq
    · have hpred : (n - 1).testBit n.log2 = true :=
        Nat.testBit_of_two_pow_le_and_two_pow_add_one_gt (by omega) (by omega)
      have hand : (n &&& (n - 1)).testBit n.log2 = true := by
        rw [Nat.testBit_and, htop, hpred]
        rfl
      rw [hpow, Nat.zero_testBit] at hand
      cases hand
    · exact heq.symm
  rw [heq] at hk ⊢
  exact Nat.and_two_pow_sub_one_of_lt_two_pow hk

/-- Redrawing above a bound keeps a first draw within it. -/
theorem redrawAbove_answers {draw : RandM Nat} {max v : Nat} (hv : v ≤ max) (tries : Nat) :
    Answers (redrawAbove draw max tries v) [] v := by
  cases tries with
  | zero => exact Answers.pure v
  | succ tries =>
    rw [redrawAbove, if_neg (by omega)]
    exact Answers.pure v

/-- A draw below `n` from a source of raw numbers that reads `k` from a word gives `k`, when
masking a power of two keeps it, it is within the redraw bound, and reducing keeps it. -/
theorem below_answers {draw : RandM Nat} {w : UInt64} {n k bound : Nat}
    (hdraw : Answers draw [w] k) (hmask : n &&& (n - 1) = 0 → k &&& (n - 1) = k)
    (hmax : k ≤ bound - 1 - bound % n) (hmod : k % n = k) :
    Answers (if n &&& (n - 1) == 0 then do
        let v ← draw
        Pure.pure (v &&& (n - 1))
      else do
        let v ← redrawAbove draw (bound - 1 - bound % n) 1000 (← draw)
        Pure.pure (v % n)) [w] k := by
  split
  · rename_i hpow
    exact hdraw.bind_pure.congr rfl (hmask (by simpa using hpow))
  · have hredraw : Answers (redrawAbove draw (bound - 1 - bound % n) 1000 k >>= fun v =>
        Pure.pure (v % n)) [] (k % n) := (redrawAbove_answers hmax 1000).bind_pure
    exact (Answers.bind (f := fun x => redrawAbove draw (bound - 1 - bound % n) 1000 x >>= fun v =>
      Pure.pure (v % n)) hdraw hredraw).congr (List.append_nil _) hmod

/-- Below `n`, a number is at most the redraw bound: `bound` is at least one multiple of `n`
above it. -/
theorem le_redrawBound {n k bound : Nat} (hk : k < n) (hn : n ≤ bound) :
    k ≤ bound - 1 - bound % n := by
  have hq : 0 < bound / n := Nat.div_pos hn (by omega)
  have hsplit := Nat.div_add_mod bound n
  have hmul : n ≤ n * (bound / n) := Nat.le_mul_of_pos_right n hq
  omega

/-- A number drawn below `n` is any `k < n` on a word of its own, for `n` up to `2^63`. -/
theorem intn_answers {n k : Nat} (hk : k < n) (hn : n ≤ 2 ^ (63 : Nat)) :
    Answers (intn n) [drawWord n k] k := by
  have hpos : 0 < n := by omega
  unfold intn drawWord
  split
  · unfold int31n
    exact below_answers (int31_answers (by omega)) (fun hpow => and_pred_of_lt hpos hpow hk)
      (le_redrawBound hk (by omega)) (Nat.mod_eq_of_lt hk)
  · unfold int63n
    exact below_answers (int63_answers_of_lt (by omega)) (fun hpow => and_pred_of_lt hpos hpow hk)
      (le_redrawBound hk hn) (Nat.mod_eq_of_lt hk)

/-- A number drawn below any `n > 0` is 0 on the zero word. -/
theorem intn_zero_answers (n : Nat) : Answers (intn n) [0] 0 := by
  unfold intn
  split
  · unfold int31n
    exact below_answers ((int31_answers (k := 0) (by decide)).congr (by decide) rfl)
      (fun _ => Nat.zero_and _) (Nat.zero_le _) (Nat.zero_mod n)
  · unfold int63n
    exact below_answers ((int63_answers_of_lt (v := 0) (by decide)).congr (by decide) rfl)
      (fun _ => Nat.zero_and _) (Nat.zero_le _) (Nat.zero_mod n)

/-- A float drawn on the zero word is zero: the 63-bit draw is 0, and 0 is no 1 to redraw. -/
theorem float_zero_answers : Answers float [0] 0 := by
  unfold float
  have hzero : ((0 : Nat).toUInt64.toFloat / 9223372036854775808.0 : Float) = 0 := by
    decide +kernel
  have hone : ((0 : Float) == 1) = false := by decide +kernel
  have hdraw : Answers (int63 >>= fun v =>
      Pure.pure (v.toUInt64.toFloat / 9223372036854775808.0 : Float)) [0] 0 :=
    (int63_answers_of_lt (v := 0) (by decide)).bind_pure.congr (by decide) hzero
  refine Answers.bind hdraw ?_
  rw [float.again, hone]
  exact Answers.pure 0

end Random

end TraceSynth
