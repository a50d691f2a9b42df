import TraceSynth.Proofs.Run.EcmaArray
import TraceSynth.Proofs.Run.Accounting
import TraceSynth.Proofs.Heap.Addressing

/-!
# The array targets run the ECMAScript algorithms

The targets `array.pop`, `array.push`, `array.shift`, `array.every` and `array.some` work on
their first argument through the host: they read its length and then read, write and delete
index properties. On an array they do what the corresponding ECMAScript algorithm
(`TraceSynth.Ecma`) does on the array's object, with `HasProperty` taken as true for every key.

A host computation *runs as* an object computation on an object (`RunsOn`) when, from every
recording state whose heap holds that object at the reference and that has room for the events
and rounds it charges, it returns or fails as the object computation does on the object, leaves
the object that one leaves in the heap, and keeps the rest of the room; `RunsAs` asks it for
every object. Bookkeeping that only charges events (`Quiet`) can come first. Each host step runs
as its object operation (`getProp_runsAs`, …), the relation composes along `bind`, and the two
loops run as their ECMAScript loops round by round, by induction on the fuel.

## Main results

* `run_arrayMethod`: every array target, run on an array below a million elements from a state
  with room for twice as many events and as many rounds, runs as its algorithm with every key
  taken as present;
* `recordRun_arrayMethod`: so a recording of it returns or fails as that algorithm, and leaves the
  array as that algorithm does;
* `record_arrayMethod_ecma`: which is ECMAScript's algorithm, `HasProperty` included, for `pop`,
  `push` and `some` on every such array and for `shift` and `every` on those without holes;
* `record_every_hole`: on `[true, , true]`, `every` records `false` where ECMAScript returns
  `true`;
* `record_pop_million`: past a million elements the host names index `10^6` by `1e+06`, so `pop`
  reads and deletes that key where ECMAScript reads `1000000`.
-/

namespace TraceSynth

open RecM Host Ecma Ecma.ObjM

/-! ### Heaps -/

namespace Heap

/-- Writing back the object a reference names changes nothing. -/
theorem update_of_obj? {h : Heap} {id : Nat} {o : Obj} (hid : h.obj? (.ref id) = some o) :
    h.update id o = h := by
  have hid0 : id ≠ 0 := by
    rintro rfl
    simp [Heap.obj?] at hid
  simp only [Heap.obj?, beq_iff_eq, hid0, if_false] at hid
  obtain ⟨hlt, hget⟩ := Array.getElem?_eq_some_iff.1 hid
  simp only [Heap.update, beq_iff_eq, hid0, if_false, Array.set!_eq_setIfInBounds]
  congr 1
  rw [Array.setIfInBounds, dif_pos hlt, ← hget, Array.set_getElem_self]

/-- A second write to a reference replaces the first. -/
theorem update_update (h : Heap) (id : Nat) (o o' : Obj) :
    (h.update id o).update id o' = h.update id o' := by
  unfold Heap.update
  split
  · rfl
  · simp [Array.set!_eq_setIfInBounds]

end Heap

/-- Only an array's length resists deletion. -/
theorem Obj.delete_fst {o : Obj} {k : Bytes} (hk : k ≠ lengthKey) : (o.delete k).1 = true := by
  unfold Obj.delete
  rw [if_neg (by simp [hk])]
  split <;> rfl

/-- A length of a million can be written to any object. -/
theorem Obj.set_length_million (o : Obj) : ∃ o', o.set lengthKey (.nat (10 ^ 6)) = .ok o' := by
  unfold Obj.set
  split
  · -- an array: a million is a valid length
    unfold Obj.setLength
    rw [if_neg (by decide +kernel)]
    exact ⟨_, rfl⟩
  · split <;> exact ⟨_, rfl⟩

/-! ### Running as an object computation -/

/-- Room in a recording for `events` more events and `rounds` more rounds, the flag clear. -/
structure Room (r : Recording) (events rounds : Nat) : Prop where
  clear : r.exhausted = false
  events_le : r.events.size + events ≤ r.budget
  rounds_le : r.ticks + rounds ≤ r.budget

theorem Room.mono {r : Recording} {e t e' t' : Nat} (h : Room r e t) (he : e' ≤ e) (ht : t' ≤ t) :
    Room r e' t' :=
  ⟨h.clear, by have := h.events_le; omega, by have := h.rounds_le; omega⟩

variable {α β γ : Type}

/-- The host run of `x` from `r` ends as `y` does on `o`: with its result, with the object `y`
leaves at reference `id`, with the same budget, and with the room beyond `events` and `rounds`
left. -/
def EndsAs (id events rounds : Nat) (x : RecM α) (y : ObjM α) (r : Recording) (o : Obj) : Prop :=
  ∃ r', x.exec r = ((y.exec o).1, r') ∧ r'.heap = r.heap.update id (y.exec o).2 ∧
    r'.budget = r.budget ∧ ∀ e t, Room r (events + e) (rounds + t) → Room r' e t

/-- `x` runs as `y` on the object `o` at reference `id`, charging at most `events` events and
`rounds` rounds. -/
def RunsOn (id : Nat) (o : Obj) (events rounds : Nat) (x : RecM α) (y : ObjM α) : Prop :=
  ∀ r, r.heap.obj? (.ref id) = some o → Room r events rounds → EndsAs id events rounds x y r o

/-- `x` runs as `y` on whichever object reference `id` names. -/
def RunsAs (id events rounds : Nat) (x : RecM α) (y : ObjM α) : Prop :=
  ∀ o, RunsOn id o events rounds x y

variable {id e t e' t' : Nat} {o : Obj}

namespace EndsAs

theorem congr {x : RecM α} {y y' : ObjM α} {r : Recording} (h : y.exec o = y'.exec o)
    (hx : EndsAs id e t x y r o) : EndsAs id e t x y' r o := by
  unfold EndsAs
  rw [← h]
  exact hx

/-- Sequencing: a computation that ends as `y`, followed by continuations that run as those of
`y` on the object `y` leaves. -/
theorem bind {x : RecM α} {y : ObjM α} {f : α → RecM β} {g : α → ObjM β} {r : Recording}
    (hobj : r.heap.obj? (.ref id) = some o) (hx : EndsAs id e t x y r o)
    (hf : ∀ a o', y.exec o = (.ok a, o') → RunsOn id o' e' t' (f a) (g a))
    (hroom : Room r (e + e') (t + t')) : EndsAs id (e + e') (t + t') (x >>= f) (y >>= g) r o := by
  obtain ⟨r₁, hx₁, hheap₁, hbudget₁, hleft₁⟩ := hx
  rw [EndsAs, RecM.exec_bind, hx₁, ObjM.exec_bind]
  rcases hy : y.exec o with ⟨err | a, o₁⟩
  · -- the first computation fails, and so do both sequences
    rw [hy] at hheap₁
    exact ⟨r₁, rfl, hheap₁, hbudget₁, fun e'' t'' h =>
      (hleft₁ (e' + e'') (t' + t'') (by rw [← Nat.add_assoc, ← Nat.add_assoc]; exact h)).mono
        (by omega) (by omega)⟩
  · rw [hy] at hheap₁
    have hobj₁ : r₁.heap.obj? (.ref id) = some o₁ := by
      rw [hheap₁, Prestate.obj?_update hobj, if_pos rfl]
    obtain ⟨r₂, hf₂, hheap₂, hbudget₂, hleft₂⟩ := hf a o₁ hy r₁ hobj₁ (hleft₁ e' t' hroom)
    refine ⟨r₂, hf₂, by rw [hheap₂, hheap₁, Heap.update_update], hbudget₂.trans hbudget₁,
      fun e'' t'' h => hleft₂ e'' t'' (hleft₁ (e' + e'') (t' + t'') ?_)⟩
    rw [← Nat.add_assoc, ← Nat.add_assoc]
    exact h

end EndsAs

namespace RunsOn

variable {o' : Obj} {x : RecM α} {y y' : ObjM α}

theorem mono (h : RunsOn id o e t x y) (he : e ≤ e') (ht : t ≤ t') : RunsOn id o e' t' x y :=
  fun r hobj hroom => by
    obtain ⟨r', hx, hheap, hbudget, hleft⟩ := h r hobj (hroom.mono he ht)
    exact ⟨r', hx, hheap, hbudget, fun e'' t'' h' => hleft e'' t'' (h'.mono (by omega) (by omega))⟩

theorem congr (h : y.exec o = y'.exec o) (hx : RunsOn id o e t x y) : RunsOn id o e t x y' :=
  fun r hobj hroom => (hx r hobj hroom).congr h

theorem bind {f : α → RecM β} {g : α → ObjM β} (hx : RunsOn id o e t x y)
    (hf : ∀ a o', y.exec o = (.ok a, o') → RunsOn id o' e' t' (f a) (g a)) :
    RunsOn id o (e + e') (t + t') (x >>= f) (y >>= g) := fun r hobj hroom =>
  EndsAs.bind hobj (hx r hobj (hroom.mono (by omega) (by omega))) hf hroom

theorem pure {a : α} (hy : y.exec o = (.ok a, o)) : RunsOn id o 0 0 (Pure.pure a) y :=
  fun r hobj _ => ⟨r, by rw [hy]; rfl, by rw [hy, Heap.update_of_obj? hobj], rfl,
    fun e t h => by simpa using h⟩

theorem throw {f : Fault} (hy : y.exec o = (.error f, o)) :
    RunsOn id o 0 0 (MonadExcept.throw f) y :=
  fun r hobj _ => ⟨r, by rw [hy]; rfl, by rw [hy, Heap.update_of_obj? hobj], rfl,
    fun e t h => by simpa using h⟩

/-- Storing the object `y` leaves. -/
theorem store {y : ObjM Unit} (hy : y.exec o = (.ok (), o')) :
    RunsOn id o 0 0 (modify fun r : Recording => { r with heap := r.heap.update id o' }) y :=
  fun r _ _ => ⟨{ r with heap := r.heap.update id o' }, by rw [hy]; rfl, by rw [hy], rfl,
    fun e t h => by
      rw [Nat.zero_add, Nat.zero_add] at h
      exact ⟨h.clear, h.events_le, h.rounds_le⟩⟩

/-- The object a property operation works on is the one its reference names. -/
theorem objectOf_bind {f : Option (Nat × Obj) × Bytes → RecM α} (key : Value) (verb : String)
    (hf : RunsOn id o e t (f (some (id, o), Value.propertyKey key)) y) :
    RunsOn id o e t (objectOf (.ref id) key verb >>= f) y := fun r hobj hroom => by
  obtain ⟨r', hx, hrest⟩ := hf r hobj hroom
  refine ⟨r', ?_, hrest⟩
  rw [RecM.exec_bind, objectOf_exec]
  simp only [Value.isNullish, Bool.false_eq_true, if_false, hobj]
  exact hx

/-- A computation that reads the recording first, ending as `y` from each state it may read. -/
theorem get_bind {f : Recording → RecM α}
    (hf : ∀ r, r.heap.obj? (.ref id) = some o → Room r e t → EndsAs id e t (f r) y r o) :
    RunsOn id o e t (get >>= f) y := fun r hobj hroom => by
  obtain ⟨r', hx, hrest⟩ := hf r hobj hroom
  exact ⟨r', by rw [RecM.exec_bind, RecM.exec_get]; exact hx, hrest⟩

end RunsOn

namespace RunsAs

variable {x : RecM α} {y y' : ObjM α}

theorem mono (h : RunsAs id e t x y) (he : e ≤ e') (ht : t ≤ t') : RunsAs id e' t' x y :=
  fun o => (h o).mono he ht

theorem congr (h : ∀ o, y.exec o = y'.exec o) (hx : RunsAs id e t x y) : RunsAs id e t x y' :=
  fun o => (hx o).congr (h o)

theorem pure (a : α) : RunsAs id 0 0 (Pure.pure a : RecM α) (Pure.pure a) :=
  fun o => RunsOn.pure (ObjM.exec_pure a o)

theorem bind {f : α → RecM β} {g : α → ObjM β} (hx : RunsAs id e t x y)
    (hf : ∀ a, RunsAs id e' t' (f a) (g a)) : RunsAs id (e + e') (t + t') (x >>= f) (y >>= g) :=
  fun o => (hx o).bind fun a o' _ => hf a o'

theorem ite {c : Prop} [Decidable c] {x' : RecM α} (h : RunsAs id e t x y)
    (h' : RunsAs id e t x' y') : RunsAs id e t (if c then x else x') (if c then y else y') := by
  split
  · exact h
  · exact h'

end RunsAs

/-! ### The host's steps -/

namespace Recording

@[simp] theorem noteOperand_exhausted (r : Recording) (v : Value) :
    (r.noteOperand v).exhausted = r.exhausted := by
  cases v <;> rfl

@[simp] theorem noteOperand_budget (r : Recording) (v : Value) :
    (r.noteOperand v).budget = r.budget := by
  cases v <;> rfl

@[simp] theorem noteOperand_ticks (r : Recording) (v : Value) :
    (r.noteOperand v).ticks = r.ticks := by
  cases v <;> rfl

section Aliases

variable (r : Recording) (id : Nat) (f : Aliases → Aliases)

@[simp] theorem modifyAliases_heap : (r.modifyAliases id f).heap = r.heap := by
  unfold Recording.modifyAliases
  split <;> rfl

@[simp] theorem modifyAliases_budget : (r.modifyAliases id f).budget = r.budget := by
  unfold Recording.modifyAliases
  split <;> rfl

@[simp] theorem modifyAliases_exhausted : (r.modifyAliases id f).exhausted = r.exhausted := by
  unfold Recording.modifyAliases
  split <;> rfl

@[simp] theorem modifyAliases_ticks : (r.modifyAliases id f).ticks = r.ticks := by
  unfold Recording.modifyAliases
  split <;> rfl

end Aliases

end Recording

/-- Bookkeeping: from every state with room for `n` events, `x` returns, charging at most `n`
events and leaving the heap, the budget, the flag and the rounds as they were. -/
def Quiet (n : Nat) (x : RecM α) : Prop :=
  ∀ r, Room r n 0 → ∃ a r', x.exec r = (.ok a, r') ∧ r'.heap = r.heap ∧
    r'.budget = r.budget ∧ r'.exhausted = false ∧ r'.events.size ≤ r.events.size + n ∧
    r'.ticks = r.ticks

namespace Quiet

theorem of_eq {x : RecM α} (h : ∀ r, ∃ a, x.exec r = (.ok a, r)) : Quiet 0 x :=
  fun r hroom => by
    obtain ⟨a, ha⟩ := h r
    exact ⟨a, r, ha, rfl, rfl, hroom.clear, by omega, rfl⟩

theorem texpr (v : Value) : Quiet 0 (Host.texpr v) := fun r hroom =>
  ⟨_, _, texpr_exec v r, by simp, by simp, by simpa using hroom.clear, by simp, by simp⟩

theorem keyExpr (o : Obj) (k : Bytes) : Quiet 0 (Host.keyExpr o k) := fun r hroom =>
  ⟨_, _, keyExpr_exec o k r, by simp, by simp, by simpa using hroom.clear, by simp, by simp⟩

theorem freshVar : Quiet 0 Host.freshVar := fun r hroom =>
  ⟨_, _, freshVar_exec r, rfl, rfl, hroom.clear, by simp, rfl⟩

theorem emit (ev : Event) : Quiet 1 (Host.emit ev) := fun r hroom => by
  have hb : ¬ r.budget < r.events.size + 1 := by have := hroom.events_le; omega
  refine ⟨(), { r with events := r.events.push ev }, ?_, rfl, rfl, hroom.clear, by simp, rfl⟩
  rw [emit_exec, if_neg (by simp [hroom.clear]), if_neg hb]

theorem addPreState (v : Value) (exprs : List Expr) : Quiet 0 (Host.addPreState v exprs) :=
  fun r hroom => by
    refine ⟨(), _, addPreState_exec v exprs r, ?_, ?_, ?_, ?_, ?_⟩ <;>
      cases v <;> simp [hroom.clear]

theorem addCurState (v : Value) (e : Expr) : Quiet 0 (Host.addCurState v e) :=
  fun r hroom => by
    refine ⟨(), _, addCurState_exec v e r, ?_, ?_, ?_, ?_, ?_⟩ <;>
      cases v <;> simp [hroom.clear]

theorem recorded (v : Value) : Quiet 0 (Host.recorded v) :=
  of_eq fun r => ⟨_, recorded_exec v r⟩

end Quiet

/-- Bookkeeping first: it charges its events and leaves the object alone. -/
theorem Quiet.runsOn_bind {n : Nat} {x : RecM γ} {f : γ → RecM α} {y : ObjM α}
    (hx : Quiet n x) (hf : ∀ c, RunsOn id o e t (f c) y) :
    RunsOn id o (n + e) t (x >>= f) y := fun r hobj hroom => by
  obtain ⟨c, r₁, hx₁, hheap₁, hbudget₁, hclear₁, hevents₁, hticks₁⟩ :=
    hx r (hroom.mono (by omega) (Nat.zero_le _))
  have hroom₁ : Room r₁ e t :=
    ⟨hclear₁, by have := hroom.events_le; omega, by have := hroom.rounds_le; omega⟩
  obtain ⟨r₂, hf₂, hheap₂, hbudget₂, hleft₂⟩ := hf c r₁ (hheap₁ ▸ hobj) hroom₁
  refine ⟨r₂, by rw [RecM.exec_bind, hx₁]; exact hf₂, by rw [hheap₂, hheap₁],
    hbudget₂.trans hbudget₁, fun e' t' h => hleft₂ e' t' ⟨hclear₁, ?_, ?_⟩⟩
  · have := h.events_le
    omega
  · have := h.rounds_le
    omega

/-- A read of `o[key]` runs as `Get`: observed, it charges one event. -/
theorem getProp_runsAs (id : Nat) (key : Value) :
    RunsAs id 1 0 (getProp (.ref id) key) (Ecma.get (Value.propertyKey key)) := by
  refine fun o => RunsOn.objectOf_bind key _ ?_
  dsimp only
  refine ((Quiet.recorded _).runsOn_bind (e := 1) fun b => ?_).mono le_rfl le_rfl
  cases b
  · exact (RunsOn.pure (get_exec _ o)).mono (Nat.zero_le _) le_rfl
  · -- the event and the aliases of the value read
    exact (Quiet.texpr _).runsOn_bind fun target => (Quiet.keyExpr _ _).runsOn_bind fun name =>
      Quiet.freshVar.runsOn_bind fun var => (Quiet.emit _).runsOn_bind fun _ =>
        (Quiet.addPreState _ _).runsOn_bind fun _ => (Quiet.addCurState _ _).runsOn_bind fun _ =>
          RunsOn.pure (get_exec _ o)

/-- The store that ends a write runs as `Set`. -/
theorem RunsOn.writeBack (id : Nat) (o : Obj) (k : Bytes) (v : Value) :
    RunsOn id o 0 0 (match o.set k v with
      | .ok o' => modify fun r => { r with heap := r.heap.update id o' }
      | .error e => MonadExcept.throw (.runtime .rangeError (Bytes.ofString e.message)) : RecM Unit)
      (Ecma.set k v) := by
  have hexec := set_exec k v o
  split <;> rename_i hs <;> rw [hs] at hexec
  · exact RunsOn.store hexec
  · exact RunsOn.throw hexec

/-- A write of `o[key]` runs as `Set`: observed, it charges one event. -/
theorem setProp_runsAs (id : Nat) (key v : Value) :
    RunsAs id 1 0 (setProp (.ref id) key v) (Ecma.set (Value.propertyKey key) v) := by
  refine fun o => RunsOn.objectOf_bind key _ ?_
  dsimp only
  refine ((Quiet.recorded _).runsOn_bind (e := 1) fun b => ?_).mono le_rfl le_rfl
  cases b
  · exact (RunsOn.writeBack id o _ v).mono (Nat.zero_le _) le_rfl
  · exact (Quiet.texpr _).runsOn_bind fun _ => (Quiet.keyExpr _ _).runsOn_bind fun _ =>
      (Quiet.texpr _).runsOn_bind fun _ => (Quiet.emit _).runsOn_bind fun _ =>
        RunsOn.writeBack id o _ v

theorem deleteProp_runsAs (id : Nat) {key : Value} (hk : Value.propertyKey key ≠ lengthKey) :
    RunsAs id 1 0 (deleteProp (.ref id) key) (Ecma.deleteOrThrow (Value.propertyKey key)) := by
  refine fun o => RunsOn.objectOf_bind key _ ?_
  -- the deletion succeeds: the key is no array's length
  have hexec := deleteOrThrow_exec (Value.propertyKey key) o
  rw [if_pos (Obj.delete_fst hk)] at hexec
  dsimp only
  simp only [Obj.delete_fst hk, Bool.not_true, Bool.false_eq_true, if_false]
  refine ((Quiet.recorded _).runsOn_bind (e := 1) fun b => ?_).mono le_rfl le_rfl
  cases b
  · exact (RunsOn.store hexec).mono (Nat.zero_le _) le_rfl
  · exact (Quiet.texpr _).runsOn_bind fun _ => (Quiet.keyExpr _ _).runsOn_bind fun _ =>
      (Quiet.emit _).runsOn_bind fun _ => RunsOn.store hexec

/-- A round charges one round and touches nothing else. -/
theorem tick_runsAs (id : Nat) : RunsAs id 0 1 tick (Pure.pure ()) := fun o r hobj hroom => by
  have hb : ¬ r.budget < r.ticks + 1 := by have := hroom.rounds_le; omega
  refine ⟨{ r with ticks := r.ticks + 1 }, ?_, (Heap.update_of_obj? hobj).symm, rfl,
    fun e t h => ⟨h.clear, ?_, ?_⟩⟩
  · rw [tick_exec, if_neg (by simp [hroom.clear]), if_neg hb]
    rfl
  · have := h.events_le
    dsimp only
    omega
  · have := h.rounds_le
    dsimp only
    omega

/-- A round before a computation adds one round to its charge. -/
theorem RunsAs.tick_bind {x : RecM α} {y : ObjM α} (hx : RunsAs id e t x y) :
    RunsAs id e (t + 1) (tick >>= fun _ => x) y :=
  (((tick_runsAs id).bind fun _ => hx).congr fun o => by rw [pure_bind]).mono (by omega)
    (by omega)

/-- Reading an array's length runs as `LengthOfArrayLike`: `ToLength` gives back a length up to
`2^31`. -/
theorem lengthOf_runsOn (id : Nat) (harr : o.isArray = true) (hlen : o.length ≤ 2 ^ 31) :
    RunsOn id o 1 0 (Target.lengthOf (.ref id)) lengthOfArray := by
  have hget : o.get lengthKey = .nat o.length := by simp [Obj.get, harr]
  refine ((getProp_runsAs id (.string lengthKey) o).bind fun l o' _ =>
    RunsOn.pure (ObjM.exec_pure l.toLength o')).congr ?_
  simp only [ObjM.exec_bind, get_exec, Value.propertyKey, Value.toBytes, hget, Value.toLength_nat hlen,
    lengthOfArray_exec]
  rfl

/-- The loop of `shift` from index `k`, with fuel for every round: it runs as the moves of `shift`
that take every key as present, two events and one round per element. -/
theorem shiftDown_runsAs (id : Nat) {n : Nat} (hn : n ≤ 10 ^ 6) :
    ∀ fuel k, 1 ≤ k → n - k < fuel →
      RunsAs id (2 * (n - k)) (n - k) (Target.shiftDown (.ref id) n fuel k)
        (shiftMoves assumePresent (List.range' k (n - k)))
  | 0, _, _, hf => absurd hf (Nat.not_lt_zero _)
  | fuel + 1, k, hk, hf => by
    rw [Target.shiftDown]
    by_cases hkn : k < n
    · -- one round: element `k` is read and written at `k - 1`
      obtain ⟨m, hm⟩ : ∃ m, n - k = m + 1 := ⟨n - k - 1, by omega⟩
      have ih := shiftDown_runsAs id hn fuel (k + 1) (by omega) (by omega)
      rw [show n - (k + 1) = m by omega] at ih
      have hround := ((getProp_runsAs id (.nat k)).bind fun v =>
        (setProp_runsAs id (.nat (k - 1)) v).bind fun _ => ih).tick_bind
      rw [propertyKey_nat (k := k) (by omega), propertyKey_nat (k := k - 1) (by omega)] at hround
      rw [if_pos hkn, hm, List.range'_succ, shiftMoves_cons_assumePresent]
      exact hround.mono (by omega) (by omega)
    · rw [if_neg hkn, show n - k = 0 by omega, List.range'_zero, shiftMoves]
      exact (RunsAs.pure ()).mono (Nat.zero_le _) (Nat.zero_le _)

/-- The loop of `every` and `some` from index `k`, with fuel for every round: it runs as their scan
that takes every key as present, one event and one round per element. -/
theorem scanFor_runsAs (id : Nat) {n : Nat} (hn : n ≤ 10 ^ 6) (want : Bool) :
    ∀ fuel k, n - k < fuel →
      RunsAs id (n - k) (n - k) (Target.scanFor (.ref id) n want fuel k)
        (scanWith assumePresent want (List.range' k (n - k)) >>= fun b => Pure.pure (Value.bool b))
  | 0, _, hf => absurd hf (Nat.not_lt_zero _)
  | fuel + 1, k, hf => by
    rw [Target.scanFor]
    by_cases hkn : k < n
    · obtain ⟨m, hm⟩ : ∃ m, n - k = m + 1 := ⟨n - k - 1, by omega⟩
      have ih := scanFor_runsAs id hn want fuel (k + 1) (by omega)
      rw [show n - (k + 1) = m by omega] at ih
      -- one round: element `k` is read, and a hit ends the scan
      have hround := ((getProp_runsAs id (.nat k)).bind fun v =>
        RunsAs.ite (c := (v.truthy == want) = true)
          ((RunsAs.pure (Value.bool want)).mono (Nat.zero_le m) (Nat.zero_le m)) ih).tick_bind
      rw [if_pos hkn, hm]
      refine (hround.congr fun o => ?_).mono (by omega) (by omega)
      simp only [List.range'_succ, ObjM.exec_bind, scanWith_cons_assumePresent, get_exec,
        propertyKey_nat (k := k) (by omega)]
      by_cases hc : ((o.get (indexKey k)).truthy == want) = true
      · rw [if_pos hc, if_pos hc]
      · rw [if_neg hc, if_neg hc, ObjM.exec_bind]
    · rw [if_neg hkn, show n - k = 0 by omega, List.range'_zero, scanWith, pure_bind]
      exact (RunsAs.pure _).mono (Nat.zero_le _) (Nat.zero_le _)

/-- A target that reads its array's length first runs as an algorithm that does, when for that
length the rest runs as the rest. -/
theorem RunsOn.lengthOf_bind {f : Nat → RecM α} {g : Nat → ObjM α} (harr : o.isArray = true)
    (hlen : o.length ≤ 2 ^ 31) (hf : RunsOn id o e t (f o.length) (g o.length)) :
    RunsOn id o (1 + e) t (Target.lengthOf (.ref id) >>= f) (lengthOfArray >>= g) :=
  ((lengthOf_runsOn id harr hlen).bind fun n o' hy => by
    rw [lengthOfArray_exec, Prod.mk.injEq, Except.ok.injEq] at hy
    obtain ⟨rfl, rfl⟩ := hy
    exact hf).mono le_rfl (by omega)

/-- The key the host writes for index `k`: the text it gives the number `k`. -/
def hostKey (k : Nat) : Bytes := Value.propertyKey (.nat k)

/-- Below a million the host's key of an index is ECMAScript's. -/
theorem hostKey_eq_indexKey {k : Nat} (h6 : k < 10 ^ 6) : hostKey k = indexKey k :=
  propertyKey_nat h6

/-- `pop` depends on its keys only through the key of the last index. -/
theorem popAt_exec_congr {key key' : Nat → Bytes}
    (h : o.length ≠ 0 → key (o.length - 1) = key' (o.length - 1)) :
    (popAt key).exec o = (popAt key').exec o := by
  simp only [popAt, ObjM.exec_bind, lengthOfArray_exec]
  split
  · rfl
  · rw [h ‹_›]

/-- Popping an array of `n + 1` elements returns what the key of index `n` holds, deletes that
key and writes the length `n`. -/
theorem popAt_exec_last {key : Nat → Bytes} {o' : Obj} {n : Nat} (hn : o.length = n + 1)
    (hk : key n ≠ lengthKey) (hset : (o.delete (key n)).2.set lengthKey (.nat n) = .ok o') :
    (popAt key).exec o = (.ok (o.get (key n)), o') := by
  simp only [popAt, ObjM.exec_bind, lengthOfArray_exec, hn, Nat.add_one_ne_zero, ↓reduceIte,
    Nat.add_sub_cancel, get_exec, deleteOrThrow_exec, Obj.delete_fst hk, set_exec, hset,
    ObjM.exec_pure]

/-- `array.pop` runs as `pop` with the host's keys on every array of valid length whose last key
is no `length`. -/
theorem run_pop_runsOn_hostKey {args : List Value} (h0 : Value.arg args 0 = .ref id)
    (harr : o.isArray = true) (hlen : o.length ≤ 2 ^ 31)
    (hkey : o.length ≠ 0 → hostKey (o.length - 1) ≠ lengthKey) :
    RunsOn id o 4 0 (Target.run .arrayPop args) (popAt hostKey) := by
  unfold Target.run
  rw [h0]
  refine RunsOn.get_bind fun r hobj hroom => ?_
  refine (RunsOn.lengthOf_bind (e := 3) harr hlen ?_) r hobj hroom
  by_cases hn : o.length = 0
  · -- an empty array: its length is written back
    rw [hn, if_pos rfl, if_pos (beq_self_eq_true 0)]
    exact ((setProp_runsAs id (.string lengthKey) (.number 0) o).bind fun _ o' _ =>
      RunsOn.pure (ObjM.exec_pure Value.undefined o')).mono (by omega) le_rfl
  · -- the last element is read and deleted, and the length goes down by one
    rw [if_neg (by simpa using hn), if_neg hn]
    exact (getProp_runsAs id (.nat (o.length - 1)) o).bind fun v o₁ _ =>
      (deleteProp_runsAs id (hkey hn) o₁).bind fun _ o₂ _ =>
        (setProp_runsAs id (.string lengthKey) (.nat (o.length - 1)) o₂).bind fun _ o₃ _ =>
          RunsOn.pure (ObjM.exec_pure v o₃)

/-- `array.pop` runs as `Array.prototype.pop` below a million elements. -/
theorem run_pop_runsOn {args : List Value} (h0 : Value.arg args 0 = .ref id)
    (harr : o.isArray = true) (hlen : o.length < 10 ^ 6) :
    RunsOn id o 4 0 (Target.run .arrayPop args) pop := by
  have hkey : o.length ≠ 0 → hostKey (o.length - 1) = indexKey (o.length - 1) :=
    fun _ => hostKey_eq_indexKey (by omega)
  have hne : o.length ≠ 0 → hostKey (o.length - 1) ≠ lengthKey := fun hn => by
    rw [hkey hn]
    exact indexKey_ne_lengthKey (by omega)
  rw [pop_eq_popAt]
  exact (run_pop_runsOn_hostKey h0 harr (by omega) hne).congr (popAt_exec_congr hkey)

/-- `array.push` runs as `Array.prototype.push` of its second argument. -/
theorem run_push_runsOn {args : List Value} (h0 : Value.arg args 0 = .ref id)
    (harr : o.isArray = true) (hlen : o.length < 10 ^ 6) :
    RunsOn id o 3 0 (Target.run .arrayPush args) (push (Value.arg args 1)) := by
  unfold Target.run
  rw [h0]
  refine RunsOn.get_bind fun r hobj hroom => ?_
  refine (RunsOn.lengthOf_bind (e := 2) harr (by omega) ?_) r hobj hroom
  -- far below `2^53 - 1`, the length leaves room for one more element
  dsimp only
  rw [if_neg (by omega)]
  have h := (setProp_runsAs id (.nat o.length) (Value.arg args 1) o).bind fun _ o₁ _ =>
    (setProp_runsAs id (.string lengthKey) (.nat (o.length + 1)) o₁).bind fun _ o₂ _ =>
      RunsOn.pure (ObjM.exec_pure (Value.nat (o.length + 1)) o₂)
  rw [propertyKey_nat hlen] at h
  exact h

/-- `array.shift` runs as `Array.prototype.shift` with every key taken as present. -/
theorem run_shift_runsOn {args : List Value} (h0 : Value.arg args 0 = .ref id)
    (harr : o.isArray = true) (hlen : o.length < 10 ^ 6) :
    RunsOn id o (2 * o.length + 2) o.length (Target.run .arrayShift args)
      (shiftWith assumePresent) := by
  unfold Target.run
  rw [h0]
  refine RunsOn.get_bind fun r hobj hroom => ?_
  have hfuel : o.length - 1 < r.budget + 2 := by have := hroom.rounds_le; omega
  refine ((RunsOn.lengthOf_bind (e := 2 * o.length + 1) harr (by omega) ?_).mono (by omega)
    le_rfl) r hobj hroom
  by_cases hn : o.length = 0
  · -- an empty array: its length is written back
    rw [hn, if_pos rfl, if_pos (beq_self_eq_true 0)]
    exact ((setProp_runsAs id (.string lengthKey) (.number 0) o).bind fun _ o' _ =>
      RunsOn.pure (ObjM.exec_pure Value.undefined o')).mono (by omega) (Nat.zero_le _)
  · -- the first element is read, the rest move down, and the last slot goes
    have hk : o.length - 1 < 10 ^ 6 := by omega
    have hne := indexKey_ne_lengthKey hk
    rw [← propertyKey_nat hk] at hne
    have h := (getProp_runsAs id (.nat 0) o).bind fun v o₁ _ =>
      (shiftDown_runsAs id (n := o.length) (by omega) (r.budget + 2) 1 le_rfl hfuel o₁).bind
        fun _ o₂ _ => (deleteProp_runsAs id hne o₂).bind fun _ o₃ _ =>
          (setProp_runsAs id (.string lengthKey) (.nat (o.length - 1)) o₃).bind fun _ o₄ _ =>
            RunsOn.pure (ObjM.exec_pure v o₄)
    rw [propertyKey_nat hk, propertyKey_nat (k := 0) (by decide), indexKey_zero] at h
    rw [if_neg (by simpa using hn), if_neg hn]
    exact h.mono (by omega) (by omega)

/-- The length read and the scan of `array.every` and `array.some`, with fuel for every round. -/
theorem lengthOf_scanFor_runsOn (want : Bool) {fuel : Nat} (harr : o.isArray = true)
    (hlen : o.length < 10 ^ 6) (hfuel : o.length < fuel) :
    RunsOn id o (o.length + 1) o.length
      (Target.lengthOf (.ref id) >>= fun n => Target.scanFor (.ref id) n want fuel 0)
      (lengthOfArray >>= fun n =>
        scanWith assumePresent want (List.range n) >>= fun b => Pure.pure (Value.bool b)) := by
  have h := scanFor_runsAs id (n := o.length) hlen.le want fuel 0 (by omega) o
  rw [Nat.sub_zero, ← List.range_eq_range'] at h
  exact (RunsOn.lengthOf_bind harr (by omega) h).mono (by omega) le_rfl

/-- `array.every` runs as `Array.prototype.every` of `x => x` with every key taken as present. -/
theorem run_every_runsOn {args : List Value} (h0 : Value.arg args 0 = .ref id)
    (harr : o.isArray = true) (hlen : o.length < 10 ^ 6) :
    RunsOn id o (o.length + 1) o.length (Target.run .arrayEvery args) (everyWith assumePresent) := by
  unfold Target.run
  rw [h0]
  refine RunsOn.get_bind fun r hobj hroom => ?_
  have hfuel : o.length < r.budget + 2 := by have := hroom.rounds_le; omega
  exact lengthOf_scanFor_runsOn false harr hlen hfuel r hobj hroom

/-- `array.some` runs as `Array.prototype.some` of `x => x` with every key taken as present. -/
theorem run_some_runsOn {args : List Value} (h0 : Value.arg args 0 = .ref id)
    (harr : o.isArray = true) (hlen : o.length < 10 ^ 6) :
    RunsOn id o (o.length + 1) o.length (Target.run .arraySome args) (someWith assumePresent) := by
  unfold Target.run
  rw [h0]
  refine RunsOn.get_bind fun r hobj hroom => ?_
  have hfuel : o.length < r.budget + 2 := by have := hroom.rounds_le; omega
  exact lengthOf_scanFor_runsOn true harr hlen hfuel r hobj hroom

/-! ### The array targets -/

/-- The array targets. -/
inductive ArrayMethod
  | pop
  | push
  | shift
  | every
  | some
  deriving DecidableEq, Repr

namespace ArrayMethod

/-- The target that runs the method. -/
def target : ArrayMethod → Target
  | .pop => .arrayPop
  | .push => .arrayPush
  | .shift => .arrayShift
  | .every => .arrayEvery
  | .some => .arraySome

/-- The method's ECMAScript algorithm, with `present` for `HasProperty` and `x` for the argument
of `push`. -/
def algorithm (present : Bytes → ObjM Bool) (x : Value) : ArrayMethod → ObjM Value
  | .pop => Ecma.pop
  | .push => Ecma.push x
  | .shift => shiftWith present
  | .every => everyWith present
  | .some => someWith present

/-- Where `HasProperty` matters: `pop`, `push` and `some` never depend on it, `shift` and `every`
do not on an array without holes. -/
theorem algorithm_has (m : ArrayMethod) (x : Value) (hlen : o.length ≤ 10 ^ 6)
    (hholes : m = .shift ∨ m = .every → NoHoles o) :
    (m.algorithm has x).exec o = (m.algorithm assumePresent x).exec o := by
  cases m
  case pop | push => rfl
  case shift => exact shiftWith_eq_of_noHoles hlen (hholes (.inl rfl))
  case every => exact everyWith_eq_of_noHoles (hholes (.inr rfl))
  case some => exact someWith_eq o

end ArrayMethod

/-- Every array target, run on an array below a million elements, runs as its algorithm with every
key taken as present; it charges at most two events per element and four more, and one round per
element. -/
theorem run_arrayMethod (m : ArrayMethod) {args : List Value} (h0 : Value.arg args 0 = .ref id)
    (harr : o.isArray = true) (hlen : o.length < 10 ^ 6) :
    RunsOn id o (2 * o.length + 4) o.length (Target.run m.target args)
      (m.algorithm assumePresent (Value.arg args 1)) := by
  cases m
  case pop => exact (run_pop_runsOn h0 harr hlen).mono (by omega) (Nat.zero_le _)
  case push => exact (run_push_runsOn h0 harr hlen).mono (by omega) (Nat.zero_le _)
  case shift => exact (run_shift_runsOn h0 harr hlen).mono (by omega) le_rfl
  case every => exact (run_every_runsOn h0 harr hlen).mono (by omega) le_rfl
  case some => exact (run_some_runsOn h0 harr hlen).mono (by omega) le_rfl

namespace Recording

theorem start_heap (input : Input) (budget : Nat) : (start input budget).heap = input.heap := by
  unfold start
  dsimp only
  refine List.foldlRecOn (motive := fun r : Recording => r.heap = input.heap) _ _ rfl ?_
  rintro r hr ⟨arg, i⟩ -
  cases arg <;> simpa using hr

/-- A fresh recording has the whole budget as room. -/
theorem start_room (input : Input) {budget e t : Nat} (he : e ≤ budget) (ht : t ≤ budget) :
    Room (start input budget) e t := by
  obtain ⟨hb, hev, hti, hx⟩ := start_ledger input budget
  exact ⟨hx, by rw [hev, hb]; simpa using he, by rw [hti, hb]; simpa using ht⟩

end Recording

/-- A recording of a target that runs as an object computation on the object its first argument
names, with the budget as room, returns or fails as that computation and leaves in the heap the
object it leaves. -/
theorem recordRun_of_runsOn {tgt : Target} {y : ObjM Value} (input : Input) {budget : Nat}
    (hobj : input.heap.obj? (.ref id) = some o) (hruns : RunsOn id o e t (tgt.run input.args) y)
    (he : e ≤ budget) (ht : t ≤ budget) :
    (recordRun (.target tgt) input budget).1 = (y.exec o).1 ∧
      (recordRun (.target tgt) input budget).2.heap = input.heap.update id (y.exec o).2 := by
  have hstart := Recording.start_heap input.clone budget
  obtain ⟨r', hrun, hheap, -, -⟩ := hruns (Recording.start input.clone budget)
    (by rw [hstart]; exact hobj) (Recording.start_room _ he ht)
  have hrecord : recordRun (.target tgt) input budget = ((y.exec o).1, r') := hrun
  rw [hrecord]
  exact ⟨rfl, by rw [hheap, hstart]; rfl⟩

/-- A recording of an array target on an array below a million elements, with a budget of twice
its length and four more, returns or fails as the target's algorithm with every key taken as
present, and leaves in the heap the array that algorithm leaves. -/
theorem recordRun_arrayMethod (m : ArrayMethod) (input : Input) (budget : Nat)
    (h0 : Value.arg input.args 0 = .ref id) (hobj : input.heap.obj? (.ref id) = some o)
    (harr : o.isArray = true) (hlen : o.length < 10 ^ 6) (hbudget : 2 * o.length + 4 ≤ budget) :
    (recordRun (.target m.target) input budget).1 =
        ((m.algorithm assumePresent (Value.arg input.args 1)).exec o).1 ∧
      (recordRun (.target m.target) input budget).2.heap =
        input.heap.update id ((m.algorithm assumePresent (Value.arg input.args 1)).exec o).2 :=
  recordRun_of_runsOn input hobj (run_arrayMethod m h0 harr hlen) hbudget (by omega)

/-- The array targets follow ECMAScript's `Array.prototype` algorithms, `HasProperty` checks
included, wherever those checks cannot fail: a recording of `pop`, `push` or `some` on any array
below a million elements, and of `shift` or `every` on one without holes, returns or fails as the
algorithm does and leaves in the heap the array the algorithm leaves. -/
theorem record_arrayMethod_ecma (m : ArrayMethod) (input : Input) (budget id : Nat) (o : Obj)
    (h0 : Value.arg input.args 0 = .ref id) (hobj : input.heap.obj? (.ref id) = some o)
    (harr : o.isArray = true) (hlen : o.length < 10 ^ 6) (hbudget : 2 * o.length + 4 ≤ budget)
    (hholes : m = .shift ∨ m = .every → NoHoles o) :
    (recordRun (.target m.target) input budget).1 =
        ((m.algorithm has (Value.arg input.args 1)).exec o).1 ∧
      (recordRun (.target m.target) input budget).2.heap =
        input.heap.update id ((m.algorithm has (Value.arg input.args 1)).exec o).2 := by
  rw [ArrayMethod.algorithm_has m _ hlen.le hholes]
  exact recordRun_arrayMethod m input budget h0 hobj harr hlen hbudget

/-- Popping `[true]` is recorded as ECMAScript pops it. -/
theorem record_pop_single :
    let o : Obj := { kind := .array, length := 1, props := [(Bytes.ofString "0", .bool true)] }
    let input : Input := { heap := { objects := #[o] }, args := [.ref 1] }
    (recordRun (.target ArrayMethod.pop.target) input 6).1 =
        ((ArrayMethod.pop.algorithm has (Value.arg input.args 1)).exec o).1 ∧
      (recordRun (.target ArrayMethod.pop.target) input 6).2.heap =
        input.heap.update 1 ((ArrayMethod.pop.algorithm has (Value.arg input.args 1)).exec o).2 := by
  intro o input
  exact record_arrayMethod_ecma .pop input 6 1 o rfl rfl rfl (by decide) (by decide)
    fun h => absurd h (by decide)

/-- On `[true, , true]` the recorded `every` reads the hole as undefined, which is falsy, and
returns `false`; ECMAScript's `every` skips the hole and returns `true`. -/
theorem record_every_hole :
    let o : Obj := { kind := .array, length := 3,
                     props := [(Bytes.ofString "0", .bool true), (Bytes.ofString "2", .bool true)] }
    let input : Input := { heap := { objects := #[o] }, args := [.ref 1, .bool true] }
    (recordRun (.target .arrayEvery) input 10).1 = .ok (.bool false) ∧
      ((everyWith has).exec o).1 = .ok (.bool true) := by
  intro o input
  have hlen : o.length = 3 := rfl
  have hkeys : indexKey 0 = Bytes.ofString "0" ∧ indexKey 1 = Bytes.ofString "1" ∧
      indexKey 2 = Bytes.ofString "2" := by
    decide +kernel
  have hread : (o.get (Bytes.ofString "0")).truthy = true ∧
      (o.get (Bytes.ofString "1")).truthy = false ∧ (o.get (Bytes.ofString "2")).truthy = true ∧
      o.has (Bytes.ofString "0") = true ∧ o.has (Bytes.ofString "1") = false ∧
      o.has (Bytes.ofString "2") = true := by
    decide +kernel
  have hrecord : (recordRun (.target .arrayEvery) input 10).1 =
      ((everyWith assumePresent).exec o).1 :=
    (recordRun_arrayMethod .every input 10 rfl rfl rfl (by decide) (by decide)).1
  rw [hrecord]
  simp only [everyWith, ObjM.exec_bind, lengthOfArray_exec, hlen,
    show List.range 3 = [0, 1, 2] from rfl, scanWith_cons_assumePresent, scanWith_cons_has, hkeys,
    hread]
  exact ⟨rfl, rfl⟩

/-- Past a million elements the host's key of an index is no longer ECMAScript's: on an array of
`10^6 + 1` elements the recorded `pop` returns what the key `1e+06` holds, deletes that key and
writes the length `10^6`, which drops index `10^6` only as a truncation; ECMAScript's `pop`
returns the element at `1000000`. -/
theorem record_pop_million (input : Input) (budget id : Nat) (o : Obj)
    (h0 : Value.arg input.args 0 = .ref id) (hobj : input.heap.obj? (.ref id) = some o)
    (harr : o.isArray = true) (hlen : o.length = 10 ^ 6 + 1) (hbudget : 4 ≤ budget) :
    (recordRun (.target .arrayPop) input budget).1 = .ok (o.get (Bytes.ofString "1e+06")) ∧
      (∃ o', (o.delete (Bytes.ofString "1e+06")).2.set lengthKey (.nat (10 ^ 6)) = .ok o' ∧
        (recordRun (.target .arrayPop) input budget).2.heap = input.heap.update id o') ∧
      (pop.exec o).1 = .ok (o.get (Bytes.ofString "1000000")) := by
  have hkeys : hostKey (10 ^ 6) = Bytes.ofString "1e+06" ∧
      indexKey (10 ^ 6) = Bytes.ofString "1000000" := by
    decide +kernel
  have hne : hostKey (10 ^ 6) ≠ lengthKey ∧ indexKey (10 ^ 6) ≠ lengthKey := by
    rw [hkeys.1, hkeys.2]
    decide
  obtain ⟨o₁, hset₁⟩ := Obj.set_length_million (o.delete (hostKey (10 ^ 6))).2
  obtain ⟨o₂, hset₂⟩ := Obj.set_length_million (o.delete (indexKey (10 ^ 6))).2
  have hruns := run_pop_runsOn_hostKey h0 harr (by omega) fun _ => by
    rw [hlen, Nat.add_sub_cancel]
    exact hne.1
  obtain ⟨hres, hheap⟩ := recordRun_of_runsOn input hobj hruns hbudget (Nat.zero_le _)
  rw [popAt_exec_last hlen hne.1 hset₁] at hres hheap
  rw [pop_eq_popAt, popAt_exec_last hlen hne.2 hset₂, ← hkeys.1, ← hkeys.2]
  exact ⟨hres, ⟨o₁, hset₁, hheap⟩, rfl⟩

/-- An array of `10^6 + 1` elements whose last is `true`: the recorded `pop` returns undefined,
ECMAScript's returns `true`. -/
theorem record_pop_million_last_true :
    let o : Obj := { kind := .array, length := 10 ^ 6 + 1,
                     props := [(Bytes.ofString "1000000", .bool true)] }
    let input : Input := { heap := { objects := #[o] }, args := [.ref 1] }
    (recordRun (.target .arrayPop) input 4).1 = .ok .undefined ∧
      (pop.exec o).1 = .ok (.bool true) := by
  intro o input
  obtain ⟨hrecord, -, hecma⟩ := record_pop_million input 4 1 o rfl rfl rfl rfl le_rfl
  have hread : o.get (Bytes.ofString "1e+06") = .undefined ∧
      o.get (Bytes.ofString "1000000") = .bool true :=
    ⟨rfl, rfl⟩
  rw [hrecord, hecma, hread.1, hread.2]
  exact ⟨rfl, rfl⟩

end TraceSynth
