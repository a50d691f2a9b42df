import TraceSynth.Generate.Prestate
import TraceSynth.Proofs.Heap.KeyTable

/-!
# Reading back a prestate write

`Prestate.update` stores a value at the place a prestate expression addresses in an input, and
`Prestate.eval` reads that place. This module says what a successful write changes and when the
place reads back what was written.

A slot write replaces one argument and leaves the heap alone, and the slot reads back the value.
A field write resolves the base path once, before writing, and stores into the object it finds.
Only that object's property under the key changes, together with, for an array's length, the
indices from the new length on (`Prestate.touches`). The field reads back the value (an array's
length reads back the new length, `Prestate.written`) as long as the path to the object reads
no property the write touched (`Prestate.reads`).

Without that condition the read-back fails: when the path runs through the written property,
as in an object whose field `x` is the object itself, writing `arg0.x.x` replaces the loop by
the value, and the path no longer leads to an object
(`update_through_written_property_loses_path`).

## Main results

* `eval_eq_of_reads`: an expression reads the same in two inputs with the same arguments that
  agree on every property its path reads;
* `update_changes_only_written_place`: the frame and read-back of slot and field writes;
* `update_through_written_property_loses_path`: the read-back fails on a path through the
  written property.
-/

namespace TraceSynth

namespace Obj

variable {o o' : Obj} {k k' : Bytes} {v : Value}

theorem setLength_ok (h : o.setLength v = .ok o') : o' = o.truncate v.toNumber.toUInt64.toNat := by
  obtain ⟨n, rfl⟩ := setLength_eq_truncate h
  unfold setLength at h
  dsimp only at h
  split at h
  · cases h
  · have hn := congrArg length (Except.ok.inj h)
    simp only [truncate] at hn
    rw [hn]

end Obj

namespace Prestate

/-! ### What a field write changes -/

/-- What a field holds after `v` is written under `k` to `o`: `v`, except that an array's
length holds the whole number `v` converts to. -/
def written (o : Obj) (k : Bytes) (v : Value) : Value :=
  if o.isArray && k == lengthKey then Value.nat v.toNumber.toUInt64.toNat else v

/-- Whether writing `v` under `k` to `o` drops the key `k'`: an array's length write drops the
indices from the new length on. -/
def truncates (o : Obj) (k : Bytes) (v : Value) (k' : Bytes) : Bool :=
  o.isArray && k == lengthKey && (Value.arrayIndex k').any (v.toNumber.toUInt64.toNat ≤ ·)

/-- Whether writing `v` under `k` to object `id`, which holds `o`, can change property `p.2` of
object `p.1`: the written key itself and the keys the write drops. -/
def touches (id : Nat) (o : Obj) (k : Bytes) (v : Value) (p : Nat × Bytes) : Bool :=
  p.1 == id && (p.2 == k || truncates o k v p.2)

/-- Whether a field write of index key `k` to `o` stays below an array's length, as
`Prestate.update` requires. -/
def InRange (o : Obj) (k : Bytes) : Prop :=
  o.isArray = true → ∀ idx, Value.arrayIndex k = some idx → idx < o.length

section ObjectWrite

variable {o o' : Obj} {k k' : Bytes} {v : Value}

theorem get_truncate_self (ha : o.isArray = true) (n : Nat) :
    (o.truncate n).get lengthKey = Value.nat n := by
  simp only [Obj.get, Obj.isArray_truncate, ha, Bool.true_and, beq_self_eq_true, if_true]
  rfl

theorem get_truncate_of_not_dropped {n : Nat} (hk : k' ≠ lengthKey)
    (hdrop : (Value.arrayIndex k').any (n ≤ ·) = false) : (o.truncate n).get k' = o.get k' := by
  have hlen : (k' == lengthKey) = false := by simpa using hk
  have hkept : ((Value.arrayIndex k').map fun i => decide (i < n)).getD true = true := by
    cases hi : Value.arrayIndex k' <;> simp_all
  simp only [Obj.get, Obj.isArray_truncate, hlen, Bool.and_false, Bool.false_eq_true, if_false,
    Obj.lookup_truncate, hkept, if_true]

/-- A write below an array's length leaves the length where it was. -/
theorem length_withEntry (hr : InRange o k) : (o.withEntry k v).length = o.length := by
  cases ha : o.isArray
  · simp [Obj.withEntry, ha]
  · cases hi : Value.arrayIndex k with
    | none => simp [Obj.withEntry, ha, hi]
    | some idx => simpa [Obj.withEntry, ha, hi] using Nat.succ_le_of_lt (hr ha idx hi)

theorem get_withEntry_ne (hr : InRange o k) (hne : k' ≠ k) :
    (o.withEntry k v).get k' = o.get k' := by
  simp only [Obj.get, Obj.isArray_withEntry, length_withEntry hr, Obj.lookup_withEntry_ne hne]

/-- A written field reads back what `written` says. -/
theorem get_set_self (h : o.set k v = .ok o') : o'.get k = written o k v := by
  rcases Obj.set_cases h with ⟨ha, rfl, -⟩ | ⟨hl, rfl⟩
  · have hs : o.set lengthKey v = o.setLength v := by simp [Obj.set, ha]
    rw [hs] at h
    rw [Obj.setLength_ok h, get_truncate_self ha]
    simp [written, ha]
  · rw [Obj.get_withEntry_self hl]
    cases ha : o.isArray
    · simp [written, ha]
    · have hk : (k == lengthKey) = false := by simpa using hl ha
      simp [written, ha, hk]

/-- A write in range changes no other field than the written one and, for an array's length,
the indices it drops. -/
theorem get_set_of_not_touched (h : o.set k v = .ok o') (hr : InRange o k) (hne : k' ≠ k)
    (hdrop : truncates o k v k' = false) : o'.get k' = o.get k' := by
  rcases Obj.set_cases h with ⟨ha, rfl, -⟩ | ⟨-, rfl⟩
  · have hs : o.set lengthKey v = o.setLength v := by simp [Obj.set, ha]
    rw [hs] at h
    rw [Obj.setLength_ok h]
    exact get_truncate_of_not_dropped hne (by simpa [truncates, ha] using hdrop)
  · exact get_withEntry_ne hr hne

end ObjectWrite

/-! ### Which properties a path reads -/

/-- The value of property `k` of object `j`, when `j` names an object. -/
def propAt (i : Input) (j : Nat) (k : Bytes) : Option Value :=
  (i.heap.obj? (.ref j)).map (·.get k)

/-- The properties reading an expression goes through, in order: for each field read whose
base is a reference, that object and key. -/
def reads (i : Input) : Expr → List (Nat × Bytes)
  | .field o (.const key) =>
    match eval i o with
    | some (.ref id) => reads i o ++ [(id, Value.propertyKey key)]
    | _ => reads i o
  | _ => []

theorem eval_field (i : Input) (o : Expr) (key : Value) :
    eval i (.field o (.const key)) =
      (eval i o).bind fun base => (i.heap.obj? base).map (·.get (Value.propertyKey key)) := by
  simp only [eval]
  cases eval i o with
  | none => rfl
  | some base =>
    dsimp only [bind, Option.bind]
    cases i.heap.obj? base <;> rfl

/-- An expression reads the same in two inputs with the same arguments that agree on every
property its path reads. -/
theorem eval_eq_of_reads {i i' : Input} (hargs : i'.args = i.args) (e : Expr)
    (hagree : ∀ p ∈ reads i e, propAt i' p.1 p.2 = propAt i p.1 p.2) : eval i' e = eval i e := by
  -- induction on the path: a field read agrees once its base does and the read property does
  induction e with
  | argument idx => simp only [eval, hargs]
  | field o n iho =>
    cases n with
    | const key =>
      have hbase : eval i' o = eval i o := by
        refine iho fun p hp => hagree p ?_
        simp only [reads]
        split <;> simp [hp]
      rw [eval_field, eval_field, hbase]
      rcases hb : eval i o with _ | base
      · rfl
      · cases base with
        | ref id =>
          have hread := hagree (id, Value.propertyKey key) (by simp [reads, hb])
          simpa [propAt] using hread
        | _ => simp [Heap.obj?]
    | _ => simp only [eval]
  | _ => simp only [eval]

/-! ### Inverting a successful write -/

theorem update_argument_eq_some {i i' : Input} {idx : Expr} {v : Value}
    (h : update i (.argument idx) v = some i') :
    ∃ k : Nat, (Expr.argument idx).argIndex? = some (k : Int) ∧ k < i.args.length ∧
      i' = { i with args := i.args.set k v } := by
  simp only [update] at h
  split at h
  · rename_i k hk
    split_ifs at h with hout
    simp only [Bool.or_eq_true, decide_eq_true_eq, not_or, not_le, not_lt] at hout
    refine ⟨k.toNat, by rw [Int.toNat_of_nonneg hout.1]; exact hk, by omega, ?_⟩
    exact (Option.some.inj h).symm
  · cases h

theorem update_field_eq_some {i i' : Input} {o : Expr} {key v : Value}
    (h : update i (.field o (.const key)) v = some i') :
    ∃ id obj obj', eval i o = some (.ref id) ∧ i.heap.obj? (.ref id) = some obj ∧
      InRange obj (Value.propertyKey key) ∧ obj.set (Value.propertyKey key) v = .ok obj' ∧
      i' = { i with heap := i.heap.update id obj' } := by
  simp only [update] at h
  -- the write is refused unless the base reads a reference to an object
  rcases hb : eval i o with _ | base
  · simp [hb] at h
  rcases ho : i.heap.obj? base with _ | obj
  · simp [hb, ho] at h
  cases base with
  | ref id =>
    simp only [hb] at h
    dsimp only [bind, Option.bind] at h
    rw [ho] at h
    dsimp only at h
    split_ifs at h with hr
    rcases hs : obj.set (Value.propertyKey key) v with _ | obj'
    · simp [hs] at h
    · simp only [hs, Option.some.injEq] at h
      refine ⟨id, obj, obj', rfl, ho, ?_, hs, h.symm⟩
      intro ha idx hi
      simpa [ha, hi] using hr
  | _ => simp [Heap.obj?] at ho

/-- Replacing an object that exists changes what its reference names and nothing else. -/
theorem obj?_update {h : Heap} {id : Nat} {obj obj' : Obj} (hid : h.obj? (.ref id) = some obj)
    (j : Nat) : (h.update id obj').obj? (.ref j) = if j = id then some obj' else h.obj? (.ref j) := by
  -- references count from one: reference `j` names the object at position `j - 1`
  have hid0 : id ≠ 0 := by
    rintro rfl
    simp [Heap.obj?] at hid
  have hlt : id - 1 < h.objects.size := by
    simp only [Heap.obj?, beq_iff_eq, hid0, if_false] at hid
    exact (Array.getElem?_eq_some_iff.1 hid).1
  simp only [Heap.update, beq_iff_eq, hid0, if_false, Heap.obj?, Array.set!_eq_setIfInBounds,
    Array.getElem?_setIfInBounds]
  by_cases hj : j = id
  · subst hj
    simp [hid0, hlt]
  · have hne : j = 0 ∨ id - 1 ≠ j - 1 := by omega
    rcases hne with rfl | hne
    · simp [hj]
    · simp [hj, hne]

/-! ### What a write changes and what it reads back -/

section FieldWrite

variable {i : Input} {o : Expr} {key : Value} {id : Nat} {obj obj' : Obj} {k : Bytes} {v : Value}

/-- Replacing object `id` by the result of a write in range changes no property the write does
not touch. -/
theorem propAt_update_of_not_touches (ho : i.heap.obj? (.ref id) = some obj) (hr : InRange obj k)
    (hs : obj.set k v = .ok obj') (p : Nat × Bytes) (hp : touches id obj k v p = false) :
    propAt { i with heap := i.heap.update id obj' } p.1 p.2 = propAt i p.1 p.2 := by
  simp only [propAt, obj?_update ho]
  by_cases hj : p.1 = id
  · have hnot : p.2 ≠ k ∧ truncates obj k v p.2 = false := by
      simpa [touches, hj] using hp
    rw [if_pos hj, hj, ho]
    simp only [Option.map_some, get_set_of_not_touched hs hr hnot.1 hnot.2]
  · rw [if_neg hj]

/-- The field a write stored reads back `written`, when the path to it reads no property the
write touched. -/
theorem eval_update_field (hb : eval i o = some (.ref id)) (ho : i.heap.obj? (.ref id) = some obj)
    (hr : InRange obj (Value.propertyKey key)) (hs : obj.set (Value.propertyKey key) v = .ok obj')
    (hpath : (reads i o).all (fun p => !touches id obj (Value.propertyKey key) v p) = true) :
    eval { i with heap := i.heap.update id obj' } (.field o (.const key)) =
      some (written obj (Value.propertyKey key) v) := by
  have hbase : eval { i with heap := i.heap.update id obj' } o = eval i o := by
    have hargs : ({ i with heap := i.heap.update id obj' } : Input).args = i.args := rfl
    refine eval_eq_of_reads hargs o fun p hp => propAt_update_of_not_touches ho hr hs p ?_
    simpa using List.all_eq_true.1 hpath p hp
  rw [eval_field, hbase, hb]
  simp [obj?_update ho, get_set_self hs]

end FieldWrite

theorem eval_update_argument {i : Input} {idx : Expr} {k : Nat} {v : Value}
    (hk : (Expr.argument idx).argIndex? = some (k : Int)) (hlt : k < i.args.length) :
    eval { i with args := i.args.set k v } (.argument idx) = some v := by
  simp [eval, hk, Value.arg, List.getD_eq_getElem?_getD, List.getElem?_set_self hlt]

/-- A successful prestate write changes only the place it addresses.

A slot write replaces that argument, leaves the heap alone, and the slot reads back the value. A
field write stores into the object `id` its base path names before the write; it leaves the
arguments alone, changes no property it does not touch (`touches`: the written key of that
object, and for an array's length the indices it drops), and the field reads back `written`
(the value, or an array's new length) whenever the base path reads no touched property. -/
theorem update_changes_only_written_place :
    (∀ (i i' : Input) (idx : Expr) (v : Value), update i (.argument idx) v = some i' →
      i'.heap = i.heap ∧
      (∃ k : Nat, (Expr.argument idx).argIndex? = some (k : Int) ∧ k < i.args.length ∧
        i'.args = i.args.set k v) ∧
      eval i' (.argument idx) = some v) ∧
    (∀ (i i' : Input) (o : Expr) (key v : Value), update i (.field o (.const key)) v = some i' →
      ∃ id obj, eval i o = some (.ref id) ∧ i.heap.obj? (.ref id) = some obj ∧
        i'.args = i.args ∧
        (∀ p : Nat × Bytes, touches id obj (Value.propertyKey key) v p = false →
          propAt i' p.1 p.2 = propAt i p.1 p.2) ∧
        ((reads i o).all (fun p => !touches id obj (Value.propertyKey key) v p) = true →
          eval i' (.field o (.const key)) = some (written obj (Value.propertyKey key) v))) := by
  refine ⟨fun i i' idx v h => ?_, fun i i' o key v h => ?_⟩
  · obtain ⟨k, hk, hlt, rfl⟩ := update_argument_eq_some h
    exact ⟨rfl, ⟨k, hk, hlt, rfl⟩, eval_update_argument hk hlt⟩
  · obtain ⟨id, obj, obj', hb, ho, hr, hs, rfl⟩ := update_field_eq_some h
    exact ⟨id, obj, hb, ho, rfl, propAt_update_of_not_touches ho hr hs,
      eval_update_field hb ho hr hs⟩

/-- In an object whose field `x` is the object itself, with `y` beside it, `arg0.x.y` passes the
written object twice and still reads back the value written to it. -/
theorem update_changes_only_written_place_through_loop :
    let loop : Obj :=
      { kind := .plain, props := [("x", .ref 1), ("y", .number 0)], order := ["x", "y"] }
    let i : Input := { heap := { objects := #[loop] }, args := [.ref 1] }
    let e := Expr.field (.field (Expr.arg 0) (.const (.string "x"))) (.const (.string "y"))
    ∃ i', update i e (.number 5) = some i' ∧ eval i' e = some (.number 5) := by
  intro loop i e
  have hsome : (update i e (.number 5)).isSome = true := by decide +kernel
  obtain ⟨i', hi'⟩ := Option.isSome_iff_exists.1 hsome
  obtain ⟨id, obj, -, -, -, -, hread⟩ := update_changes_only_written_place.2 i i' _ _ _ hi'
  -- the path reads only `x`, and a write of `y` touches no `x`, whatever object it lands in
  have hkeys : (reads i (.field (Expr.arg 0) (.const (.string "x")))).all (·.2 == "x") = true := by
    decide +kernel
  have hy : (("y" : Bytes) == lengthKey) = false := by decide
  have hxy : (("x" : Bytes) == "y") = false := by decide
  have hpath : (reads i (.field (Expr.arg 0) (.const (.string "x")))).all
      (fun p => !touches id obj (Value.propertyKey (.string "y")) (.number 5) p) = true := by
    refine List.all_eq_true.2 fun p hp => ?_
    have hx : p.2 = "x" := by simpa using List.all_eq_true.1 hkeys p hp
    simp [touches, truncates, Value.propertyKey, Value.toBytes, hx, hy, hxy]
  refine ⟨i', hi', ?_⟩
  simpa [written, Value.propertyKey, Value.toBytes, hy] using hread hpath

/-- Without the path condition the read-back fails: in an object whose field `x` is the object
itself, writing `arg0.x.x` stores into `arg0.x`, that is the loop, and afterwards `arg0.x` is the
value and no object to read `x` of. -/
theorem update_through_written_property_loses_path :
    let loop : Obj := { kind := .plain, props := [("x", .ref 1)], order := ["x"] }
    let i : Input := { heap := { objects := #[loop] }, args := [.ref 1] }
    let e := Expr.field (.field (Expr.arg 0) (.const (.string "x"))) (.const (.string "x"))
    (update i e (.number 5)).isSome = true ∧
      ∀ i', update i e (.number 5) = some i' → eval i' e = none := by
  intro loop i e
  have hafter : ((update i e (.number 5)).bind fun i' => eval i' e).isNone = true := by
    decide +kernel
  refine ⟨by decide +kernel, fun i' h => ?_⟩
  rw [h, Option.bind_some] at hafter
  exact Option.isNone_iff_eq_none.1 hafter

end Prestate

end TraceSynth
