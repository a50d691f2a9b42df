import TraceSynth.Proofs.Float.Whole
import TraceSynth.Proofs.Decimal.Layout
import TraceSynth.Proofs.Decimal.Shortest
import TraceSynth.Proofs.Heap.KeyTable
import TraceSynth.Proofs.Heap.Bisimilarity
import TraceSynth.Proofs.Program.Render

/-!
# The array methods of ECMAScript

ECMA-262 gives `Array.prototype.pop`, `push`, `shift`, `every` and `some` (sections 23.1.3.22,
23.1.3.23, 23.1.3.27, 23.1.3.6 and 23.1.3.29) as algorithms over the abstract operations `Get`,
`Set`, `DeletePropertyOrThrow` and `HasProperty` of one object. Here they run on a heap object
(`Ecma.ObjM`): `Get`, `Set` and the deletion are the object's own read, write and deletion,
`HasProperty` asks whether the object holds the key, and the length an array reports is read back
exactly by `ToLength`. Index `k` is named by `ToString(𝔽(k))`, the ECMAScript text of the number
(`Ecma.indexKey`); `every` and `some` run with the callback `x => x`.

`shift`, `every` and `some` step over holes: where the array holds no element they read nothing,
and `shift` deletes where it would copy. They take that test as a parameter: ECMAScript asks
`HasProperty` (`Ecma.has`), and a runtime without the test takes every key as present
(`Ecma.assumePresent`).

## Main results

* `Ecma.propertyKey_nat`: below a million, the key a whole number names is its ECMAScript key;
* `Value.toLength_nat`: the length a whole number up to `2^31` gives is the number;
* `Ecma.shiftWith_eq_of_noHoles`, `Ecma.everyWith_eq_of_noHoles`: on an array without holes
  below its length, `shift` and `every` do not depend on the test;
* `Ecma.someWith_eq`: `some` never does, since a hole reads as undefined, which is no hit.
-/

namespace TraceSynth

open Unpacked Magnitude

/-! ### Whole numbers as keys and lengths -/

namespace Value

/-- The special values aside: the float of a positive whole number below `2^53` is no NaN, no
infinity and no zero. -/
theorem toFloat_not_special {k : Nat} (hk : 0 < k) (h53 : k < 2 ^ 53) :
    isNaN k.toFloat = false ∧ (k.toFloat == Binary64.infinity false) = false ∧
      (k.toFloat == Binary64.infinity true) = false ∧ (k.toFloat == 0) = false := by
  have hinf (neg : Bool) : (Binary64.infinity neg).toModel.unpack = .infinity (Binary64.signOf neg) := by
    rw [Binary64.infinity, Binary64.unpack_ofFields neg (by decide) (by decide),
      Binary64.unpack_packComponents_fields neg (by decide) (by decide)]
    rfl
  have hrank (neg : Bool) : (k.toFloat == Binary64.infinity neg) = false := by
    rw [Bool.eq_false_iff, ne_eq, FloatOrder.beq_iff, unpack_toFloat_exact hk h53, hinf]
    rintro ⟨-, -, h⟩
    cases neg <;> simp [rank, Binary64.signOf] at h
  refine ⟨?_, hrank false, hrank true, ?_⟩
  · rw [Bool.eq_false_iff, ne_eq, isNaN_iff, FloatOrder.toFloat_isNaN h53]
    exact Bool.false_ne_true
  · rw [beq_zero_toFloat, beq_eq_false_iff_ne]
    omega

/-- The shortest digits of a positive whole number below a million put the decimal point at
most six places after the first digit, and not before it: they round back to within half of the
number, so their value lies between `1/2` and a million. -/
theorem shortest_whole_point {k : Nat} (hk : 0 < k) (h6 : k < 10 ^ 6) :
    0 ≤ (Digits.shortest (wholeMantissa k) (wholeExponent k)).point ∧
      (Digits.shortest (wholeMantissa k) (wholeExponent k)).point ≤ 6 := by
  have h53 : k < 2 ^ 53 := by omega
  have hm := wholeMantissa_pos hk
  have hr := wholeMantissa_rounded hk h53
  have he : wholeExponent k ≤ 971 := by unfold wholeExponent; omega
  obtain ⟨hlo, hhi⟩ := (Digits.shortest_roundsTo hm hr he).bounds
  obtain ⟨q, j, hq, hd⟩ := Digits.shortest_eq_ofInteger_pos hm hr he
  obtain ⟨hbelow, habove⟩ := Digits.value_bounds hq j
  rw [← hd] at hbelow habove
  set d := Digits.shortest (wholeMantissa k) (wholeExponent k)
  -- the mantissa at its exponent is the number, and the unit of the exponent is at most one
  have hexact : (wholeMantissa k : ℚ) * 2 ^ wholeExponent k = k := by
    unfold wholeMantissa wholeExponent
    rw [Nat.shiftLeft_eq, zpow_neg, zpow_natCast]
    push_cast
    field_simp
  have hunit : (2 : ℚ) ^ wholeExponent k ≤ 1 := zpow_le_one_of_nonpos₀ one_le_two (by
    unfold wholeExponent; omega)
  have hpos : (0 : ℚ) < 2 ^ wholeExponent k := by positivity
  have hk1 : (1 : ℚ) ≤ k := by exact_mod_cast hk
  have hk6 : (k : ℚ) + 1 ≤ 10 ^ 6 := by exact_mod_cast h6
  have hvlo : (k : ℚ) - 1 / 2 ≤ d.value := by nlinarith
  have hvhi : d.value ≤ (k : ℚ) + 1 / 2 := by nlinarith
  constructor
  · by_contra hneg
    have hp : (10 : ℚ) ^ d.point ≤ 10 ^ (-1 : Int) :=
      zpow_le_zpow_right₀ (by norm_num) (by omega)
    norm_num at hp
    linarith
  · by_contra hbig
    have hp : (10 : ℚ) ^ (6 : Int) ≤ 10 ^ (d.point - 1) :=
      zpow_le_zpow_right₀ (by norm_num) (by omega)
    norm_num at hp
    linarith

/-- A positive whole number below a million is written positionally, by the general layout and
by ECMAScript's alike. -/
theorem formatNumber_whole {k : Nat} (hk : 0 < k) (h6 : k < 10 ^ 6) :
    formatNumber k.toFloat = (Digits.shortest (wholeMantissa k) (wholeExponent k)).positional ∧
      ecmaText k.toFloat = (Digits.shortest (wholeMantissa k) (wholeExponent k)).positional := by
  have h53 : k < 2 ^ 53 := by omega
  obtain ⟨h1, h2, h3, h4⟩ := toFloat_not_special hk h53
  obtain ⟨hp0, hp6⟩ := shortest_whole_point hk h6
  have hm : (wholeMantissa k == 0) = false := by
    rw [beq_eq_false_iff_ne]
    exact Nat.ne_of_gt (wholeMantissa_pos hk)
  unfold formatNumber ecmaText Binary64.writeFinite
  simp only [h1, h2, h3, h4, Bool.false_eq_true, if_false, Binary64.parts_toFloat hk h53, hm,
    Binary64.Style.general, Binary64.Style.ecma, String.empty_append]
  constructor <;> rw [if_pos (by simp only [Bool.and_eq_true, decide_eq_true_eq]; omega)]

/-- Below a million, a whole number's text is its ECMAScript text. -/
theorem formatNumber_eq_ecmaText_whole {k : Nat} (h6 : k < 10 ^ 6) :
    formatNumber k.toFloat = ecmaText k.toFloat := by
  rcases Nat.eq_zero_or_pos k with rfl | hk
  · exact (formatNumber_eq_ecmaText_iff _).2 (.inl (.inr (.inr (.inr rfl))))
  · obtain ⟨hf, he⟩ := formatNumber_whole hk h6
    rw [hf, he]

/-- The length a whole number up to `2^31` gives is the number. -/
theorem toLength_nat {n : Nat} (h : n ≤ 2 ^ 31) : (Value.nat n).toLength = n := by
  have h53 : n < 2 ^ 53 := by omega
  have hnan : isNaN n.toFloat = false := by
    rw [Bool.eq_false_iff, ne_eq, isNaN_iff, FloatOrder.toFloat_isNaN h53]
    exact Bool.false_ne_true
  have hle : n.toFloat ≤ 0 ↔ n = 0 := by
    rw [show (0 : Float) = (0 : Nat).toFloat from rfl, FloatOrder.toFloat_le_toFloat h53 (by decide)]
    omega
  have hgt : ¬ (2147483648 : Float) < n.toFloat := by
    rw [show (2147483648 : Float) = (2147483648 : Nat).toFloat from rfl,
      FloatOrder.toFloat_lt_toFloat (by decide) h53]
    omega
  unfold toLength Value.nat
  simp only [toNumber, hnan, Bool.false_or, gt_iff_lt, hgt, if_false]
  split
  · next h0 => exact (hle.1 (of_decide_eq_true h0)).symm
  · exact toUInt64_toFloat h53

end Value

/-! ### The operations on one object -/

namespace Ecma

/-- Computations on one object that keep what they did before a failure. -/
abbrev ObjM := ExceptT Fault (StateM Obj)

variable {α β : Type}

/-- The result and the final object of a computation started on `o`. -/
def ObjM.exec (x : ObjM α) (o : Obj) : Except Fault α × Obj := x.run.run o

namespace ObjM

@[simp]
theorem exec_pure (a : α) (o : Obj) : (pure a : ObjM α).exec o = (.ok a, o) := rfl

theorem exec_bind (x : ObjM α) (f : α → ObjM β) (o : Obj) :
    (x >>= f).exec o =
      match x.exec o with
      | (.ok a, o') => (f a).exec o'
      | (.error e, o') => (.error e, o') := by
  simp only [exec, ExceptT.run_bind, StateT.run_bind]
  rcases x.run.run o with ⟨_ | _, _⟩ <;> rfl

@[simp]
theorem exec_getThe (o : Obj) : (getThe Obj : ObjM Obj).exec o = (.ok o, o) := rfl

theorem exec_map (f : α → β) (x : ObjM α) (o : Obj) :
    (f <$> x).exec o =
      match x.exec o with
      | (.ok a, o') => (.ok (f a), o')
      | (.error e, o') => (.error e, o') := by
  rw [← bind_pure_comp, exec_bind]
  rcases x.exec o with ⟨_ | _, _⟩ <;> rfl

end ObjM

open ObjM

/-- `ToString(𝔽(k))`: the key that names index `k`. -/
def indexKey (k : Nat) : Bytes := Bytes.ofString (Value.ecmaText k.toFloat)

/-- `Get(O, P)`, on an object without prototype. -/
def get (p : Bytes) : ObjM Value := do pure ((← getThe Obj).get p)

/-- `HasProperty(O, P)`, on an object without prototype. -/
def has (p : Bytes) : ObjM Bool := do pure ((← getThe Obj).has p)

/-- A test that takes every key as present. -/
def assumePresent (_ : Bytes) : ObjM Bool := pure true

/-- `Set(O, P, V, true)`: a length that is no valid array length is a RangeError. -/
def set (p : Bytes) (v : Value) : ObjM Unit := do
  match (← getThe Obj).set p v with
  | .ok o => MonadStateOf.set o
  | .error e => throw (.runtime .rangeError (Bytes.ofString e.message))

/-- `DeletePropertyOrThrow(O, P)`: a property that cannot be deleted is a TypeError. -/
def deleteOrThrow (p : Bytes) : ObjM Unit := do
  let (ok, o) := (← getThe Obj).delete p
  if ok then MonadStateOf.set o
  else throw (.typeError (Bytes.ofString "Cannot delete property '" ++ p ++ Bytes.ofString "'"))

/-- `LengthOfArrayLike(O)` of an array: `ToLength` reads its length back. -/
def lengthOfArray : ObjM Nat := do pure (← getThe Obj).length

@[simp] theorem get_exec (p : Bytes) (o : Obj) : (get p).exec o = (.ok (o.get p), o) := rfl

@[simp] theorem has_exec (p : Bytes) (o : Obj) : (has p).exec o = (.ok (o.has p), o) := rfl

@[simp] theorem assumePresent_exec (p : Bytes) (o : Obj) :
    (assumePresent p).exec o = (.ok true, o) := rfl

@[simp] theorem lengthOfArray_exec (o : Obj) : lengthOfArray.exec o = (.ok o.length, o) := rfl

theorem set_exec (p : Bytes) (v : Value) (o : Obj) :
    (set p v).exec o =
      match o.set p v with
      | .ok o' => (.ok (), o')
      | .error e => (.error (.runtime .rangeError (Bytes.ofString e.message)), o) := by
  simp only [set, exec_bind, exec_getThe]
  split <;> rfl

theorem deleteOrThrow_exec (p : Bytes) (o : Obj) :
    (deleteOrThrow p).exec o =
      if (o.delete p).1 then (.ok (), (o.delete p).2)
      else (.error (.typeError (Bytes.ofString "Cannot delete property '" ++ p ++
        Bytes.ofString "'")), o) := by
  simp only [deleteOrThrow, exec_bind, exec_getThe]
  rcases o.delete p with ⟨_ | _, o'⟩ <;> rfl

/-! ### The algorithms -/

/-- `Array.prototype.pop` (ECMA-262, 23.1.3.22). -/
def pop : ObjM Value := do
  let len ← lengthOfArray
  if len = 0 then
    set lengthKey (.number 0)
    pure .undefined
  else
    let index := indexKey (len - 1)
    let element ← get index
    deleteOrThrow index
    set lengthKey (.nat (len - 1))
    pure element

/-- `pop` with the key of each index given by `key`; ECMAScript's keys make it `pop`. -/
def popAt (key : Nat → Bytes) : ObjM Value := do
  let len ← lengthOfArray
  if len = 0 then
    set lengthKey (.number 0)
    pure .undefined
  else
    let index := key (len - 1)
    let element ← get index
    deleteOrThrow index
    set lengthKey (.nat (len - 1))
    pure element

theorem pop_eq_popAt : pop = popAt indexKey := rfl

/-- `Array.prototype.push` of one element (ECMA-262, 23.1.3.23). -/
def push (x : Value) : ObjM Value := do
  let len ← lengthOfArray
  if 2 ^ 53 - 1 < len + 1 then
    throw (.typeError (Bytes.ofString "Array length exceeds 2^53 - 1"))
  set (indexKey len) x
  set lengthKey (.nat (len + 1))
  pure (.nat (len + 1))

/-- The moves of `shift` from the indices `ks` on: each element goes one index down, and where
`present` finds no element the slot below is deleted. -/
def shiftMoves (present : Bytes → ObjM Bool) : List Nat → ObjM Unit
  | [] => pure ()
  | k :: ks => do
    let src := indexKey k
    let dst := indexKey (k - 1)
    if ← present src then set dst (← get src) else deleteOrThrow dst
    shiftMoves present ks

/-- `Array.prototype.shift` (ECMA-262, 23.1.3.27), with `present` for `HasProperty`. -/
def shiftWith (present : Bytes → ObjM Bool) : ObjM Value := do
  let len ← lengthOfArray
  if len = 0 then
    set lengthKey (.number 0)
    pure .undefined
  else
    let first ← get (Bytes.ofString "0")
    shiftMoves present (List.range' 1 (len - 1))
    deleteOrThrow (indexKey (len - 1))
    set lengthKey (.nat (len - 1))
    pure first

/-- The loop of `every` and `some` with the callback `x => x` over the indices `ks`: the first
element `present` finds whose truthiness is `want` ends it with `want`; past the last index it
ends with `!want`. -/
def scanWith (present : Bytes → ObjM Bool) (want : Bool) : List Nat → ObjM Bool
  | [] => pure !want
  | k :: ks => do
    let hit ← if ← present (indexKey k) then (fun v => v.truthy == want) <$> get (indexKey k)
      else pure false
    if hit then pure want else scanWith present want ks

/-- `Array.prototype.every` with the callback `x => x` (ECMA-262, 23.1.3.6). -/
def everyWith (present : Bytes → ObjM Bool) : ObjM Value := do
  let len ← lengthOfArray
  pure (.bool (← scanWith present false (List.range len)))

/-- `Array.prototype.some` with the callback `x => x` (ECMA-262, 23.1.3.29). -/
def someWith (present : Bytes → ObjM Bool) : ObjM Value := do
  let len ← lengthOfArray
  pure (.bool (← scanWith present true (List.range len)))

/-- An array without holes: it holds an element at every index below its length. -/
def NoHoles (o : Obj) : Prop := ∀ k < o.length, o.has (indexKey k) = true

/-! ### Index keys -/

/-- Below a million, the key a whole number names is its ECMAScript key. -/
theorem propertyKey_nat {k : Nat} (h6 : k < 10 ^ 6) : Value.propertyKey (.nat k) = indexKey k := by
  simp only [Value.propertyKey, Value.nat, Value.toBytes, indexKey,
    Value.formatNumber_eq_ecmaText_whole h6]

theorem indexKey_zero : indexKey 0 = Bytes.ofString "0" := by
  have hzero : Value.ecmaText (0 : Nat).toFloat = "0" := by decide +kernel
  rw [indexKey, hzero]

/-- An index key below a million is no `length`: its text has no letter `e`. -/
theorem indexKey_ne_lengthKey {k : Nat} (h6 : k < 10 ^ 6) : indexKey k ≠ lengthKey := by
  rcases Nat.eq_zero_or_pos k with rfl | hk
  · rw [indexKey_zero]
    decide
  · intro h
    have htext : Value.ecmaText k.toFloat = "length" := by
      simpa [indexKey, lengthKey] using congrArg Bytes.toStringLossy h
    rw [(Value.formatNumber_whole hk h6).2] at htext
    refine Digits.e_not_mem_positional (Digits.shortest (wholeMantissa k) (wholeExponent k))
      (fun x hx => Digits.lt_ten_of_mem_shortest hx) ?_
    rw [htext]
    decide

end Ecma

namespace Obj

/-- A key an object does not hold reads as undefined. -/
theorem get_of_has_eq_false {o : Obj} {k : Bytes} (h : o.has k = false) : o.get k = .undefined := by
  unfold has at h
  unfold get
  simp only [Bool.or_eq_false_iff] at h
  rw [if_neg (by simp [h.1])]
  cases hl : o.lookup k with
  | none => rfl
  | some v => simp [hl] at h

/-- Writing one entry keeps every key the object held. -/
theorem has_withEntry {o : Obj} {k k' : Bytes} {v : Value} (h : o.has k' = true) :
    (o.withEntry k v).has k' = true := by
  unfold has at h ⊢
  rw [isArray_withEntry]
  by_cases hk : k' = k
  · subst hk
    simp [lookup_withEntry_self]
  · rwa [lookup_withEntry_ne hk]

end Obj

namespace Ecma

open ObjM

/-! ### Holes -/

theorem scanWith_cons_has (want : Bool) (k : Nat) (ks : List Nat) (o : Obj) :
    (scanWith has want (k :: ks)).exec o =
      if o.has (indexKey k) && ((o.get (indexKey k)).truthy == want) then (.ok want, o)
      else (scanWith has want ks).exec o := by
  cases hk : o.has (indexKey k) <;>
    simp only [scanWith, exec_bind, exec_map, has_exec, get_exec, hk, Bool.false_eq_true,
      if_true, if_false, Bool.true_and, Bool.false_and] <;>
    split <;> simp_all

theorem scanWith_cons_assumePresent (want : Bool) (k : Nat) (ks : List Nat) (o : Obj) :
    (scanWith assumePresent want (k :: ks)).exec o =
      if (o.get (indexKey k)).truthy == want then (.ok want, o)
      else (scanWith assumePresent want ks).exec o := by
  simp only [scanWith, exec_bind, exec_map, assumePresent_exec, get_exec, if_true]
  split <;> simp_all

/-- Taking every key as present, a move of `shift` reads an element and writes it one index
down. -/
theorem shiftMoves_cons_assumePresent (k : Nat) (ks : List Nat) :
    shiftMoves assumePresent (k :: ks) =
      (get (indexKey k) >>= fun v => set (indexKey (k - 1)) v >>= fun _ =>
        shiftMoves assumePresent ks) := by
  simp only [shiftMoves, assumePresent, pure_bind, if_true]

/-- Over indices the object holds, the scan does not depend on the test. -/
theorem scanWith_eq_of_present {o : Obj} (want : Bool) :
    ∀ ks : List Nat, (∀ k ∈ ks, o.has (indexKey k) = true) →
      (scanWith has want ks).exec o = (scanWith assumePresent want ks).exec o
  | [], _ => rfl
  | k :: ks, h => by
    rw [scanWith_cons_has, scanWith_cons_assumePresent, h k List.mem_cons_self, Bool.true_and,
      scanWith_eq_of_present want ks fun j hj => h j (List.mem_cons_of_mem k hj)]

/-- Looking for a truthy element, a hole is no hit whether it is tested or read. -/
theorem scanWith_hit_eq (o : Obj) :
    ∀ ks : List Nat, (scanWith has true ks).exec o = (scanWith assumePresent true ks).exec o
  | [] => rfl
  | k :: ks => by
    rw [scanWith_cons_has, scanWith_cons_assumePresent, scanWith_hit_eq o ks]
    cases hk : o.has (indexKey k)
    · -- a hole reads as undefined, which is not truthy
      simp [Obj.get_of_has_eq_false hk, Value.truthy]
    · rfl

theorem everyWith_eq_of_noHoles {o : Obj} (ho : NoHoles o) :
    (everyWith has).exec o = (everyWith assumePresent).exec o := by
  simp only [everyWith, exec_bind, lengthOfArray_exec]
  rw [scanWith_eq_of_present false _ fun k hk => ho k (List.mem_range.mp hk)]

theorem someWith_eq (o : Obj) : (someWith has).exec o = (someWith assumePresent).exec o := by
  simp only [someWith, exec_bind, lengthOfArray_exec]
  rw [scanWith_hit_eq]

/-- Over indices the object holds, the moves of `shift` do not depend on the test: each move
writes an element one index down, and a write keeps every element the later moves read. -/
theorem shiftMoves_eq_of_present :
    ∀ (ks : List Nat) (o : Obj), (∀ k ∈ ks, k ≤ 10 ^ 6 ∧ o.has (indexKey k) = true) →
      (shiftMoves has ks).exec o = (shiftMoves assumePresent ks).exec o
  | [], _, _ => rfl
  | k :: ks, o, h => by
    obtain ⟨hk6, hk⟩ := h k List.mem_cons_self
    have hset := Obj.set_eq_withEntry (o := o) (o.get (indexKey k))
      fun _ => indexKey_ne_lengthKey (k := k - 1) (by omega)
    simp only [shiftMoves, exec_bind, has_exec, assumePresent_exec, hk, if_true, get_exec,
      set_exec, hset]
    exact shiftMoves_eq_of_present ks _ fun j hj =>
      ⟨(h j (List.mem_cons_of_mem k hj)).1, Obj.has_withEntry (h j (List.mem_cons_of_mem k hj)).2⟩

theorem shiftWith_eq_of_noHoles {o : Obj} (hlen : o.length ≤ 10 ^ 6) (ho : NoHoles o) :
    (shiftWith has).exec o = (shiftWith assumePresent).exec o := by
  simp only [shiftWith, exec_bind, lengthOfArray_exec]
  split
  · rfl
  · simp only [exec_bind, get_exec]
    rw [shiftMoves_eq_of_present _ o fun k hk => by
      obtain ⟨h1, h2⟩ := List.mem_range'_1.mp hk
      exact ⟨by omega, ho k (by omega)⟩]

end Ecma

end TraceSynth
