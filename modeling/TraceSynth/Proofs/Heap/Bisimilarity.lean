import TraceSynth.Input.Basic
import TraceSynth.Proofs.Float.Order
import TraceSynth.Proofs.Run.WellFormed

/-!
# Structural equality is bisimilarity

Two inputs are compared object by object, each in its own heap. A *bisimulation* between two
heaps is a relation between their values that relates primitives only when they are the same
value, a reference only to a reference, a reference that names no object only to another such,
and two objects only when they have the same kind, name, length and key list and the relation
relates their values under each key (`Heap.IsBisimulation`).

Comparison records the pairs of references it meets and takes a pair met again as equal. That
is sound only because any difference stops the whole comparison: when it answers true, the
recorded pairs, with the primitives that are the same value, form a bisimulation
(`Heap.structEqWith_sound`). Conversely it never finds a difference between two values that
some bisimulation relates (`Heap.structEqWith_complete`). Its fuel is enough: each nested
comparison records a new pair of objects, and there are fewer pairs than the fuel.

Bisimulations compose, reverse and include the identity, so structural equality is an
equivalence on all inputs, cyclic and shared ones included.

## Main results

* `Input.equal_iff_bisimilar`: two inputs are equal exactly when some bisimulation relates
  their arguments pairwise;
* `Input.equal_decides_bisimilarity`: that, and equality is reflexive, symmetric and transitive,
  and every input equals its copy.
-/

namespace TraceSynth

namespace FloatOrder

open Unpacked

/-- Two floats are equal exactly when neither is NaN and both sit at one place on the line of
floats. -/
theorem beq_iff {a b : Float} :
    (a == b) = true ↔ a.isNaN = false ∧ b.isNaN = false ∧
      rank a.toModel.unpack = rank b.toModel.unpack := by
  change (a.toModel.unpack.compare b.toModel.unpack == some .eq) = true ↔ _
  by_cases h : a.isNaN = false ∧ b.isNaN = false
  · rw [compare_eq_rank h.1 h.2]
    simp only [beq_iff_eq, Option.some.injEq, compare_eq_iff_eq, h, true_and]
  · rw [compare_eq_none (isNaN_or h)]
    exact iff_of_false (by decide) fun h' => h ⟨h'.1, h'.2.1⟩

theorem beq_comm (a b : Float) : (a == b) = (b == a) := by
  apply Bool.eq_iff_iff.2
  rw [beq_iff, beq_iff]
  constructor <;> exact fun ⟨ha, hb, h⟩ => ⟨hb, ha, h.symm⟩

theorem beq_trans {a b c : Float} (hab : (a == b) = true) (hbc : (b == c) = true) :
    (a == c) = true := by
  obtain ⟨ha, -, hab⟩ := beq_iff.1 hab
  obtain ⟨-, hc, hbc⟩ := beq_iff.1 hbc
  exact beq_iff.2 ⟨ha, hc, hab.trans hbc⟩

end FloatOrder

namespace Value

/-- A float the model calls NaN is NaN. -/
theorem isNaN_iff (x : Float) : isNaN x = true ↔ x.isNaN = true := by
  unfold isNaN
  rw [bne, Bool.not_eq_true', Bool.eq_false_iff, ne_eq, FloatOrder.beq_iff]
  cases x.isNaN <;> simp

/-- Two numbers are the same value when both are NaN or they are equal. -/
theorem sameValue_number {x y : Float} :
    sameValue (.number x) (.number y) = true ↔
      (x.isNaN = true ∧ y.isNaN = true) ∨ (x == y) = true := by
  simp only [sameValue, Bool.or_eq_true, Bool.and_eq_true, isNaN_iff]

theorem sameValue_symm {a b : Value} (h : a.sameValue b = true) : b.sameValue a = true := by
  cases a <;> cases b
  case number.number x y =>
    rw [sameValue_number] at h ⊢
    rw [FloatOrder.beq_comm]
    exact h.imp (fun h => ⟨h.2, h.1⟩) id
  all_goals simp_all [sameValue, strictEquals]

theorem sameValue_trans {a b c : Value} (hab : a.sameValue b = true)
    (hbc : b.sameValue c = true) : a.sameValue c = true := by
  cases a <;> cases b <;> cases c
  case number.number.number x y z =>
    rw [sameValue_number] at hab hbc ⊢
    -- a NaN is equal to nothing, so a chain through NaN stays among NaNs
    rcases hab with ⟨hx, hy⟩ | hxy <;> rcases hbc with ⟨hy', hz⟩ | hyz
    · exact .inl ⟨hx, hz⟩
    · rw [(FloatOrder.beq_iff.1 hyz).1] at hy
      cases hy
    · rw [(FloatOrder.beq_iff.1 hxy).2.1] at hy'
      cases hy'
    · exact .inr (FloatOrder.beq_trans hxy hyz)
  all_goals simp_all [sameValue, strictEquals]

/-- The relation between values fixed by a relation `P` between references: a reference is
related only to a reference, as `P` says, and two primitives when they are the same value. -/
def Lift (P : Nat → Nat → Prop) : Value → Value → Prop
  | .ref x, .ref y => P x y
  | .ref _, _ => False
  | _, .ref _ => False
  | a, b => a.sameValue b = true

variable {P Q : Nat → Nat → Prop}

@[simp] theorem lift_ref {x y : Nat} : Lift P (.ref x) (.ref y) ↔ P x y := Iff.rfl

/-- Off pairs of references, `Lift` is sameness of value. -/
theorem lift_of_not_refs {a b : Value} (h : (a.isRef && b.isRef) = false) :
    Lift P a b ↔ a.sameValue b = true := by
  cases a <;> cases b <;> simp_all [Lift, isRef, sameValue, strictEquals]

theorem Lift.mono {a b : Value} (hPQ : ∀ x y, P x y → Q x y) (h : Lift P a b) : Lift Q a b := by
  cases a <;> cases b <;> simp_all [Lift]

theorem Lift.symm {a b : Value} (h : Lift P a b) : Lift (flip P) b a := by
  cases a <;> cases b <;> simp_all [Lift, flip] <;> exact sameValue_symm h

theorem Lift.trans {a b c : Value} (hab : Lift P a b) (hbc : Lift Q b c) :
    Lift (fun x z => ∃ y, P x y ∧ Q y z) a c := by
  cases a <;> cases b <;> cases c <;> simp only [Lift] at hab hbc ⊢
  all_goals first | exact ⟨_, hab, hbc⟩ | exact sameValue_trans hab hbc

end Value

namespace Obj

/-- Two objects have the same kind, name, length and key list, and `R` relates their values
under each key. -/
structure Alike (R : Value → Value → Prop) (oa ob : Obj) : Prop where
  kind : oa.kind = ob.kind
  name : oa.name = ob.name
  length : oa.length = ob.length
  keys : oa.keys = ob.keys
  get : ∀ k ∈ oa.keys, R (oa.get k) (ob.get k)

variable {R R' : Value → Value → Prop} {oa ob oc : Obj}

theorem Alike.mono (hR : ∀ u w, R u w → R' u w) (h : Alike R oa ob) : Alike R' oa ob :=
  ⟨h.kind, h.name, h.length, h.keys, fun k hk => hR _ _ (h.get k hk)⟩

theorem Alike.symm (h : Alike R oa ob) : Alike (flip R) ob oa :=
  ⟨h.kind.symm, h.name.symm, h.length.symm, h.keys.symm, fun k hk => h.get k (h.keys ▸ hk)⟩

theorem Alike.trans (hab : Alike R oa ob) (hbc : Alike R' ob oc) :
    Alike (Relation.Comp R R') oa oc :=
  ⟨hab.kind.trans hbc.kind, hab.name.trans hbc.name, hab.length.trans hbc.length,
    hab.keys.trans hbc.keys, fun k hk => ⟨_, hab.get k hk, hbc.get k (hab.keys ▸ hk)⟩⟩

theorem alike_self (o : Obj) : Alike (· = ·) o o :=
  ⟨rfl, rfl, rfl, rfl, fun _ _ => rfl⟩

end Obj

namespace Heap

/-- The objects two references name look alike, `R` judging their values, or neither reference
names an object. -/
def ObjectsAlike (ha hb : Heap) (R : Value → Value → Prop) (x y : Nat) : Prop :=
  match ha.obj? (.ref x), hb.obj? (.ref y) with
  | none, none => True
  | some oa, some ob => Obj.Alike R oa ob
  | _, _ => False

/-- `a` in `ha` and `b` in `hb` agree one level deep, `R` judging the values below. -/
def Agree (ha hb : Heap) (R : Value → Value → Prop) : Value → Value → Prop :=
  Value.Lift (ObjectsAlike ha hb R)

/-- A relation between the values of two heaps under which every related pair agrees. -/
def IsBisimulation (ha hb : Heap) (R : Value → Value → Prop) : Prop :=
  ∀ a b, R a b → Agree ha hb R a b

variable {ha hb hc : Heap} {R R' : Value → Value → Prop}

theorem ObjectsAlike.mono {x y : Nat} (hR : ∀ u w, R u w → R' u w)
    (h : ObjectsAlike ha hb R x y) : ObjectsAlike ha hb R' x y := by
  unfold ObjectsAlike at h ⊢
  split at h <;> simp_all [Obj.Alike.mono hR]

theorem ObjectsAlike.symm {x y : Nat} (h : ObjectsAlike ha hb R x y) :
    ObjectsAlike hb ha (flip R) y x := by
  unfold ObjectsAlike at h ⊢
  cases hx : ha.obj? (.ref x) <;> cases hy : hb.obj? (.ref y) <;> simp_all [Obj.Alike.symm]

theorem ObjectsAlike.trans {x y z : Nat} (hxy : ObjectsAlike ha hb R x y)
    (hyz : ObjectsAlike hb hc R' y z) : ObjectsAlike ha hc (Relation.Comp R R') x z := by
  unfold ObjectsAlike at hxy hyz ⊢
  cases hx : ha.obj? (.ref x) <;> cases hy : hb.obj? (.ref y) <;> cases hz : hc.obj? (.ref z) <;>
    simp_all
  exact hxy.trans hyz

/-- Equality is a bisimulation of a heap with itself. -/
theorem isBisimulation_eq (h : Heap) : IsBisimulation h h (· = ·) := by
  rintro a b rfl
  cases a with
  | ref x =>
    show ObjectsAlike h h _ x x
    unfold ObjectsAlike
    cases h.obj? (.ref x) with
    | none => trivial
    | some o => exact Obj.alike_self o
  | _ => exact Value.sameValue_self _

theorem IsBisimulation.symm (h : IsBisimulation ha hb R) : IsBisimulation hb ha (flip R) :=
  fun b a hba => (h a b hba).symm.mono fun _ _ hxy => hxy.symm

theorem IsBisimulation.comp (hab : IsBisimulation ha hb R) (hbc : IsBisimulation hb hc R') :
    IsBisimulation ha hc (Relation.Comp R R') := by
  rintro a c ⟨b, h₁, h₂⟩
  exact ((hab a b h₁).trans (hbc b c h₂)).mono fun _ _ ⟨_, hxy, hyz⟩ => hxy.trans hyz

/-! ### Unfolding the comparison -/

/-- Off pairs of references, comparison is sameness of value and records nothing. -/
theorem structEqWith_of_not_refs {fuel : Nat} {seen : List (Nat × Nat)} {a b : Value}
    (h : (a.isRef && b.isRef) = false) :
    structEqWith ha hb (fuel + 1) seen a b = (a.sameValue b, seen) := by
  cases a <;> cases b <;> simp_all [structEqWith, Value.isRef, Value.sameValue,
    Value.strictEquals]

theorem structEqWith_seen {fuel x y : Nat} {seen : List (Nat × Nat)} (h : (x, y) ∈ seen) :
    structEqWith ha hb (fuel + 1) seen (.ref x) (.ref y) = (true, seen) := by
  rw [structEqWith]
  simp [h]

theorem structEqWith_dangling {fuel x y : Nat} {seen : List (Nat × Nat)} (h : (x, y) ∉ seen)
    (hx : ha.obj? (.ref x) = none) (hy : hb.obj? (.ref y) = none) :
    structEqWith ha hb (fuel + 1) seen (.ref x) (.ref y) = (true, (x, y) :: seen) := by
  rw [structEqWith]
  simp [h, hx, hy]

theorem structEqWith_lopsided {fuel x y : Nat} {seen : List (Nat × Nat)} (h : (x, y) ∉ seen)
    (hxy : (ha.obj? (.ref x)).isSome ≠ (hb.obj? (.ref y)).isSome) :
    (structEqWith ha hb (fuel + 1) seen (.ref x) (.ref y)).1 = false := by
  rw [structEqWith]
  cases hx : ha.obj? (.ref x) <;> cases hy : hb.obj? (.ref y) <;> simp_all

/-- A new pair of objects is compared by its kinds, lengths, names and key lists, then by the
values under each key, threading the recorded pairs and stopping at the first difference. -/
theorem structEqWith_objects {fuel x y : Nat} {seen : List (Nat × Nat)} {oa ob : Obj}
    (h : (x, y) ∉ seen) (hx : ha.obj? (.ref x) = some oa) (hy : hb.obj? (.ref y) = some ob) :
    structEqWith ha hb (fuel + 1) seen (.ref x) (.ref y) =
      if oa.kind != ob.kind || oa.length != ob.length || oa.name != ob.name then
        (false, (x, y) :: seen)
      else if oa.keys != ob.keys then (false, (x, y) :: seen)
      else oa.keys.foldl (fun (acc : Bool × List (Nat × Nat)) k =>
          if acc.1 then structEqWith ha hb fuel acc.2 (oa.get k) (ob.get k) else acc)
          (true, (x, y) :: seen) := by
  rw [structEqWith]
  simp only [List.contains_iff_mem, h, hx, hy]
  rfl

/-- A fold that has met a difference keeps it. -/
theorem foldl_stopped (g : List (Nat × Nat) → Bytes → Bool × List (Nat × Nat)) :
    ∀ (ks : List Bytes) (seen : List (Nat × Nat)),
      ks.foldl (fun (acc : Bool × List (Nat × Nat)) k => if acc.1 then g acc.2 k else acc)
        (false, seen) = (false, seen)
  | [], _ => rfl
  | _ :: ks, seen => foldl_stopped g ks seen

/-! ### Completeness: no difference between bisimilar values -/

/-- A fold whose every step answers true answers true. -/
theorem foldl_true (g : List (Nat × Nat) → Bytes → Bool × List (Nat × Nat))
    (ks : List Bytes) (hg : ∀ k ∈ ks, ∀ seen, (g seen k).1 = true) :
    ∀ seen, (ks.foldl (fun (acc : Bool × List (Nat × Nat)) k => if acc.1 then g acc.2 k else acc)
      (true, seen)).1 = true := by
  induction ks with
  | nil => intro seen; rfl
  | cons k ks ih =>
    intro seen
    rw [List.foldl_cons, if_pos rfl]
    rcases hg' : g seen k with ⟨b, seen'⟩
    have hb : b = true := by simpa [hg'] using hg k (List.mem_cons_self ..) seen
    subst hb
    exact ih (fun k' hk' => hg k' (List.mem_cons_of_mem _ hk')) seen'

/-- Comparison never finds a difference between two values a bisimulation relates, whatever it
has recorded and whatever its fuel. -/
theorem structEqWith_complete (hR : IsBisimulation ha hb R) :
    ∀ (fuel : Nat) (seen : List (Nat × Nat)) (a b : Value), R a b →
      (structEqWith ha hb fuel seen a b).1 = true := by
  intro fuel
  induction fuel with
  | zero => intro seen a b _; rfl
  | succ fuel ih =>
    intro seen a b hab
    have hagree := hR a b hab
    by_cases hrefs : (a.isRef && b.isRef) = true
    · obtain ⟨x, rfl⟩ : ∃ x, a = .ref x := by cases a <;> simp_all [Value.isRef]
      obtain ⟨y, rfl⟩ : ∃ y, b = .ref y := by cases b <;> simp_all [Value.isRef]
      by_cases hseen : (x, y) ∈ seen
      · rw [structEqWith_seen hseen]
      · change ObjectsAlike ha hb R x y at hagree
        unfold ObjectsAlike at hagree
        cases hx : ha.obj? (.ref x) with
        | none =>
          cases hy : hb.obj? (.ref y) with
          | none => rw [structEqWith_dangling hseen hx hy]
          | some ob => simp [hx, hy] at hagree
        | some oa =>
          cases hy : hb.obj? (.ref y) with
          | none => simp [hx, hy] at hagree
          | some ob =>
            simp only [hx, hy] at hagree
            rw [structEqWith_objects hseen hx hy, if_neg (by simp [hagree.kind, hagree.length,
              hagree.name]), if_neg (by simp [hagree.keys])]
            exact foldl_true _ _ (fun k hk seen' => ih seen' _ _ (hagree.get k hk)) _
    · rw [structEqWith_of_not_refs (Bool.eq_false_iff.2 hrefs)]
      exact (Value.lift_of_not_refs (Bool.eq_false_iff.2 hrefs)).1 hagree

/-! ### Soundness: the recorded pairs form a bisimulation -/

/-- The pairs of references recorded in `seen`, with the primitives that are the same value. -/
def Recorded (seen : List (Nat × Nat)) : Value → Value → Prop :=
  Value.Lift fun x y => (x, y) ∈ seen

theorem Recorded.mono {seen seen' : List (Nat × Nat)} (hsub : seen ⊆ seen') {a b : Value}
    (h : Recorded seen a b) : Recorded seen' a b :=
  Value.Lift.mono (fun _ _ hxy => hsub hxy) h

/-- `seen'` extends `seen` by pairs whose objects look alike, judged by what `seen'` records. -/
def Grows (ha hb : Heap) (seen seen' : List (Nat × Nat)) : Prop :=
  ∃ new, seen' = new ++ seen ∧ ∀ p ∈ new, ObjectsAlike ha hb (Recorded seen') p.1 p.2

theorem Grows.refl (seen : List (Nat × Nat)) : Grows ha hb seen seen :=
  ⟨[], rfl, fun _ h => by simp at h⟩

theorem Grows.subset {seen seen' : List (Nat × Nat)} (h : Grows ha hb seen seen') :
    seen ⊆ seen' := by
  obtain ⟨new, rfl, -⟩ := h
  exact List.subset_append_right _ _

theorem Grows.trans {s₁ s₂ s₃ : List (Nat × Nat)} (h₁₂ : Grows ha hb s₁ s₂)
    (h₂₃ : Grows ha hb s₂ s₃) : Grows ha hb s₁ s₃ := by
  obtain ⟨new₁, rfl, hnew₁⟩ := h₁₂
  obtain ⟨new₂, rfl, hnew₂⟩ := h₂₃
  refine ⟨new₂ ++ new₁, (List.append_assoc _ _ _).symm, fun p hp => ?_⟩
  rcases List.mem_append.1 hp with hp | hp
  · exact hnew₂ p hp
  · exact (hnew₁ p hp).mono fun _ _ => Recorded.mono (List.subset_append_right _ _)

/-- The pairs of references that both name an object, which are the pairs a comparison can
descend into. -/
def objectPairs (ha hb : Heap) : Finset (Nat × Nat) :=
  Finset.Icc 1 ha.size ×ˢ Finset.Icc 1 hb.size

/-- The number of pairs of objects not yet recorded, which bounds how deep comparison descends. -/
def unrecorded (ha hb : Heap) (seen : List (Nat × Nat)) : Nat :=
  ((objectPairs ha hb).filter (· ∉ seen)).card

theorem obj?_ref_bounds {h : Heap} {x : Nat} {o : Obj} (hx : h.obj? (.ref x) = some o) :
    1 ≤ x ∧ x ≤ h.size := by
  simp only [obj?, beq_iff_eq] at hx
  split_ifs at hx with h0
  obtain ⟨hlt, -⟩ := Array.getElem?_eq_some_iff.1 hx
  unfold size
  omega

theorem unrecorded_le_of_subset {seen seen' : List (Nat × Nat)} (hsub : seen ⊆ seen') :
    unrecorded ha hb seen' ≤ unrecorded ha hb seen :=
  Finset.card_le_card (Finset.monotone_filter_right _ fun _ _ h h' => h (hsub h'))

/-- Recording a new pair of objects leaves fewer to record. -/
theorem unrecorded_cons_lt {seen : List (Nat × Nat)} {x y : Nat} {oa ob : Obj}
    (hx : ha.obj? (.ref x) = some oa) (hy : hb.obj? (.ref y) = some ob) (h : (x, y) ∉ seen) :
    unrecorded ha hb ((x, y) :: seen) < unrecorded ha hb seen := by
  apply Finset.card_lt_card
  rw [Finset.ssubset_iff_of_subset (Finset.monotone_filter_right _ fun _ _ h h' =>
    h (List.mem_cons_of_mem _ h'))]
  have hpair : (x, y) ∈ objectPairs ha hb := by
    obtain ⟨hx₁, hx₂⟩ := obj?_ref_bounds hx
    obtain ⟨hy₁, hy₂⟩ := obj?_ref_bounds hy
    simp [objectPairs, hx₁, hx₂, hy₁, hy₂]
  exact ⟨(x, y), Finset.mem_filter.2 ⟨hpair, h⟩, by simp⟩

theorem unrecorded_lt_pairFuel (seen : List (Nat × Nat)) :
    unrecorded ha hb seen < pairFuel ha hb := by
  have hle : unrecorded ha hb seen ≤ ha.size * hb.size := by
    calc unrecorded ha hb seen ≤ (objectPairs ha hb).card := Finset.card_filter_le _ _
      _ = ha.size * hb.size := by simp [objectPairs]
  unfold pairFuel
  nlinarith

/-- A fold over keys whose steps each answer true and grow the record, as comparison with
enough fuel does, grows the record and relates the values under every key. -/
theorem foldl_sound {fuel : Nat} {oa ob : Obj}
    (ih : ∀ (seen seen' : List (Nat × Nat)) (a b : Value), unrecorded ha hb seen < fuel →
      structEqWith ha hb fuel seen a b = (true, seen') → Grows ha hb seen seen' ∧ Recorded seen' a b) :
    ∀ (ks : List Bytes) (seen seen' : List (Nat × Nat)), unrecorded ha hb seen < fuel →
      ks.foldl (fun (acc : Bool × List (Nat × Nat)) k =>
        if acc.1 then structEqWith ha hb fuel acc.2 (oa.get k) (ob.get k) else acc)
        (true, seen) = (true, seen') →
      Grows ha hb seen seen' ∧ ∀ k ∈ ks, Recorded seen' (oa.get k) (ob.get k) := by
  intro ks
  induction ks with
  | nil =>
    intro seen seen' _ h
    cases h
    exact ⟨Grows.refl _, fun _ h => by simp at h⟩
  | cons k ks ihks =>
    intro seen seen' hfuel h
    rw [List.foldl_cons, if_pos rfl] at h
    rcases hstep : structEqWith ha hb fuel seen (oa.get k) (ob.get k) with ⟨b, seen₁⟩
    rw [hstep] at h
    cases b with
    | false =>
      have hstop := foldl_stopped (fun s k => structEqWith ha hb fuel s (oa.get k) (ob.get k)) ks
        seen₁
      cases h.symm.trans hstop
    | true =>
      obtain ⟨hgrow₁, hk⟩ := ih seen seen₁ _ _ hfuel hstep
      obtain ⟨hgrow, hks⟩ := ihks seen₁ seen'
        (lt_of_le_of_lt (unrecorded_le_of_subset hgrow₁.subset) hfuel) h
      refine ⟨hgrow₁.trans hgrow, fun k' hk' => ?_⟩
      rcases List.mem_cons.1 hk' with rfl | hk'
      · exact hk.mono hgrow.subset
      · exact hks k' hk'

/-- When comparison with enough fuel answers true, it has grown its record by pairs of
objects that look alike, judged by the record it ends with, and that record relates the two
values. -/
theorem structEqWith_sound : ∀ (fuel : Nat) (seen seen' : List (Nat × Nat)) (a b : Value),
    unrecorded ha hb seen < fuel → structEqWith ha hb fuel seen a b = (true, seen') →
    Grows ha hb seen seen' ∧ Recorded seen' a b := by
  intro fuel
  induction fuel with
  | zero => intro _ _ _ _ hfuel; exact absurd hfuel (Nat.not_lt_zero _)
  | succ fuel ih =>
    intro seen seen' a b hfuel h
    by_cases hrefs : (a.isRef && b.isRef) = true
    · obtain ⟨x, rfl⟩ : ∃ x, a = .ref x := by cases a <;> simp_all [Value.isRef]
      obtain ⟨y, rfl⟩ : ∃ y, b = .ref y := by cases b <;> simp_all [Value.isRef]
      by_cases hseen : (x, y) ∈ seen
      · rw [structEqWith_seen hseen] at h
        cases h
        exact ⟨Grows.refl _, hseen⟩
      · cases hx : ha.obj? (.ref x) with
        | none =>
          cases hy : hb.obj? (.ref y) with
          | none =>
            -- two references naming no object: recorded, nothing below
            rw [structEqWith_dangling hseen hx hy] at h
            cases h
            refine ⟨⟨[(x, y)], rfl, fun p hp => ?_⟩, List.mem_cons_self ..⟩
            rw [List.mem_singleton.1 hp]
            simp [ObjectsAlike, hx, hy]
          | some ob =>
            have hdiff : (structEqWith ha hb (fuel + 1) seen (.ref x) (.ref y)).1 = false :=
              structEqWith_lopsided hseen (by simp [hx, hy])
            rw [h] at hdiff
            cases hdiff
        | some oa =>
          cases hy : hb.obj? (.ref y) with
          | none =>
            have hdiff : (structEqWith ha hb (fuel + 1) seen (.ref x) (.ref y)).1 = false :=
              structEqWith_lopsided hseen (by simp [hx, hy])
            rw [h] at hdiff
            cases hdiff
          | some ob =>
            rw [structEqWith_objects hseen hx hy] at h
            by_cases hshape :
                (oa.kind != ob.kind || oa.length != ob.length || oa.name != ob.name) = true
            · rw [if_pos hshape] at h
              cases h
            by_cases hkeys : (oa.keys != ob.keys) = true
            · rw [if_neg hshape, if_pos hkeys] at h
              cases h
            rw [if_neg hshape, if_neg hkeys] at h
            simp only [Bool.or_eq_true, bne_iff_ne, ne_eq, not_or, not_not] at hshape hkeys
            -- the children are compared with the pair recorded, one pair fewer to record
            obtain ⟨hgrow, hchildren⟩ := foldl_sound ih oa.keys _ seen'
              (Nat.lt_of_lt_of_le (unrecorded_cons_lt hx hy hseen) (Nat.lt_succ_iff.1 hfuel)) h
            obtain ⟨new, rfl, hnew⟩ := hgrow
            refine ⟨⟨new ++ [(x, y)], by simp, fun p hp => ?_⟩, by simp [Recorded]⟩
            rcases List.mem_append.1 hp with hp | hp
            · exact hnew p hp
            · rw [List.mem_singleton.1 hp]
              simp only [ObjectsAlike, hx, hy]
              exact ⟨hshape.1.1, hshape.2, hshape.1.2, hkeys, hchildren⟩
    · rw [structEqWith_of_not_refs (Bool.eq_false_iff.2 hrefs)] at h
      obtain ⟨hsame, rfl⟩ := Prod.mk.inj h
      exact ⟨Grows.refl _, (Value.lift_of_not_refs (Bool.eq_false_iff.2 hrefs)).2 hsame⟩

/-- A record grown from nothing, with the primitives that are the same value, is a
bisimulation. -/
theorem isBisimulation_recorded {seen : List (Nat × Nat)} (h : Grows ha hb [] seen) :
    IsBisimulation ha hb (Recorded seen) := by
  obtain ⟨new, hseen, hnew⟩ := h
  rw [List.append_nil] at hseen
  subst hseen
  intro a b hab
  by_cases hrefs : (a.isRef && b.isRef) = true
  · obtain ⟨x, rfl⟩ : ∃ x, a = .ref x := by cases a <;> simp_all [Value.isRef]
    obtain ⟨y, rfl⟩ : ∃ y, b = .ref y := by cases b <;> simp_all [Value.isRef]
    exact hnew (x, y) hab
  · exact (Value.lift_of_not_refs (Bool.eq_false_iff.2 hrefs)).2
      ((Value.lift_of_not_refs (Bool.eq_false_iff.2 hrefs)).1 hab)

end Heap

namespace Input

open Heap

/-- Some bisimulation between the two heaps relates the arguments pairwise. -/
def Bisimilar (a b : Input) : Prop :=
  ∃ R, IsBisimulation a.heap b.heap R ∧ List.Forall₂ R a.args b.args

variable {ha hb : Heap}

theorem argsEqual_complete {R : Value → Value → Prop} (hR : IsBisimulation ha hb R) (fuel : Nat)
    {as bs : List Value} (h : List.Forall₂ R as bs) :
    ∀ seen, argsEqual ha hb fuel seen as bs = true := by
  induction h with
  | nil => intro seen; rfl
  | cons hab _ ih =>
    intro seen
    simp only [argsEqual, Bool.and_eq_true]
    exact ⟨structEqWith_complete hR fuel seen _ _ hab, ih _⟩

theorem argsEqual_sound {fuel : Nat} :
    ∀ (as bs : List Value) (seen : List (Nat × Nat)), unrecorded ha hb seen < fuel →
      argsEqual ha hb fuel seen as bs = true →
      ∃ seen', Grows ha hb seen seen' ∧ List.Forall₂ (Recorded seen') as bs
  | [], [], seen, _, _ => ⟨seen, Grows.refl _, .nil⟩
  | a :: as, b :: bs, seen, hfuel, h => by
    simp only [argsEqual, Bool.and_eq_true] at h
    obtain ⟨hsame, hrest⟩ := h
    rcases hstep : structEqWith ha hb fuel seen a b with ⟨same, seen₁⟩
    rw [hstep] at hsame hrest
    cases hsame
    obtain ⟨hgrow₁, hab⟩ := structEqWith_sound fuel seen seen₁ a b hfuel hstep
    obtain ⟨seen', hgrow, hrel⟩ := argsEqual_sound as bs seen₁
      (lt_of_le_of_lt (unrecorded_le_of_subset hgrow₁.subset) hfuel) hrest
    exact ⟨seen', hgrow₁.trans hgrow, .cons (hab.mono hgrow.subset) hrel⟩
  | [], _ :: _, _, _, h => by simp [argsEqual] at h
  | _ :: _, [], _, _, h => by simp [argsEqual] at h

/-- Two inputs are equal exactly when they have as many arguments and some bisimulation between
their heaps relates the arguments pairwise. -/
theorem equal_iff_bisimilar (a b : Input) :
    a.equal b = true ↔ a.args.length = b.args.length ∧ a.Bisimilar b := by
  unfold equal
  rw [Bool.and_eq_true, beq_iff_eq]
  constructor
  · rintro ⟨hlen, h⟩
    obtain ⟨seen, hgrow, hrel⟩ :=
      argsEqual_sound a.args b.args [] (unrecorded_lt_pairFuel []) h
    exact ⟨hlen, Recorded seen, isBisimulation_recorded hgrow, hrel⟩
  · rintro ⟨hlen, R, hR, hrel⟩
    exact ⟨hlen, argsEqual_complete hR _ hrel []⟩

theorem forall₂_comp {R R' : Value → Value → Prop} {as bs cs : List Value}
    (h₁ : List.Forall₂ R as bs) (h₂ : List.Forall₂ R' bs cs) :
    List.Forall₂ (Relation.Comp R R') as cs := by
  induction h₁ generalizing cs with
  | nil => cases h₂; exact .nil
  | cons hab _ ih =>
    cases h₂ with
    | cons hbc h₂ => exact .cons ⟨_, hab, hbc⟩ (ih h₂)

theorem Bisimilar.refl (a : Input) : a.Bisimilar a :=
  ⟨(· = ·), isBisimulation_eq a.heap, List.forall₂_same.2 fun _ _ => rfl⟩

theorem Bisimilar.symm {a b : Input} (h : a.Bisimilar b) : b.Bisimilar a := by
  obtain ⟨R, hR, hargs⟩ := h
  exact ⟨flip R, hR.symm, List.Forall₂.flip (R := flip R) hargs⟩

theorem Bisimilar.trans {a b c : Input} (hab : a.Bisimilar b) (hbc : b.Bisimilar c) :
    a.Bisimilar c := by
  obtain ⟨R, hR, hargs⟩ := hab
  obtain ⟨R', hR', hargs'⟩ := hbc
  exact ⟨Relation.Comp R R', hR.comp hR', forall₂_comp hargs hargs'⟩

/-- Structural equality of inputs decides bisimilarity: two inputs are equal exactly when they
have as many arguments and some bisimulation between their heaps relates the arguments pairwise.
So equality is reflexive, symmetric and transitive on all inputs, cyclic and shared ones
included, and every input equals its copy. A copy is a value of its own: changing it leaves the
input it was taken from as it was. -/
theorem equal_decides_bisimilarity :
    (∀ a b : Input, a.equal b = true ↔ a.args.length = b.args.length ∧ a.Bisimilar b) ∧
    (∀ a : Input, a.equal a = true) ∧
    (∀ a b : Input, a.equal b = true → b.equal a = true) ∧
    (∀ a b c : Input, a.equal b = true → b.equal c = true → a.equal c = true) ∧
    (∀ a : Input, a.equal a.clone = true) := by
  have hrefl : ∀ a : Input, a.equal a = true := fun a =>
    (equal_iff_bisimilar a a).2 ⟨rfl, Bisimilar.refl a⟩
  refine ⟨equal_iff_bisimilar, hrefl, fun a b h => ?_, fun a b c hab hbc => ?_, hrefl⟩
  · obtain ⟨hlen, hab⟩ := (equal_iff_bisimilar a b).1 h
    exact (equal_iff_bisimilar b a).2 ⟨hlen.symm, hab.symm⟩
  · obtain ⟨hlen, hab⟩ := (equal_iff_bisimilar a b).1 hab
    obtain ⟨hlen', hbc⟩ := (equal_iff_bisimilar b c).1 hbc
    exact (equal_iff_bisimilar a c).2 ⟨hlen.trans hlen', hab.trans hbc⟩

/-- An object that holds itself, passed twice, equals its copy both ways round. -/
theorem equal_decides_bisimilarity_self_loop :
    let loop : Obj :=
      { kind := .plain, props := [(Bytes.ofString "x", .ref 1)], order := [Bytes.ofString "x"] }
    let a : Input := { heap := { objects := #[loop] }, args := [.ref 1, .ref 1] }
    a.equal a.clone = true ∧ a.Bisimilar a.clone ∧ a.clone.equal a = true := by
  intro _ a
  have hcopy := equal_decides_bisimilarity.2.2.2.2 a
  exact ⟨hcopy, ((equal_decides_bisimilarity.1 a a.clone).1 hcopy).2,
    equal_decides_bisimilarity.2.2.1 a a.clone hcopy⟩

end Input

end TraceSynth
