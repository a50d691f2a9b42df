import Mathlib
import TraceSynth.Proofs.Host.Steps

/-!
# What the alias sets of a recording hold

The recorder keeps, for every tracked reference, the expressions that denote it in the original
arguments (`pre`) and at the current point of the run (`cur`). Whatever function runs and
whatever it does, these lists only ever hold

* in `pre`: the reference's argument slot in the input, or a field with a constant name read
  from a prestate path (`PreAlias`);
* in `cur`: the reference's argument slot, or the variable of an event already recorded whose
  operation returned the reference (`CurAlias`).

An event does not hold what its operation returned. A binding `bind` gives, for each event
variable, the reference the recorder registered it under, and the operations extend it as they
record: a read that records its event binds the event's variable to the reference the read
returns, and to nothing for a primitive (`getProp_binds_result`), and no later operation binds
that variable again. `AliasInv bind` states the above for the tracked references and for the
operands of the events, each against the events before it; every host operation keeps it, for a
binding that agrees with the old one on the variables already recorded (`getProp_keeps`, …).
Together with the fact that events are only ever appended, this is the invariant the runs of
whole functions are shown to keep.

A field prestate is a path that can be evaluated in the input, but nothing here says that it
evaluates to the reference: a field read after a write registers the written value under the
read path.
-/

namespace TraceSynth

namespace Aliasing

open RecM Host

/-- The reference a value is, if it is one. -/
def refOf : Value → Option Nat
  | .ref id => some id
  | _ => none

/-- The name of the event variable numbered `k`. -/
def varName (k : Nat) : String := "n" ++ toString k

theorem varName_injective {j k : Nat} (h : varName j = varName k) : j = k :=
  Nat.repr_injective (by simpa [varName] using h)

/-- `bind'` binds every variable `bind` binds, to the same reference. -/
def Extends (bind bind' : String → Option Nat) : Prop :=
  ∀ v id, bind v = some id → bind' v = some id

theorem Extends.refl (bind : String → Option Nat) : Extends bind bind := fun _ _ h => h

/-- Binding a variable that was unbound extends a binding. -/
theorem extends_update {bind : String → Option Nat} {v : String} (h : bind v = none)
    (b : Option Nat) : Extends bind (Function.update bind v b) := by
  intro w id hw
  have hne : w ≠ v := fun hwv => by
    rw [hwv, h] at hw
    cases hw
  rw [Function.update_of_ne hne]
  exact hw

/-- `b` binds the variables of the events `evs` as `bind` does. -/
def AgreesOn (evs : List Event) (bind b : String → Option Nat) : Prop :=
  ∀ ev ∈ evs, ∀ v, ev.var? = some v → b v = bind v

variable (input : Input)

/-- `e` is an argument slot holding reference `id` in the input. -/
def ArgSlotOf (id : Nat) (e : Expr) : Prop :=
  ∃ i, e = Expr.arg i ∧ input.args[i]? = some (.ref id)

/-- A prestate alias of reference `id`: its argument slot, or a field with a constant name read
from a prestate path. -/
def PreAlias (id : Nat) (e : Expr) : Prop :=
  ArgSlotOf input id e ∨ ∃ o c, e = .field o (.const c) ∧ o.isPrestate = true

/-- A current alias of reference `id` once the events `evs` are recorded, `bind` giving the
reference each event's operation returned: its argument slot, or the variable of one of these
events, bound to `id`. -/
def CurAlias (bind : String → Option Nat) (evs : List Event) (id : Nat) (e : Expr) : Prop :=
  ArgSlotOf input id e ∨ ∃ ev ∈ evs, ∃ v, ev.var? = some v ∧ e = .var v ∧ bind v = some id

/-- The alias sets of reference `id` hold aliases of it only. -/
def AliasesOk (bind : String → Option Nat) (evs : List Event) (id : Nat) (a : Aliases) : Prop :=
  (∀ e ∈ a.pre, PreAlias input id e) ∧ ∀ e ∈ a.cur, CurAlias input bind evs id e

/-- An operand is well aliased once the events `evs` are recorded: an alias set has two
non-empty sides made of aliases of one reference. Constants and snapshots always are. -/
def WellAliased (bind : String → Option Nat) (evs : List Event) : TraceExpr → Prop
  | .general pre cur => pre ≠ [] ∧ cur ≠ [] ∧ ∃ id, AliasesOk input bind evs id { pre, cur }
  | _ => True

/-- The operands of each event are well aliased against the events before it. -/
inductive EventsOk (bind : String → Option Nat) : List Event → Prop
  | nil : EventsOk bind []
  | snoc {evs : List Event} {ev : Event} : EventsOk bind evs →
      (∀ te, some te ∈ ev.operands → WellAliased input bind evs te) → EventsOk bind (evs ++ [ev])

/-- The variables of the events `evs` are event variables numbered below `next`. -/
def Issued (evs : List Event) (next : Nat) : Prop :=
  ∀ ev ∈ evs, ∀ v, ev.var? = some v → ∃ k < next, v = varName k

/-- The alias sets of every tracked reference hold its aliases, the recorded events are well
aliased, only variables of recorded events are bound, and those were numbered before the next
variable. -/
structure AliasInv (bind : String → Option Nat) (r : Recording) : Prop where
  tracked : ∀ p ∈ r.tracked, AliasesOk input bind r.events.toList p.1 p.2
  events : EventsOk input bind r.events.toList
  bound : ∀ v id, bind v = some id → ∃ ev ∈ r.events.toList, ev.var? = some v
  issued : Issued r.events.toList r.nextVar

/-- A point of a run seen from later on: the events recorded then, and the binding of their
variables. -/
structure Earlier where
  events : List Event
  bind : String → Option Nat

/-- `AliasInv` for some binding that agrees with an earlier point's on the variables of its
events, which are still the first ones. -/
def Inv (s : Earlier) (r : Recording) : Prop :=
  ∃ bind, AliasInv input bind r ∧ s.events <+: r.events.toList ∧ AgreesOn s.events s.bind bind

/-- A computation keeps the alias invariant relative to every earlier point. -/
def KeepsAliases {α : Type} (x : RecM α) : Prop := ∀ s, Keeps (Inv input s) x

variable {input}

theorem PreAlias.isPrestate {id : Nat} {e : Expr} (h : PreAlias input id e) :
    e.isPrestate = true := by
  rcases h with ⟨i, rfl, -⟩ | ⟨o, c, rfl, ho⟩
  · rfl
  · exact ho

section Mono

variable {bind bind' : String → Option Nat} {evs evs' : List Event}

/-- Current aliases stay aliases as events are appended and the binding grows. -/
theorem CurAlias.mono {id : Nat} {e : Expr} (h : CurAlias input bind evs id e)
    (hevs : evs <+: evs') (hb : Extends bind bind') : CurAlias input bind' evs' id e := by
  rcases h with hslot | ⟨ev, hev, v, hv, rfl, hbv⟩
  · exact .inl hslot
  · exact .inr ⟨ev, hevs.subset hev, v, hv, rfl, hb v id hbv⟩

theorem AliasesOk.mono {id : Nat} {a : Aliases} (h : AliasesOk input bind evs id a)
    (hevs : evs <+: evs') (hb : Extends bind bind') : AliasesOk input bind' evs' id a :=
  ⟨h.1, fun e he => (h.2 e he).mono hevs hb⟩

theorem WellAliased.mono {te : TraceExpr} (h : WellAliased input bind evs te)
    (hevs : evs <+: evs') (hb : Extends bind bind') : WellAliased input bind' evs' te := by
  cases te with
  | general pre cur =>
    obtain ⟨hpre, hcur, id, hok⟩ := h
    exact ⟨hpre, hcur, id, hok.mono hevs hb⟩
  | _ => trivial

/-- Each event's operands stay well aliased against the events before it as the binding grows. -/
theorem EventsOk.extend (h : EventsOk input bind evs) (hb : Extends bind bind') :
    EventsOk input bind' evs := by
  induction h with
  | nil => exact .nil
  | snoc _ hev ih => exact .snoc ih fun te hte => (hev te hte).mono (List.prefix_refl _) hb

end Mono

section Invariant

variable {bind : String → Option Nat} {r r' : Recording}

theorem Issued.mono {evs : List Event} {n n' : Nat} (h : Issued evs n) (hn : n ≤ n') :
    Issued evs n' := by
  intro ev hev v hv
  obtain ⟨k, hk, rfl⟩ := h ev hev v hv
  exact ⟨k, by omega, rfl⟩

/-- The tracked alias sets, the events and the variable counter are all the invariant reads; the
counter may only grow. -/
theorem AliasInv.congr (h : AliasInv input bind r) (ht : r'.tracked = r.tracked)
    (he : r'.events = r.events) (hn : r.nextVar ≤ r'.nextVar) : AliasInv input bind r' where
  tracked := ht ▸ he ▸ h.tracked
  events := he ▸ h.events
  bound := he ▸ h.bound
  issued := he ▸ h.issued.mono hn

/-- The next event variable is fresh: no recorded event binds it, and it is not bound. -/
theorem AliasInv.fresh (h : AliasInv input bind r) :
    (∀ ev ∈ r.events.toList, ev.var? ≠ some (varName r.nextVar)) ∧
      bind (varName r.nextVar) = none := by
  have hnew : ∀ ev ∈ r.events.toList, ev.var? ≠ some (varName r.nextVar) := by
    intro ev hev hv
    obtain ⟨k, hk, hkv⟩ := h.issued ev hev _ hv
    have := varName_injective hkv
    omega
  refine ⟨hnew, ?_⟩
  rcases hb : bind (varName r.nextVar) with _ | id
  · rfl
  · obtain ⟨ev, hev, hv⟩ := h.bound _ id hb
    exact absurd hv (hnew ev hev)

/-- A binding that grows, binding only variables of recorded events, keeps the invariant. -/
theorem AliasInv.extend (h : AliasInv input bind r) {bind' : String → Option Nat}
    (hb : Extends bind bind')
    (hbound : ∀ v id, bind' v = some id → ∃ ev ∈ r.events.toList, ev.var? = some v) :
    AliasInv input bind' r where
  tracked p hp := (h.tracked p hp).mono (List.prefix_refl _) hb
  events := h.events.extend hb
  bound := hbound
  issued := h.issued

/-- The alias sets of a tracked reference are among the tracked entries. -/
theorem AliasInv.aliasesOf (h : AliasInv input bind r) {id : Nat} {a : Aliases}
    (ha : r.aliasesOf id = some a) : AliasesOk input bind r.events.toList id a := by
  obtain ⟨l₁, l₂, hl, -⟩ := List.lookup_eq_some_iff.1 ha
  exact h.tracked (id, a) (by rw [hl]; simp)

/-- A snapshot is no alias set. -/
theorem wellAliased_snapshot (evs : List Event) (r : Recording) (v : Value) :
    WellAliased input bind evs (r.snapshot v) := by
  unfold Recording.snapshot
  split <;> trivial

/-- Every operand the recorder forms is well aliased against the events recorded so far; an
operand reads only the tracked alias sets, so it may be formed in any state that shares them. -/
theorem AliasInv.operand (h : AliasInv input bind r) (ht : r'.tracked = r.tracked) (v : Value) :
    WellAliased input bind r.events.toList (r'.operand v) := by
  cases v with
  | ref id =>
    rcases ha : r'.aliasesOf id with _ | a
    · simp only [Recording.operand, ha]
      exact wellAliased_snapshot _ _ _
    · have ha' : r.aliasesOf id = some a := by
        rw [← ha]
        simp only [Recording.aliasesOf, ht]
      simp only [Recording.operand, ha]
      by_cases hne : (!a.pre.isEmpty && !a.cur.isEmpty) = true
      · rw [if_pos hne]
        simp only [Bool.and_eq_true, Bool.not_eq_true', List.isEmpty_eq_false_iff] at hne
        exact ⟨hne.1, hne.2, id, h.aliasesOf ha'⟩
      · rw [if_neg hne]
        exact wellAliased_snapshot _ _ _
  | _ => trivial

/-- A field with a constant name read from a prestate path is a prestate alias of anything. -/
theorem PreAlias.field {id : Nat} {p : Expr} (c : Value) (hp : p.isPrestate = true) :
    PreAlias input id (.field p (.const c)) :=
  .inr ⟨p, c, rfl, hp⟩

/-- The variable of a recorded event bound to `id` is a current alias of `id`. -/
theorem CurAlias.var {evs : List Event} {id : Nat} {ev : Event} {v : String} (hev : ev ∈ evs)
    (hv : ev.var? = some v) (hb : bind v = some id) : CurAlias input bind evs id (.var v) :=
  .inr ⟨ev, hev, v, hv, rfl, hb⟩

/-- Appending an event whose operands are well aliased against the events before it, and whose
variable, if any, is numbered below the next one, keeps the invariant. -/
theorem AliasInv.push (h : AliasInv input bind r) {ev : Event}
    (hev : ∀ te, some te ∈ ev.operands → WellAliased input bind r.events.toList te)
    (hiss : ∀ v, ev.var? = some v → ∃ k < r.nextVar, v = varName k) :
    AliasInv input bind { r with events := r.events.push ev } where
  tracked p hp := by
    rw [Array.toList_push]
    exact (h.tracked p hp).mono (List.prefix_append _ _) (Extends.refl _)
  events := by
    rw [Array.toList_push]
    exact .snoc h.events hev
  bound v id hv := by
    obtain ⟨ev', hev', hv'⟩ := h.bound v id hv
    exact ⟨ev', by simp [hev'], hv'⟩
  issued := by
    rw [Array.toList_push]
    intro ev' hev' v hv
    rcases List.mem_append.1 hev' with hev' | hev'
    · exact h.issued ev' hev' v hv
    · rw [List.mem_singleton.1 hev'] at hv
      exact hiss v hv

/-- Changing the alias sets of one reference keeps the invariant when the new sets hold aliases
of it, for a reference already tracked and for one tracked from now on. -/
theorem AliasInv.modifyAliases (h : AliasInv input bind r) {id : Nat} {f : Aliases → Aliases}
    (hf : ∀ a, AliasesOk input bind r.events.toList id a →
      AliasesOk input bind r.events.toList id (f a))
    (hnew : AliasesOk input bind r.events.toList id (f {})) :
    AliasInv input bind (r.modifyAliases id f) := by
  unfold Recording.modifyAliases
  rcases ha : r.aliasesOf id with _ | a
  · refine ⟨fun p hp => ?_, h.events, h.bound, h.issued⟩
    rcases List.mem_append.1 hp with hp | hp
    · exact h.tracked p hp
    · rw [List.mem_singleton.1 hp]
      exact hnew
  · refine ⟨fun p hp => ?_, h.events, h.bound, h.issued⟩
    obtain ⟨q, hq, rfl⟩ := List.mem_map.1 hp
    by_cases hid : (q.1 == id) = true
    · simp only [hid, if_true]
      exact hf a (h.aliasesOf ha)
    · simp only [hid]
      exact h.tracked q hq

/-- The prestates of an operand are prestate paths. -/
theorem AliasInv.operand_preState (h : AliasInv input bind r) (id : Nat) :
    ∀ p ∈ (r.operand (.ref id)).preState, p.isPrestate = true := by
  have hsnap : ∀ p ∈ (r.snapshot (.ref id)).preState, p.isPrestate = true := by
    unfold Recording.snapshot
    split <;> simp [TraceExpr.preState]
  rcases ha : r.aliasesOf id with _ | a
  · simpa only [Recording.operand, ha] using hsnap
  · simp only [Recording.operand, ha]
    split
    · exact fun p hp => ((h.aliasesOf ha).1 p hp).isPrestate
    · exact hsnap

/-- The three ends of charging an event: refused once exhausted, appended past the budget, or
appended. -/
theorem emit_exec_cases (ev : Event) (r : Recording) :
    (emit ev).exec r = (.error .exhausted, r) ∨
      (emit ev).exec r =
        (.error .exhausted, { r with events := r.events.push ev, exhausted := true }) ∨
      (emit ev).exec r = (.ok (), { r with events := r.events.push ev }) := by
  rw [emit_exec]
  split
  · exact .inl rfl
  · split
    · exact .inr (.inl rfl)
    · exact .inr (.inr rfl)

/-- Registering prestates that are fields with constant names read from prestate paths keeps
the invariant. -/
theorem AliasInv.afterPreState (h : AliasInv input bind r) (v : Value) {exprs : List Expr}
    (hexprs : ∀ e ∈ exprs, ∃ p c, e = .field p (.const c) ∧ p.isPrestate = true) :
    AliasInv input bind ((addPreState v exprs).exec r).2 := by
  rw [addPreState_exec]
  cases v with
  | ref id =>
    dsimp only
    have hpre : ∀ e ∈ exprs, PreAlias input id e := fun e he => .inr (hexprs e he)
    refine AliasInv.modifyAliases ?_ ?_ ?_
    · exact h.congr rfl rfl (Nat.le_refl _)
    · intro a ha
      refine ⟨fun e he => ?_, ha.2⟩
      rcases List.mem_append.1 he with he | he
      · exact ha.1 e he
      · exact hpre e he
    · exact ⟨by simpa using hpre, by simp⟩
  | _ => exact h.congr rfl rfl (Nat.le_refl _)

/-- Registering the variable of a recorded event, not bound yet, as a current alias of a value:
the invariant holds with the variable bound to the value's reference. -/
theorem AliasInv.register (h : AliasInv input bind r) (v : Value) {var : String}
    (hnone : bind var = none) (hev : ∃ ev ∈ r.events.toList, ev.var? = some var) :
    AliasInv input (Function.update bind var (refOf v)) ((addCurState v (.var var)).exec r).2 := by
  rw [addCurState_exec]
  have hb : Extends bind (Function.update bind var (refOf v)) := extends_update hnone _
  have hbound : ∀ w id, Function.update bind var (refOf v) w = some id →
      ∃ ev ∈ r.events.toList, ev.var? = some w := by
    intro w id hw
    by_cases hwv : w = var
    · rw [hwv]
      exact hev
    · rw [Function.update_of_ne hwv] at hw
      exact h.bound w id hw
  cases v with
  | ref id =>
    dsimp only
    obtain ⟨ev, hevm, hvar⟩ := hev
    have hcur : CurAlias input (Function.update bind var (refOf (.ref id))) r.events.toList id
        (.var var) :=
      CurAlias.var hevm hvar (by simp [refOf])
    refine (h.extend hb hbound).modifyAliases (fun a ha => ⟨ha.1, ?_⟩) ⟨by simp, ?_⟩
    · intro e he
      rcases List.mem_append.1 he with he | he
      · exact ha.2 e he
      · rw [List.mem_singleton.1 he]
        exact hcur
    · intro e he
      rw [show e = .var var by simpa using he]
      exact hcur
  | _ =>
    -- a primitive is registered nowhere, and its variable stays unbound
    dsimp only
    simp only [refOf]
    rw [← hnone, Function.update_eq_self]
    exact h

/-- `AliasInv` with the events recorded so far as the earlier point. -/
theorem AliasInv.inv (h : AliasInv input bind r) : Inv input ⟨r.events.toList, bind⟩ r :=
  ⟨bind, h, List.prefix_refl _, fun _ _ _ _ => rfl⟩

/-- A step that keeps the invariant, for a binding that agrees with the old one on the variables
recorded before, and only appends events, keeps `Inv`. -/
theorem Inv.of_step {s : Earlier} (h : Inv input s r)
    (hstep : ∀ bind, AliasInv input bind r → r.events.toList <+: r'.events.toList ∧
      ∃ b, AliasInv input b r' ∧ AgreesOn r.events.toList bind b) : Inv input s r' := by
  obtain ⟨bind, hinv, hpre, hagree⟩ := h
  obtain ⟨hpfx, b, hb, hagree'⟩ := hstep bind hinv
  exact ⟨b, hb, hpre.trans hpfx, fun ev hev v hv =>
    (hagree' ev (hpre.subset hev) v hv).trans (hagree ev hev v hv)⟩

/-- A step after which every binding with the invariant still has it, appending events only,
keeps `Inv`. -/
theorem Inv.step {s : Earlier} (h : Inv input s r)
    (hstep : ∀ bind, AliasInv input bind r → AliasInv input bind r')
    (hev : r.events.toList <+: r'.events.toList) : Inv input s r' :=
  h.of_step fun bind hb => ⟨hev, bind, hstep bind hb, fun _ _ _ _ => rfl⟩

theorem Inv.congr {s : Earlier} (h : Inv input s r) (ht : r'.tracked = r.tracked)
    (he : r'.events = r.events) (hn : r.nextVar ≤ r'.nextVar) : Inv input s r' :=
  h.step (fun _ hb => hb.congr ht he hn) (by rw [he])

/-- Charging an event that binds no variable and going on, for every binding with the
invariant: the continuation starts from the state with the event appended. -/
theorem Inv.afterEmit_bind {s : Earlier} (h : Inv input s r) {ev : Event}
    (hev : ∀ bind, AliasInv input bind r →
      ∀ te, some te ∈ ev.operands → WellAliased input bind r.events.toList te)
    (hiss : ev.var? = none) {β : Type} {k : Unit → RecM β}
    (hk : Inv input s { r with events := r.events.push ev } →
      Inv input s ((k ()).exec { r with events := r.events.push ev }).2) :
    Inv input s ((Host.emit ev >>= k).exec r).2 := by
  have hpush : Inv input s { r with events := r.events.push ev } :=
    h.step (fun bind hb => hb.push (hev bind hb) fun v hv => by rw [hiss] at hv; cases hv)
      (by simp [Array.toList_push])
  rw [exec_bind]
  rcases emit_exec_cases ev r with he | he | he <;> rw [he]
  · exact h
  · exact hpush.congr rfl rfl (Nat.le_refl _)
  · exact hk hpush

variable (input) in
/-- What a read does to the invariant, from `r` where it holds for `bind` to the end `run`: the
events of `r` stay the first ones, and the invariant holds for a binding that agrees with `bind`
on their variables and, once the read returns `u` with its event recorded, binds the next event
variable of `r` to the reference `u` is. -/
def ReadBinds (bind : String → Option Nat) (r : Recording)
    (run : Except Fault Value × Recording) : Prop :=
  r.events.toList <+: run.2.events.toList ∧
    ∃ b, AliasInv input b run.2 ∧ AgreesOn r.events.toList bind b ∧
      ∀ u, run.1 = .ok u → r.events.size < run.2.events.size → b (varName r.nextVar) = refOf u

/-- A read that records nothing keeps the invariant with the binding as it was. -/
theorem ReadBinds.of_same (h : AliasInv input bind r) (res : Except Fault Value) :
    ReadBinds input bind r (res, r) :=
  ⟨List.prefix_refl _, bind, h, fun _ _ _ _ => rfl, fun _ _ hlt => absurd hlt (Nat.lt_irrefl _)⟩

/-- `ReadBinds` reads the start state's events and variable counter only. -/
theorem ReadBinds.congr {run : Except Fault Value × Recording} (h : ReadBinds input bind r' run)
    (he : r'.events = r.events) (hn : r'.nextVar = r.nextVar) : ReadBinds input bind r run := by
  unfold ReadBinds at h ⊢
  rwa [he, hn] at h

/-- The observed part of a read binds its variable to the reference the read returns. -/
theorem AliasInv.afterRead (h : AliasInv input bind r) {target : TraceExpr}
    (ht : WellAliased input bind r.events.toList target)
    (hpre : ∀ p ∈ target.preState, p.isPrestate = true) (c v : Value) :
    ReadBinds input bind r ((do
      let var ← freshVar
      Host.emit (.get target (.const c) var)
      addPreState v (target.preState.map fun p => .field p (TraceExpr.const c).expr)
      addCurState v (.var var)
      pure v : RecM Value).exec r) := by
  obtain ⟨hnew, hnone⟩ := h.fresh
  rw [exec_bind, freshVar_exec]
  dsimp only
  rw [show "n" ++ toString r.nextVar = varName r.nextVar from rfl]
  -- the read's event, with the fresh variable, appended to the state with the counter moved on
  have h₁ : AliasInv input bind { r with nextVar := r.nextVar + 1 } :=
    h.congr rfl rfl (Nat.le_succ _)
  have hops : ∀ te, some te ∈ (Event.get target (.const c) (varName r.nextVar)).operands →
      WellAliased input bind r.events.toList te := by
    intro te hte
    simp only [Event.operands, List.mem_cons, Option.some.injEq, List.not_mem_nil,
      or_false] at hte
    rcases hte with rfl | rfl
    · exact ht
    · trivial
  have hpush := h₁.push hops fun w hw => ⟨r.nextVar, Nat.lt_succ_self _, (Option.some.inj hw).symm⟩
  have hkeep : AgreesOn r.events.toList bind bind := fun _ _ _ _ => rfl
  rw [exec_bind]
  rcases emit_exec_cases (.get target (.const c) (varName r.nextVar))
    { r with nextVar := r.nextVar + 1 } with he | he | he <;> rw [he] <;> dsimp only
  · exact ⟨List.prefix_refl _, bind, h₁, hkeep, fun _ hok => by cases hok⟩
  · exact ⟨by simp [Array.toList_push], bind, hpush.congr rfl rfl (Nat.le_refl _), hkeep,
      fun _ hok => by cases hok⟩
  rw [exec_bind_of_ok _ (addPreState_ok _ _ _), exec_bind_of_ok _ (addCurState_ok _ _ _),
    exec_pure]
  refine ⟨?_, Function.update bind (varName r.nextVar) (refOf v), ?_,
    fun ev hev w hw => Function.update_of_ne ?_ _ _, ?_⟩
  · rw [addCurState_exec, addPreState_exec]
    cases v <;> simp [Array.toList_push]
  · refine (hpush.afterPreState v ?_).register v hnone ?_
    · intro e he
      obtain ⟨p, hp, rfl⟩ := List.mem_map.1 he
      exact ⟨p, c, rfl, hpre p hp⟩
    · rw [addPreState_events]
      exact ⟨.get target (.const c) (varName r.nextVar), by simp [Array.toList_push], rfl⟩
  · -- the variables recorded before are not the fresh one
    rintro rfl
    exact hnew ev hev hw
  · intro u hu _
    cases hu
    exact Function.update_self _ _ _

/-- A read binds the variable of the event it records, if it records one, to the reference it
returns, and keeps the binding of the variables recorded before. -/
theorem getProp_binds_result (h : AliasInv input bind r) (obj key : Value) :
    ReadBinds input bind r ((getProp obj key).exec r) := by
  unfold getProp
  rw [exec_bind, objectOf_exec]
  by_cases hnull : obj.isNullish = true
  · rw [if_pos hnull]
    exact ReadBinds.of_same h _
  rw [if_neg hnull]
  dsimp only
  cases obj with
  | ref id =>
    rcases ho : r.heap.obj? (.ref id) with _ | o
    · exact ReadBinds.of_same h _
    · simp only [exec_bind, recorded_exec]
      by_cases hobs : r.observes (.ref id) = true
      · rw [if_neg (by simp [hobs]), exec_bind, texpr_exec]
        dsimp only
        rw [exec_bind, keyExpr_exec]
        dsimp only
        -- the operands leave the events, the alias sets and the counter as they were
        have h₁ : AliasInv input bind
            ((r.noteOperand (.ref id)).noteOperand (keyValue o (Value.propertyKey key))) :=
          h.congr (by simp) (by simp) (by simp)
        refine (h₁.afterRead ?_ ?_ _ _).congr (by simp) (by simp)
        · simpa using h.operand rfl (.ref id)
        · exact h.operand_preState id
      · simp only [hobs, Bool.not_false, if_true, exec_pure]
        exact ReadBinds.of_same h _
  | _ => exact ReadBinds.of_same h _

theorem getProp_keeps (obj key : Value) : KeepsAliases input (getProp obj key) :=
  fun _ _ hr => hr.of_step fun _ hb =>
    let ⟨hpfx, b, hb', hagree, _⟩ := getProp_binds_result hb obj key
    ⟨hpfx, b, hb', hagree⟩

/-- The observed part of a write, then whatever follows: its event's operands are formed in
the state the event is charged in. -/
theorem Inv.afterWrite {s : Earlier} {r : Recording} (h : Inv input s r) (id : Nat)
    (val : Value) (o : Obj) (k : Bytes) {β : Type} {tail : RecM β}
    (htail : Keeps (Inv input s) tail) :
    Inv input s ((do
      let target ← texpr (.ref id)
      let name ← keyExpr o k
      let value ← texpr val
      Host.emit (.set target name value)
      tail : RecM β).exec r).2 := by
  rw [exec_bind, texpr_exec]
  dsimp only
  rw [exec_bind, keyExpr_exec]
  dsimp only
  rw [exec_bind, texpr_exec]
  dsimp only
  refine Inv.afterEmit_bind (h.congr (by simp) (by simp) (by simp)) (fun _ hb te hte => ?_) rfl
    fun h3 => htail _ h3
  simp only [Event.operands, List.mem_cons, Option.some.injEq, List.not_mem_nil,
    or_false] at hte
  rcases hte with rfl | rfl | rfl
  · exact hb.operand (by simp) (.ref id)
  · trivial
  · exact hb.operand (by simp) val

/-- The observed part of a delete, then whatever follows. -/
theorem Inv.afterDelete {s : Earlier} {r : Recording} (h : Inv input s r) (id : Nat)
    (o : Obj) (k : Bytes) {β : Type} {tail : RecM β} (htail : Keeps (Inv input s) tail) :
    Inv input s ((do
      let target ← texpr (.ref id)
      let name ← keyExpr o k
      Host.emit (.delete target name)
      tail : RecM β).exec r).2 := by
  rw [exec_bind, texpr_exec]
  dsimp only
  rw [exec_bind, keyExpr_exec]
  dsimp only
  refine Inv.afterEmit_bind (h.congr (by simp) (by simp) (by simp)) (fun _ hb te hte => ?_) rfl
    fun h3 => htail _ h3
  simp only [Event.operands, List.mem_cons, Option.some.injEq, List.not_mem_nil,
    or_false] at hte
  rcases hte with rfl | rfl
  · exact hb.operand (by simp) (.ref id)
  · trivial

theorem write_keeps (obj key val : Value) (verb : String) :
    KeepsAliases input (write obj key val verb) := by
  intro evs r hr
  unfold write
  rw [exec_bind, objectOf_exec]
  by_cases hnull : obj.isNullish = true
  · rw [if_pos hnull]
    exact hr
  rw [if_neg hnull]
  dsimp only
  cases obj with
  | ref id =>
    rcases ho : r.heap.obj? (.ref id) with _ | o
    · exact hr
    · simp only [exec_bind, recorded_exec]
      -- the heap update after the event, reached with and without observation
      refine Keeps.ite (fun r' hr' => hr'.afterWrite id val o _ ?_) ?_ r hr
      all_goals
        split
        · exact Keeps.modify fun r h => h.congr rfl rfl (Nat.le_refl _)
        · exact Keeps.throw _
  | _ => exact hr

theorem setProp_keeps (obj key val : Value) : KeepsAliases input (setProp obj key val) :=
  write_keeps obj key val "set"

theorem defineProp_keeps (obj key val : Value) : KeepsAliases input (defineProp obj key val) :=
  write_keeps obj key val "define"

theorem deleteProp_keeps (obj key : Value) : KeepsAliases input (deleteProp obj key) := by
  intro evs r hr
  unfold deleteProp
  rw [exec_bind, objectOf_exec]
  by_cases hnull : obj.isNullish = true
  · rw [if_pos hnull]
    exact hr
  rw [if_neg hnull]
  dsimp only
  cases obj with
  | ref id =>
    rcases ho : r.heap.obj? (.ref id) with _ | o
    · exact hr
    · simp only [exec_bind, recorded_exec]
      -- the heap update after the event, reached with and without observation
      refine Keeps.ite (fun r' hr' => hr'.afterDelete id o _ ?_) ?_ r hr
      all_goals
        refine Keeps.ite (Keeps.get.bind fun _ => (Keeps.throw _).bind fun _ => ?_) ?_
        all_goals exact Keeps.modify fun r h => h.congr rfl rfl (Nat.le_refl _)
  | _ => exact hr

theorem tick_keeps : KeepsAliases input tick := by
  intro evs r hr
  rw [tick_exec]
  by_cases hx : r.exhausted = true
  · rw [if_pos hx]
    exact hr
  rw [if_neg hx]
  by_cases hb : r.budget < r.ticks + 1
  · rw [if_pos hb]
    exact hr.congr rfl rfl (Nat.le_refl _)
  · rw [if_neg hb]
    exact hr.congr rfl rfl (Nat.le_refl _)

theorem allocate_keeps (array : Bool) : KeepsAliases input (allocate array) :=
  fun _ _ hr => hr.congr rfl rfl (Nat.le_refl _)

theorem typeOf_keeps (v : Value) : KeepsAliases input (typeOf v) := fun _ _ hr => hr

theorem isArray_keeps (v : Value) : KeepsAliases input (isArray v) := fun _ _ hr => hr

theorem recorded_keeps (v : Value) : KeepsAliases input (recorded v) := by
  intro evs r hr
  rw [recorded_exec]
  exact hr

theorem suspended_keeps {α : Type} {x : RecM α} (hx : KeepsAliases input x) :
    KeepsAliases input (suspended x) := by
  intro evs
  have hactive : ∀ b, Keeps (Inv input evs)
      (modify fun r => { r with active := b } : RecM PUnit) :=
    fun b => Keeps.modify fun r h => h.congr rfl rfl (Nat.le_refl _)
  unfold suspended
  exact Keeps.get.bind fun r0 => (hactive false).bind fun _ =>
    Keeps.tryCatch ((hx evs).bind fun v => (hactive r0.active).bind fun _ => Keeps.pure v)
      fun e => (hactive r0.active).bind fun _ => Keeps.throw e

end Invariant

end Aliasing

end TraceSynth
