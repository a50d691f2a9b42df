import TraceSynth.Run.Interp
import TraceSynth.Proofs.Host.Steps
import TraceSynth.Proofs.Mutation.Scope
import Mathlib.Tactic.SplitIfs

/-!
# Programs that read only declared variables

Reading a variable that has no value is the interpreter's one reference error: the host's
operations and the natives fail for other reasons only. A program starts with every variable it
declares bound to undefined, and giving a variable a value never unbinds another, so a program
whose statements read only declared variables never fails with a reference error, on any
arguments and from any recording state.

The variables a statement reads (`Stmt.reads`) are those of its expressions, except the variable
an assignment, a call or a loop writes: a loop reads its own variable without a lookup that can
fail, and a declaration's target has no value yet.

`RecM.Ends F Q x` reads a host computation as a total triple: from any state, `x` returns a value
satisfying `Q` or fails with a fault satisfying `F`.

## Main results

* `Host.call_unreferenced`: calling a function value fails with no reference error, at any
  nesting depth;
* `Interp.exec_unreferenced`: statements that read only bound variables keep them bound and fail
  with no reference error;
* `Program.run_unreferenced`: a program that reads only variables it declares never fails with a
  reference error.
-/

namespace TraceSynth

/-- Whether a fault is a reference error. -/
def Fault.isReference : Fault → Bool
  | .runtime .referenceError _ => true
  | _ => false

namespace RecM

variable {α β : Type}

/-- From any state, `x` returns a value satisfying `Q` or fails with a fault satisfying `F`. -/
def Ends (F : Fault → Prop) (Q : α → Prop) (x : RecM α) : Prop :=
  ∀ r, match (x.exec r).1 with
    | .ok a => Q a
    | .error e => F e

namespace Ends

variable {F : Fault → Prop} {Q Q' : α → Prop} {R : β → Prop}

theorem pure {a : α} (h : Q a) : Ends F Q (Pure.pure a) := fun _ => h

theorem throw {e : Fault} (h : F e) : Ends F Q (MonadExcept.throw e) := fun _ => h

theorem throwThe {e : Fault} (h : F e) : Ends F Q (throwThe Fault e) := fun _ => h

theorem get : Ends F (fun _ => True) (MonadState.get : RecM Recording) := fun _ => trivial

theorem modify {f : Recording → Recording} : Ends F (fun _ => True) (modify f : RecM PUnit) :=
  fun _ => trivial

theorem mono {x : RecM α} (h : Ends F Q x) (hQ : ∀ a, Q a → Q' a) : Ends F Q' x := fun r => by
  have hr := h r
  rcases hres : (x.exec r).1 with e | a <;> rw [hres] at hr
  · exact hr
  · exact hQ a hr

theorem bind {x : RecM α} {f : α → RecM β} (hx : Ends F Q x) (hf : ∀ a, Q a → Ends F R (f a)) :
    Ends F R (x >>= f) := fun r => by
  rw [exec_bind]
  have hr := hx r
  rcases hres : x.exec r with ⟨e | a, r'⟩ <;> rw [hres] at hr
  · exact hr
  · exact hf a hr r'

theorem map {x : RecM α} {f : α → β} (hx : Ends F Q x) (hf : ∀ a, Q a → R (f a)) :
    Ends F R (f <$> x) := by
  rw [← bind_pure_comp]
  exact hx.bind fun a ha => pure (hf a ha)

theorem ite {c : Prop} [Decidable c] {x y : RecM α} (hx : Ends F Q x) (hy : Ends F Q y) :
    Ends F Q (if c then x else y) := by
  split
  · exact hx
  · exact hy

/-- A handler that fails as allowed, or returns as the body would, keeps the triple. -/
theorem tryCatch {x : RecM α} {h : Fault → RecM α} (hx : Ends F Q x)
    (hh : ∀ e, F e → Ends F Q (h e)) : Ends F Q (MonadExcept.tryCatch x h) := fun r => by
  rw [exec_tryCatch]
  have hr := hx r
  rcases hres : x.exec r with ⟨e | a, r'⟩ <;> rw [hres] at hr
  · exact hh e hr r'
  · exact hr

theorem mapM {γ : Type} {f : γ → RecM α} :
    ∀ {cs : List γ}, (∀ c ∈ cs, Ends F (fun _ => True) (f c)) →
      Ends F (fun _ => True) (cs.mapM f)
  | [], _ => pure trivial
  | c :: cs, hf => by
    rw [List.mapM_cons]
    exact (hf c List.mem_cons_self).bind fun _ _ =>
      (mapM fun c' hc => hf c' (List.mem_cons_of_mem c hc)).bind fun _ _ => pure trivial

end Ends

end RecM

open RecM

namespace Host

/-! ### The host fails with no reference error -/

theorem objectOf_unreferenced (obj key : Value) (verb : String) :
    Ends (·.isReference = false) (fun _ => True) (objectOf obj key verb) := fun r => by
  rw [objectOf_exec]
  split_ifs
  · exact rfl
  · trivial

theorem recorded_unreferenced (v : Value) :
    Ends (·.isReference = false) (fun _ => True) (recorded v) := fun r => by
  rw [recorded_exec]
  trivial

theorem texpr_unreferenced (v : Value) :
    Ends (·.isReference = false) (fun _ => True) (texpr v) := fun r => by
  rw [texpr_exec]
  trivial

theorem keyExpr_unreferenced (o : Obj) (k : Bytes) :
    Ends (·.isReference = false) (fun _ => True) (keyExpr o k) := fun r => by
  rw [keyExpr_exec]
  trivial

theorem freshVar_unreferenced : Ends (·.isReference = false) (fun _ => True) freshVar :=
  fun r => by
    rw [freshVar_exec]
    trivial

/-- Charging an event fails only when the budget is exhausted. -/
theorem emit_unreferenced (ev : Event) :
    Ends (·.isReference = false) (fun _ => True) (emit ev) := fun r => by
  rw [emit_exec]
  split_ifs
  · exact rfl
  · exact rfl
  · trivial

/-- Charging a round fails only when the budget is exhausted. -/
theorem tick_unreferenced : Ends (·.isReference = false) (fun _ => True) tick := fun r => by
  rw [tick_exec]
  split_ifs
  · exact rfl
  · exact rfl
  · trivial

theorem addPreState_unreferenced (v : Value) (exprs : List Expr) :
    Ends (·.isReference = false) (fun _ => True) (addPreState v exprs) := fun r => by
  rw [addPreState_ok]
  trivial

theorem addCurState_unreferenced (v : Value) (e : Expr) :
    Ends (·.isReference = false) (fun _ => True) (addCurState v e) := fun r => by
  rw [addCurState_ok]
  trivial

theorem allocate_unreferenced (array : Bool) :
    Ends (·.isReference = false) (fun _ => True) (allocate array) := fun _ => trivial

theorem typeOf_unreferenced (v : Value) :
    Ends (·.isReference = false) (fun _ => True) (typeOf v) :=
  Ends.get.bind fun _ _ => Ends.pure trivial

theorem isArray_unreferenced (v : Value) :
    Ends (·.isReference = false) (fun _ => True) (isArray v) :=
  Ends.get.bind fun _ _ => Ends.pure trivial

/-- Suspending observation fails as the computation does. -/
theorem suspended_unreferenced {α : Type} {x : RecM α}
    (hx : Ends (·.isReference = false) (fun _ => True) x) :
    Ends (·.isReference = false) (fun _ => True) (suspended x) :=
  Ends.get.bind fun _ _ => Ends.modify.bind fun _ _ =>
    (hx.bind fun _ _ => Ends.modify.bind fun _ _ => Ends.pure trivial).tryCatch
      fun _ he => Ends.modify.bind fun _ _ => Ends.throw he

theorem getProp_unreferenced (obj key : Value) :
    Ends (·.isReference = false) (fun _ => True) (getProp obj key) := by
  unfold getProp
  refine (objectOf_unreferenced obj key _).bind fun ⟨o?, k⟩ _ => ?_
  dsimp only
  split
  · exact Ends.pure trivial
  · refine (recorded_unreferenced obj).bind fun _ _ => Ends.ite (Ends.pure trivial) ?_
    exact (texpr_unreferenced obj).bind fun _ _ => (keyExpr_unreferenced _ k).bind fun _ _ =>
      freshVar_unreferenced.bind fun _ _ => (emit_unreferenced _).bind fun _ _ =>
        (addPreState_unreferenced _ _).bind fun _ _ =>
          (addCurState_unreferenced _ _).bind fun _ _ => Ends.pure trivial

/-- A write fails with a type error on a nullish object or a range error on a bad length. -/
theorem write_unreferenced (obj key val : Value) (verb : String) :
    Ends (·.isReference = false) (fun _ => True) (write obj key val verb) := by
  unfold write
  refine (objectOf_unreferenced obj key _).bind fun ⟨o?, k⟩ _ => ?_
  dsimp only
  split
  · exact Ends.pure trivial
  · -- the event when observed, then the heap update or the range error
    refine (recorded_unreferenced obj).bind fun _ _ => Ends.ite ((texpr_unreferenced obj).bind
      fun _ _ => (keyExpr_unreferenced _ k).bind fun _ _ => (texpr_unreferenced val).bind
        fun _ _ => (emit_unreferenced _).bind fun _ _ => ?_) ?_
    all_goals
      split
      · exact Ends.modify
      · exact Ends.throw rfl

theorem setProp_unreferenced (obj key val : Value) :
    Ends (·.isReference = false) (fun _ => True) (setProp obj key val) :=
  write_unreferenced obj key val _

theorem defineProp_unreferenced (obj key val : Value) :
    Ends (·.isReference = false) (fun _ => True) (defineProp obj key val) :=
  write_unreferenced obj key val _

/-- A deletion fails with a type error on a nullish object or an array's length. -/
theorem deleteProp_unreferenced (obj key : Value) :
    Ends (·.isReference = false) (fun _ => True) (deleteProp obj key) := by
  unfold deleteProp
  refine (objectOf_unreferenced obj key _).bind fun ⟨o?, k⟩ _ => ?_
  dsimp only
  split
  · exact Ends.pure trivial
  · -- the event when observed, then the heap update or the refusal
    refine (recorded_unreferenced obj).bind fun _ _ => Ends.ite ((texpr_unreferenced obj).bind
      fun _ _ => (keyExpr_unreferenced _ k).bind fun _ _ => (emit_unreferenced _).bind
        fun _ _ => ?_) ?_
    all_goals
      exact Ends.ite (Ends.get.bind fun _ _ => Ends.bind (Q := fun _ => True) (Ends.throw rfl) fun _ _ => Ends.modify)
        Ends.modify

end Host

namespace Native

/-- A native fails with no reference error when the calls it makes do not: it throws a value,
breaks an invariant or fails plainly. -/
theorem run_unreferenced {call : Value → Value → List Value → RecM Value}
    (hcall : ∀ fn this args, Ends (·.isReference = false) (fun _ => True) (call fn this args))
    (f : Native) (this : Value) (args : List Value) :
    Ends (·.isReference = false) (fun _ => True) (Native.run call f this args) := by
  cases f with
  | double | identity | this => exact Ends.pure trivial
  | throw | brokenInvariant | plainFailure => exact Ends.throwThe rfl
  | getLength => exact Host.getProp_unreferenced _ _
  | allocate =>
    exact (Host.allocate_unreferenced false).bind fun o _ =>
      (Host.setProp_unreferenced o _ _).bind fun _ _ => Ends.pure trivial
  | setX => exact (Host.setProp_unreferenced _ _ _).bind fun _ _ => Ends.pure trivial
  | typeName =>
    exact (Host.typeOf_unreferenced _).bind fun _ _ =>
      (Host.isArray_unreferenced _).bind fun _ _ => Ends.pure trivial
  | callWith => exact hcall _ _ _
  | picky =>
    unfold Native.run
    dsimp only
    split
    · exact Ends.ite (Ends.pure trivial) (Ends.throwThe rfl)
    · exact Ends.throwThe rfl

end Native

namespace Host

/-- Calling a function value fails with no reference error, at any nesting depth: a call of
anything else is a type error, and a call too deep an invariant violation. -/
theorem call_unreferenced : ∀ (depth : Nat) (fn this : Value) (args : List Value),
    Ends (·.isReference = false) (fun _ => True) (call depth fn this args)
  | 0, _, _, _ => Ends.throwThe rfl
  | depth + 1, fn, this, args => by
    have hnative := Native.run_unreferenced (call_unreferenced depth)
    unfold call
    refine Ends.get.bind fun r _ => ?_
    dsimp only
    split
    · refine (recorded_unreferenced fn).bind fun _ _ => Ends.ite (hnative _ this args) ?_
      -- the observed call: operands, the event, the callee unobserved, the result's alias
      refine (texpr_unreferenced fn).bind fun _ _ => freshVar_unreferenced.bind fun _ _ => ?_
      refine Ends.ite (Ends.bind (Ends.pure (Q := fun _ => True) trivial) fun _ _ => ?_)
        (Ends.bind (Ends.map (R := fun _ => True) (texpr_unreferenced this) fun _ _ => trivial)
          fun _ _ => ?_)
      all_goals
        exact (Ends.mapM fun v _ => texpr_unreferenced v).bind fun _ _ =>
          (emit_unreferenced _).bind fun _ _ =>
            (suspended_unreferenced (hnative _ this args)).bind fun res _ =>
              (recorded_unreferenced res).bind fun _ _ => Ends.ite
                ((addCurState_unreferenced _ _).bind fun _ _ => Ends.pure trivial)
                (Ends.pure trivial)
    · exact Ends.throwThe rfl

end Host

namespace Env

/-- The variables that have a value. -/
def names (env : Env) : List String := env.vars.map (·.1)

theorem isSome_get?_iff {env : Env} {x : String} : (env.get? x).isSome ↔ x ∈ env.names := by
  simp [get?, names, List.lookup_isSome_iff]

/-- Giving a variable a value keeps the variables bound and binds it, last if it is new. -/
theorem names_set (env : Env) (x : String) (v : Value) :
    (env.set x v).names = if env.vars.any (·.1 == x) then env.names else env.names ++ [x] := by
  unfold set names
  split
  · simp only [List.map_map]
    apply List.map_congr_left
    intro p _
    by_cases h : p.1 = x <;> simp [h]
  · simp

theorem names_subset_set (env : Env) (x : String) (v : Value) :
    env.names ⊆ (env.set x v).names := by
  rw [names_set]
  split
  · exact List.Subset.refl _
  · exact List.subset_append_left _ _

theorem mem_names_set (env : Env) (x : String) (v : Value) : x ∈ (env.set x v).names := by
  rw [names_set]
  split
  · next h =>
    obtain ⟨p, hp, hpx⟩ := List.any_eq_true.1 h
    exact List.mem_map.2 ⟨p, hp, by simpa using hpx⟩
  · simp

/-- Binding each of a list of variables in turn binds them all and keeps the others. -/
theorem names_foldl_set (ds : List (String × Nat)) (v : Value) :
    ∀ env : Env, env.names ⊆ (ds.foldl (fun env d => env.set d.1 v) env).names ∧
      ds.map (·.1) ⊆ (ds.foldl (fun env d => env.set d.1 v) env).names := by
  induction ds with
  | nil => exact fun env => ⟨List.Subset.refl _, List.nil_subset _⟩
  | cons d ds ih =>
    intro env
    obtain ⟨hkeep, hall⟩ := ih (env.set d.1 v)
    refine ⟨List.Subset.trans (names_subset_set env d.1 v) hkeep, ?_⟩
    exact List.cons_subset.2 ⟨hkeep (mem_names_set env d.1 v), hall⟩

end Env

namespace Stmt

/-- The variables of an optional expression. -/
def optVars : Option Expr → List String
  | some e => e.vars
  | none => []

/-- The variables a statement reads: those of its expressions, except the variable an
assignment to a variable, a call or a loop writes. The arms of a conditional and the body of a
loop are statements of their own. -/
def reads : Stmt → List String
  | .assign (.var _) rhs _ => optVars rhs
  | .assign lhs rhs _ => lhs.vars ++ optVars rhs
  | .ret e | .raise e => e.vars
  | .deleteProp o n => o.vars ++ n.vars
  | .defineProp o n v => o.vars ++ n.vars ++ v.vars
  | .ite c _ _ => c.vars
  | .loop _ a b c _ => a.vars ++ b.vars ++ c.vars
  | .call _ f args recv _ => f.vars ++ optVars recv ++ args.flatMap Expr.vars
  | .seq _ | .brk => []

/-- Every statement of `s`, `s` included, reads only variables of `D`. -/
def ReadsWithin (D : List String) (s : Stmt) : Prop := ∀ t ∈ s.all, ∀ x ∈ t.reads, x ∈ D

instance (D : List String) (s : Stmt) : Decidable (s.ReadsWithin D) :=
  inferInstanceAs (Decidable (∀ t ∈ s.all, ∀ x ∈ t.reads, x ∈ D))

theorem mem_allList {u : Stmt} {ss : List Stmt} : u ∈ allList ss ↔ ∃ s ∈ ss, u ∈ s.all := by
  induction ss with
  | nil => simp [allList]
  | cons s rest ih => simp [allList, ih]

theorem mem_all_self {s : Stmt} (h : ∀ ss, s ≠ .seq ss) : s ∈ s.all := by
  cases s with
  | seq ss => exact absurd rfl (h ss)
  | _ => simp [all]

namespace ReadsWithin

variable {D : List String}

/-- A statement reads within `D` itself. -/
theorem reads {s : Stmt} (h : s.ReadsWithin D) : ∀ x ∈ s.reads, x ∈ D := by
  by_cases hs : ∃ ss, s = .seq ss
  · obtain ⟨ss, rfl⟩ := hs
    simp [Stmt.reads]
  · exact h s (mem_all_self fun ss h' => hs ⟨ss, h'⟩)

theorem of_mem_seq {ss : List Stmt} {s : Stmt} (h : (Stmt.seq ss).ReadsWithin D) (hs : s ∈ ss) :
    s.ReadsWithin D :=
  fun t ht => h t (mem_allList.2 ⟨s, hs, ht⟩)

theorem thn {c : Expr} {t e : Stmt} (h : (Stmt.ite c t e).ReadsWithin D) : t.ReadsWithin D :=
  fun u hu => h u (by simp [all, hu])

theorem els {c : Expr} {t e : Stmt} (h : (Stmt.ite c t e).ReadsWithin D) : e.ReadsWithin D :=
  fun u hu => h u (by simp [all, hu])

theorem body {x : String} {a b c : Expr} {body : Stmt}
    (h : (Stmt.loop x a b c body).ReadsWithin D) : body.ReadsWithin D :=
  fun u hu => h u (by simp [all, hu])

end ReadsWithin

end Stmt

/-- Every statement of the program reads only variables the program declares. -/
def Program.ReadsDeclared (p : Program) : Prop := p.body.ReadsWithin (p.declarations.map (·.1))

instance (p : Program) : Decidable p.ReadsDeclared :=
  inferInstanceAs (Decidable (p.body.ReadsWithin _))

namespace Interp

/-- An expression whose variables are bound evaluates with no reference error. -/
theorem eval_unreferenced (args : List Value) (env : Env) :
    ∀ e : Expr, (∀ x ∈ e.vars, x ∈ env.names) →
      Ends (·.isReference = false) (fun _ => True) (eval args env e)
  | .const _, _ => Ends.pure trivial
  | .var x, h => by
    have hx : (env.get? x).isSome := Env.isSome_get?_iff.2 (h x (by simp [Expr.vars]))
    unfold eval
    split
    · exact Ends.pure trivial
    · next hnone => simp [hnone] at hx
  | .alloc array, _ => Host.allocate_unreferenced array
  | .argument i, h => (eval_unreferenced args env i h).bind fun _ _ => Ends.pure trivial
  | .field o n, h => by
    simp only [Expr.vars, List.mem_append] at h
    exact (eval_unreferenced args env o fun x hx => h x (.inl hx)).bind fun _ _ =>
      (eval_unreferenced args env n fun x hx => h x (.inr hx)).bind fun _ _ =>
        Host.getProp_unreferenced _ _
  | .binary op a b, h => by
    simp only [Expr.vars, List.mem_append] at h
    unfold eval
    refine (eval_unreferenced args env a fun x hx => h x (.inl hx)).bind fun _ _ =>
      (eval_unreferenced args env b fun x hx => h x (.inr hx)).bind fun _ _ => ?_
    cases op <;> exact Ends.pure trivial
  | .not e, h => (eval_unreferenced args env e h).bind fun _ _ => Ends.pure trivial

/-- Running statements that read only variables of `D`, with `D` bound, fails with no reference
error and ends with `D` still bound: a statement, a list of statements and the rounds of a loop,
by induction on the fuel. -/
theorem exec_unreferenced (args : List Value) (D : List String) : ∀ fuel : Nat,
    (∀ env s, s.ReadsWithin D → D ⊆ env.names →
      Ends (·.isReference = false) (fun res => D ⊆ res.2.names) (exec args fuel env s)) ∧
    (∀ env ss, (∀ s ∈ ss, s.ReadsWithin D) → D ⊆ env.names →
      Ends (·.isReference = false) (fun res => D ⊆ res.2.names) (execList args fuel env ss)) ∧
    (∀ env x stop step body, (∀ y ∈ stop.vars ++ step.vars, y ∈ D) → body.ReadsWithin D →
      D ⊆ env.names →
      Ends (·.isReference = false) (fun res => D ⊆ res.2.names) (loop args fuel env x stop step body))
  | 0 => ⟨fun _ _ _ _ => Ends.throw rfl, fun _ _ _ _ => Ends.throw rfl,
      fun _ _ _ _ _ _ _ _ => Ends.throw rfl⟩
  | fuel + 1 => by
    obtain ⟨ihStmt, ihList, ihLoop⟩ := exec_unreferenced args D fuel
    -- an expression whose variables are read within `D` evaluates with no reference error
    have hev : ∀ env, D ⊆ env.names → ∀ e : Expr, (∀ x ∈ e.vars, x ∈ D) →
        Ends (·.isReference = false) (fun _ => True) (eval args env e) :=
      fun env hD e he => eval_unreferenced args env e fun x hx => hD (he x hx)
    refine ⟨fun env s hs hD => ?_, fun env ss hss hD => ?_,
      fun env x stop step body hvars hbody hD => ?_⟩
    · have hr := hs.reads
      cases s with
      | seq ss => exact ihList env ss (fun s hmem => hs.of_mem_seq hmem) hD
      | assign lhs rhs _ =>
        simp only [exec]
        split
        · exact Ends.pure hD
        · next r =>
          split
          · next y =>
            simp only [Stmt.reads, Stmt.optVars] at hr
            exact (hev env hD r hr).bind fun _ _ =>
              Ends.pure (List.Subset.trans hD (Env.names_subset_set env y _))
          · next o n =>
            simp only [Stmt.reads, Stmt.optVars, Expr.vars, List.mem_append] at hr
            exact (hev env hD o fun x hx => hr x (.inl (.inl hx))).bind fun _ _ =>
              (hev env hD n fun x hx => hr x (.inl (.inr hx))).bind fun _ _ =>
                (hev env hD r fun x hx => hr x (.inr hx)).bind fun _ _ =>
                  (Host.setProp_unreferenced _ _ _).bind fun _ _ => Ends.pure hD
          · exact Ends.throw rfl
      | ret e => exact (hev env hD e hr).bind fun _ _ => Ends.pure hD
      | raise e => exact (hev env hD e hr).bind fun _ _ => Ends.throw rfl
      | deleteProp o n =>
        simp only [Stmt.reads, List.mem_append] at hr
        exact (hev env hD o fun x hx => hr x (.inl hx)).bind fun _ _ =>
          (hev env hD n fun x hx => hr x (.inr hx)).bind fun _ _ =>
            (Host.deleteProp_unreferenced _ _).bind fun _ _ => Ends.pure hD
      | defineProp o n v =>
        simp only [Stmt.reads, List.mem_append] at hr
        exact (hev env hD o fun x hx => hr x (.inl (.inl hx))).bind fun _ _ =>
          (hev env hD n fun x hx => hr x (.inl (.inr hx))).bind fun _ _ =>
            (hev env hD v fun x hx => hr x (.inr hx)).bind fun _ _ =>
              (Host.defineProp_unreferenced _ _ _).bind fun _ _ => Ends.pure hD
      | ite c t e =>
        exact (hev env hD c hr).bind fun _ _ =>
          Ends.ite (ihStmt env t hs.thn hD) (ihStmt env e hs.els hD)
      | loop y start stop step body =>
        simp only [Stmt.reads, List.mem_append] at hr
        exact (hev env hD start fun x hx => hr x (.inl (.inl hx))).bind fun _ _ =>
          ihLoop _ y stop step body
            (fun x hx => (List.mem_append.1 hx).elim (fun h => hr x (.inl (.inr h)))
              fun h => hr x (.inr h))
            hs.body (List.Subset.trans hD (Env.names_subset_set env y _))
      | call res target cargs recv _ =>
        simp only [Stmt.reads, List.mem_append, List.mem_flatMap] at hr
        simp only [exec]
        refine (hev env hD target fun x hx => hr x (.inl (.inl hx))).bind fun fn _ => ?_
        -- the receiver, then the arguments and the call, whose result is bound to `res`
        have hcall : ∀ this, Ends (·.isReference = false) (fun res => D ⊆ res.2.names) (do
            let vs ← cargs.mapM (eval args env)
            let r ← Host.call Host.callDepth fn this vs
            Pure.pure (Signal.normal, env.set res r)) := fun this =>
          (Ends.mapM fun a ha => hev env hD a fun x hx => hr x (.inr ⟨a, ha, hx⟩)).bind
            fun vs _ =>
            (Host.call_unreferenced _ fn this vs).bind fun _ _ =>
              Ends.pure (List.Subset.trans hD (Env.names_subset_set env res _))
        split
        · next r =>
          exact (hev env hD r fun x hx => hr x (.inl (.inr (by simpa [Stmt.optVars] using hx)))).bind
            fun this _ => hcall this
        · exact (Ends.pure (Q := fun _ => True) trivial).bind fun this _ => hcall this
      | brk => exact Ends.pure hD
    · cases ss with
      | nil => exact Ends.pure hD
      | cons s rest =>
        simp only [execList]
        refine (ihStmt env s (hss s (List.mem_cons_self ..)) hD).bind fun res hres => ?_
        split
        · exact ihList _ rest (fun s hs => hss s (List.mem_cons_of_mem _ hs)) hres
        · exact Ends.pure hres
    · simp only [List.mem_append] at hvars
      simp only [loop]
      refine Host.tick_unreferenced.bind fun _ _ =>
        (hev env hD stop fun y hy => hvars y (.inl hy)).bind fun _ _ =>
          Ends.ite (Ends.pure hD) ((ihStmt env body hbody hD).bind fun res hres => ?_)
      split
      · exact Ends.pure hres
      · exact Ends.pure hres
      · exact (hev _ hres step fun y hy => hvars y (.inr hy)).bind fun _ _ =>
          ihLoop _ x stop step body (fun y hy => hvars y (List.mem_append.1 hy)) hbody
            (List.Subset.trans hres (Env.names_subset_set _ x _))

end Interp

/-- A program that reads only variables it declares never fails with a reference error, on any
arguments and from any recording state. -/
theorem Program.run_unreferenced (p : Program) (h : p.ReadsDeclared) (args : List Value) :
    Ends (·.isReference = false) (fun _ => True) (p.run args) := by
  unfold Program.run
  -- the declared variables start out bound
  have hbound := (Env.names_foldl_set p.declarations .undefined {}).2
  refine Ends.get.bind fun r _ => ((Interp.exec_unreferenced args _ _).1 _ _ h hbound).bind
    fun res _ => ?_
  obtain ⟨sig, _⟩ := res
  cases sig <;> exact Ends.pure trivial

end TraceSynth
