import TraceSynth.Mutation.Strategy
import TraceSynth.Proofs.Mutation.Scope

/-!
# A strategy edits one slot of one statement

Each strategy rebuilds one statement with exactly one of its slots replaced by a generated
expression: the value, the target's name or object, or the name or object read on the right of
an assignment; the value of an exit; the object or name of a deletion; the object, name or
value of a definition; the condition of a conditional; the bound of a loop; one argument or the
receiver of a call. The one change of another kind drops the value of a declaration. That is
`Stmt.Edited G`, where `G` holds of the generated expressions.

Everything else stays: the kind of the statement, the arms of a conditional, the variable,
start, step and body of a loop, the target of an assignment up to the replaced slot, the
variable and declaration flag of a call. So an edit addresses as many statements as the
original, and declares the same variable (`Stmt.Edited.all_eq`, `Stmt.Edited.declared_eq`).

## Main results

* `Strategy.mutate_edited`: every change a strategy makes is an edit, by expressions its
  generator gives;
* `Program.randomChange_edits`: a random change replaces one statement of the program by an
  edit of it that differs where strategies compare, the new expressions reading only variables
  declared before that statement (and the result's length for an allocating seed).
-/

namespace TraceSynth

namespace Stmt

/-- `s'` is `s` with one slot replaced by an expression satisfying `G`, or a declaration of `s`
without its value. -/
inductive Edited (G : Expr → Prop) : Stmt → Stmt → Prop
  /-- The value of an assignment or declaration. -/
  | value {lhs : Expr} {rhs : Option Expr} {decl : Bool} {r : Expr} : G r →
      Edited G (.assign lhs rhs decl) (.assign lhs (some r) decl)
  /-- A declaration without its value. -/
  | dropValue {v : String} {r : Expr} :
      Edited G (.assign (.var v) (some r) true) (.assign (.var v) none true)
  /-- The name of the field assigned. -/
  | targetName {o n n' : Expr} {rhs : Option Expr} {decl : Bool} : G n' →
      Edited G (.assign (.field o n) rhs decl) (.assign (.field o n') rhs decl)
  /-- The object of the field assigned. -/
  | targetObject {o o' n : Expr} {rhs : Option Expr} {decl : Bool} : G o' →
      Edited G (.assign (.field o n) rhs decl) (.assign (.field o' n) rhs decl)
  /-- The name of the field read into a variable. -/
  | readName {v : String} {o n n' : Expr} {decl : Bool} : G n' →
      Edited G (.assign (.var v) (some (.field o n)) decl) (.assign (.var v) (some (.field o n')) decl)
  /-- The object of the field read into a variable. -/
  | readObject {v : String} {o o' n : Expr} {decl : Bool} : G o' →
      Edited G (.assign (.var v) (some (.field o n)) decl) (.assign (.var v) (some (.field o' n)) decl)
  /-- The value returned. -/
  | ret {e e' : Expr} : G e' → Edited G (.ret e) (.ret e')
  /-- The value thrown. -/
  | raise {e e' : Expr} : G e' → Edited G (.raise e) (.raise e')
  /-- The object of a deletion. -/
  | deleteObject {o o' n : Expr} : G o' → Edited G (.deleteProp o n) (.deleteProp o' n)
  /-- The name of a deletion. -/
  | deleteName {o n n' : Expr} : G n' → Edited G (.deleteProp o n) (.deleteProp o n')
  /-- The object of a definition. -/
  | defineObject {o o' n v : Expr} : G o' → Edited G (.defineProp o n v) (.defineProp o' n v)
  /-- The name of a definition. -/
  | defineName {o n n' v : Expr} : G n' → Edited G (.defineProp o n v) (.defineProp o n' v)
  /-- The value of a definition. -/
  | defineValue {o n v v' : Expr} : G v' → Edited G (.defineProp o n v) (.defineProp o n v')
  /-- The condition of a conditional. -/
  | cond {c c' : Expr} {t e : Stmt} : G c' → Edited G (.ite c t e) (.ite c' t e)
  /-- The bound of a loop. -/
  | bound {x : String} {a b b' c : Expr} {body : Stmt} : G b' →
      Edited G (.loop x a b c body) (.loop x a b' c body)
  /-- One argument of a call. -/
  | argument {res : String} {f : Expr} {args : List Expr} {recv : Option Expr} {decl : Bool}
      {i : Nat} {e : Expr} : i < args.length → G e →
      Edited G (.call res f args recv decl) (.call res f (args.set i e) recv decl)
  /-- The receiver of a call. -/
  | receiver {res : String} {f : Expr} {args : List Expr} {r r' : Expr} {decl : Bool} : G r' →
      Edited G (.call res f args (some r) decl) (.call res f args (some r') decl)

/-- The variable a statement declares, if it declares one. -/
def declared : Stmt → Option String
  | .assign (.var v) _ true => some v
  | .call res _ _ _ true => some res
  | .loop v _ _ _ _ => some v
  | _ => none

namespace Edited

variable {G G' : Expr → Prop} {s s' : Stmt}

theorem mono (h : s.Edited G s') (hG : ∀ e, G e → G' e) : s.Edited G' s' := by
  cases h with
  | value hr => exact .value (hG _ hr)
  | dropValue => exact .dropValue
  | targetName hn => exact .targetName (hG _ hn)
  | targetObject ho => exact .targetObject (hG _ ho)
  | readName hn => exact .readName (hG _ hn)
  | readObject ho => exact .readObject (hG _ ho)
  | ret he => exact .ret (hG _ he)
  | raise he => exact .raise (hG _ he)
  | deleteObject ho => exact .deleteObject (hG _ ho)
  | deleteName hn => exact .deleteName (hG _ hn)
  | defineObject ho => exact .defineObject (hG _ ho)
  | defineName hn => exact .defineName (hG _ hn)
  | defineValue hv => exact .defineValue (hG _ hv)
  | cond hc => exact .cond (hG _ hc)
  | bound hb => exact .bound (hG _ hb)
  | argument hi he => exact .argument hi (hG _ he)
  | receiver hr => exact .receiver (hG _ hr)

/-- An edit is a statement of the same kind. -/
theorem kind_eq (h : s.Edited G s') : s'.kind = s.kind := by
  cases h <;> rfl

/-- An edit addresses the statements of the original after its own: the arms of a conditional
and the body of a loop stay, and other statements address only themselves. -/
theorem all_eq (h : s.Edited G s') : s'.all = s' :: s.all.tail := by
  cases h <;> rfl

theorem count_eq (h : s.Edited G s') : s'.count = s.count := by
  cases h <;> rfl

/-- The original of an edit is no sequence: it addresses itself first. -/
theorem all_source (h : s.Edited G s') : s.all = s :: s.all.tail := by
  cases h <;> rfl

/-- An edit declares the variable the original declares. -/
theorem declared_eq (h : s.Edited G s') : s'.declared = s.declared := by
  cases h with
  | @value lhs _ decl _ _ => cases lhs <;> cases decl <;> rfl
  | @readName _ _ _ _ decl _ | @readObject _ _ _ _ decl _ => cases decl <;> rfl
  | @argument _ _ _ _ decl _ _ _ _ | @receiver _ _ _ _ _ decl _ => cases decl <;> rfl
  | _ => rfl

end Edited

end Stmt

namespace Strategy

open RandM

section Generated

variable {g : Generator} {G : Expr → Prop}

/-- An assignment rebuilt with a generated value is an edit. -/
theorem withRhs_edited {lhs : Expr} {rhs : Option Expr} {decl : Bool} {o : Option Expr}
    (ho : ∀ e, o = some e → G e) :
    ∀ s', withRhs lhs decl o = some s' → (Stmt.assign lhs rhs decl).Edited G s' := by
  intro s' hs
  cases o with
  | none => cases hs
  | some r =>
    cases hs
    exact .value (ho r rfl)

/-- A statement rebuilt around a generated slot is an edit, when every expression put in the
slot makes one. -/
theorem map_edited {s : Stmt} {o : Option Expr} {f : Expr → Stmt} (ho : ∀ e, o = some e → G e)
    (hf : ∀ e, G e → s.Edited G (f e)) : ∀ s', o.map f = some s' → s.Edited G s' := by
  intro s' hs
  obtain ⟨e, he, rfl⟩ := Option.map_eq_some_iff.1 hs
  exact hf e (ho e he)

variable (hg : ∀ req, Always (g.expr req) fun o => ∀ e, o = some e → G e)
include hg

/-- The value of a variable's assignment that is no copy, allocation or field read: dropped
from a declaration one time in ten, else replaced. -/
theorem dropOrReplace_edited (v : String) (r : Expr) (decl : Bool) :
    Always (do
      let dropped : Bool ← if decl then do
          let f ← Random.float
          pure (decide (f < declDropRate))
        else pure false
      if dropped then pure (some (.assign (.var v) none true))
      else pure (withRhs (.var v) decl (← g.expr .none)))
      fun o => ∀ s', o = some s' → (Stmt.assign (.var v) (some r) decl).Edited G s' := by
  dsimp only
  refine Always.ite (fun hd => ?_) fun _ => ?_
  · -- a declaration: its value is dropped or replaced
    refine (Always.triv _).bind fun _ _ => (Always.triv _).bind fun _ _ =>
      Always.ite (fun _ => Always.pure fun s' hs' => ?_) fun _ =>
        (hg _).bind fun o ho => Always.pure (withRhs_edited ho)
    cases hs'
    subst hd
    exact .dropValue
  · -- an assignment: its value is replaced
    refine (Always.pure (P := (· = false)) rfl).bind fun dropped hd => ?_
    subst hd
    exact Always.ite (fun h => by cases h) fun _ =>
      (hg _).bind fun o ho => Always.pure (withRhs_edited ho)

/-- Every change the assignment strategy makes is an edit. -/
theorem mutateAssign_edited (s : Stmt) :
    Always (mutateAssign g s) fun o => ∀ s', o = some s' → s.Edited G s' := by
  unfold mutateAssign
  split
  · -- a field target: the value, the field name or the object
    refine (Always.triv _).bind fun k _ => ?_
    split
    · exact (hg _).bind fun o ho => Always.pure (withRhs_edited ho)
    · exact (hg _).bind fun o ho => Always.pure (map_edited ho fun _ he => .targetName he)
    · exact (hg _).bind fun o ho => Always.pure (map_edited ho fun _ he => .targetObject he)
  · -- a variable target
    split
    · exact (hg _).bind fun o ho => Always.pure (withRhs_edited ho)
    · exact Always.pure fun _ h => by cases h
    · split
      · exact (hg _).bind fun o ho => Always.pure (withRhs_edited ho)
      · split
        · exact Always.pure fun _ h => by cases h
        · -- a field read: its name or its object
          refine (Always.triv _).bind fun k _ => Always.ite (fun _ => ?_) fun _ => ?_
          · exact (hg _).bind fun o ho => Always.pure (map_edited ho fun _ he => .readName he)
          · exact (hg _).bind fun o ho => Always.pure (map_edited ho fun _ he => .readObject he)
        · exact dropOrReplace_edited hg _ _ _
  · exact Always.pure fun _ h => by cases h

/-- Every change a strategy makes is an edit by expressions its generator gives. -/
theorem mutate_edited (m : Strategy) (s : Stmt) :
    Always (m.mutate g s) fun o => ∀ s', o = some s' → s.Edited G s' := by
  unfold mutate
  split
  · exact mutateAssign_edited hg s
  · -- the value of an exit
    refine (hg _).bind fun o ho => ?_
    split
    · exact Always.pure fun s' hs' => by
        cases hs'
        exact .ret (ho _ rfl)
    · exact Always.pure fun s' hs' => by
        cases hs'
        exact .raise (ho _ rfl)
    · exact Always.pure fun _ h => by cases h
  · refine (Always.triv _).bind fun k _ => Always.ite (fun _ => ?_) fun _ => ?_
    · exact (hg _).bind fun o ho => Always.pure (map_edited ho fun _ he => .deleteObject he)
    · exact (hg _).bind fun o ho => Always.pure (map_edited ho fun _ he => .deleteName he)
  · refine (Always.triv _).bind fun k _ => ?_
    split
    · exact (hg _).bind fun o ho => Always.pure (map_edited ho fun _ he => .defineObject he)
    · exact (hg _).bind fun o ho => Always.pure (map_edited ho fun _ he => .defineName he)
    · exact (hg _).bind fun o ho => Always.pure (map_edited ho fun _ he => .defineValue he)
  · exact (hg _).bind fun o ho => Always.pure (map_edited ho fun _ he => .cond he)
  · exact (hg _).bind fun o ho => Always.pure (map_edited ho fun _ he => .bound he)
  · -- one argument at a drawn position, or the receiver of a call without arguments
    rename_i args recv _
    refine Always.ite (fun hargs => ?_) fun _ => Always.ite (fun _ => ?_) fun _ => ?_
    · refine (hg _).bind fun o ho => ?_
      split
      · exact Always.pure fun _ h => by cases h
      · next e =>
        have hpos : 0 < args.length := by
          cases args with
          | nil => simp at hargs
          | cons _ _ => simp
        exact (Random.intn_lt hpos).bind fun i hi => Always.pure fun s' hs' => by
          cases hs'
          exact .argument hi (ho e rfl)
    · obtain ⟨r, rfl⟩ := Option.isSome_iff_exists.1 ‹recv.isSome = true›
      exact (hg _).bind fun o ho => Always.pure (map_edited ho fun _ he => .receiver he)
    · exact Always.pure fun _ h => by cases h
  · exact Always.pure fun _ h => by cases h

end Generated

end Strategy

section RandomChange

open RandM

/-- The attempts of a random change: when one succeeds, it replaced a statement at a position of
the list by an edit of it, by expressions generated at that position, that differs from it where
strategies compare. -/
theorem randomChangeAttempts_edits {ctx : MutationContext} {p : Program} {stmts : List Stmt}
    {defs : List (String × Nat)} (hpos : 0 < stmts.length) {G : Nat → Expr → Prop}
    (hG : ∀ site req, Always ((Generator.atSite ctx defs site).expr req)
      fun o => ∀ e, o = some e → G site e) :
    ∀ tries, Always (randomChangeAttempts ctx p stmts defs tries) fun res => ∀ q, res = .ok q →
      ∃ site s, site < stmts.length ∧ (stmts.getD site default).Edited (G site) s ∧
        (stmts.getD site default).softEquals s = false ∧ p.replace site (.put s) = .ok q
  | 0 => Always.pure fun _ h => by cases h
  | tries + 1 => by
    have ih := @randomChangeAttempts_edits ctx p stmts defs hpos G hG tries
    rw [randomChangeAttempts]
    refine (Random.intn_lt hpos).bind fun site hsite => ?_
    dsimp only
    split
    · exact ih
    · next m _ =>
      refine (Strategy.mutate_edited (hG site) m _).bind fun o ho => ?_
      split
      · exact ih
      · next s =>
        refine Always.ite (fun _ => ih) fun hsoft => Always.pure fun q hq => ?_
        refine ⟨site, s, hsite, ho s rfl, by simpa using hsoft, ?_⟩
        cases hrep : p.replace site (.put s) with
        | error e => rw [hrep] at hq; cases hq
        | ok q' => rw [hrep] at hq; cases hq; rfl

/-- A random change replaces one statement of the program by an edit of it that differs from
it where strategies compare. The new expression reads only variables declared at an earlier
position, and the result's length when the seed allocates its result. -/
theorem Program.randomChange_edits {ctx : MutationContext} {p q : Program} {rng rng' : Rng}
    (h : (p.randomChange ctx).run rng = (.ok q, rng')) :
    ∃ site s, site < p.stmts.length ∧
      (p.stmts.getD site default).Edited
        (Expr.Scoped (fun x => ∃ i < site, (x, i) ∈ p.declarations) ctx.useAlloc) s ∧
      (p.stmts.getD site default).softEquals s = false ∧ p.replace site (.put s) = .ok q := by
  unfold Program.randomChange at h
  dsimp only at h
  split at h
  · cases h
  · next hne =>
    have hpos : 0 < p.stmts.length := by
      cases hs : p.stmts with
      | nil => simp [hs] at hne
      | cons _ _ => simp
    exact (randomChangeAttempts_edits hpos
      (fun site req => Generator.atSite_expr_scoped ctx p.declarations site req) 25).of_run h q rfl

end RandomChange

end TraceSynth
