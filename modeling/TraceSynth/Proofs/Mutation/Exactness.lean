import TraceSynth.Proofs.Random.Script
import TraceSynth.Proofs.Program.Splice
import TraceSynth.Search.Engine

/-!
# Which programs a random change can change

`Program.mutable` is the engine's summary of the strategies: a program is mutable when one of
its statements is not a `break`, not a fresh object or array assigned to a variable, not a
variable copied into a variable other than the result, and not a call without arguments or
receiver. The summary is exact for the contexts a search builds, as soon as the target has an
argument slot.

The generator can avoid any expression, whatever a strategy requires: the first argument slot
and the argument at that slot's index meet every requirement, no expression equals both, and
each comes from a script of at most three words (`Generator.expr_avoids`). So each strategy
changes every statement the summary accepts, on some draws, where strategies compare
(`Strategy.mutate_changes`), and gives nothing for the others without drawing
(`Strategy.mutate_of_immutable`). A random change draws its position first, so it succeeds on
some source exactly when some statement can be changed (`Program.mutable_exact`).

Scripts are the `RandM.Answers` of `TraceSynth.Proofs.Random.Script`: a computation answers a
value to the words it reads, and any script of at most 273 words is read by some source.

## Main results

* `Stmt.isMutable_iff_changes`: a statement is accepted exactly when its strategy changes it on
  some source;
* `Program.mutable_exact`: a program is mutable exactly when a random change succeeds on some
  source.
-/

namespace TraceSynth

open RandM TraceSynth.Random

namespace Expr

/-- An argument slot is a place of no static type and no constant: it meets every requirement
at every depth its index fits in. -/
theorem argument_satisfies {e : Expr} {req : Requirement} {d : Int} (h : (e.depth : Int) ≤ d) :
    (Expr.argument e).satisfies req d = true := by
  unfold satisfies
  simp [staticType, depth, h]

/-- No expression equals both the first argument slot and the argument at that slot's index. -/
theorem equiv_arg_or_argument (x : Expr) :
    x.equiv (Expr.arg 0) = false ∨ x.equiv (.argument (Expr.arg 0)) = false := by
  cases x with
  | argument i =>
    -- the first slot's index is a constant, the other's is not
    cases i <;> simp [equiv, Expr.arg]
  | _ => simp [equiv, Expr.arg]

end Expr

namespace Generator

variable (g : Generator)

/-- The total weight of a list of options. -/
def weight (l : List (Choice × Nat)) : Nat := (l.map (·.2)).foldr (· + ·) 0

/-- The total weight of the options at a depth, below which a draw selects. -/
def total (depth : Nat) : Nat := weight (g.options depth)

theorem select_cons_lt {c : Choice} {w n : Nat} (rest : List (Choice × Nat)) (h : n < w) :
    select ((c, w) :: rest) n = some c := by
  simp [select, h]

/-- With an argument slot, the options open with the argument slot and the argument at a
generated index. -/
theorem options_shape (hargs : 0 < g.ctx.nargs) (depth : Nat) :
    ∃ rest, g.options depth =
      (.argSlot, 6) :: (.argIndex, 2 * (if depth > 0 then 1 else 0)) :: rest := by
  unfold options
  simp only [gt_iff_lt, hargs, if_true, List.cons_append, List.nil_append]
  exact ⟨_, rfl⟩

theorem total_ge (hargs : 0 < g.ctx.nargs) (depth : Nat) :
    6 + 2 * (if depth > 0 then 1 else 0) ≤ g.total depth := by
  obtain ⟨rest, hrest⟩ := g.options_shape hargs depth
  have hfold : ∀ (l : List Nat) (k : Nat), k ≤ l.foldr (· + ·) k := by
    intro l k
    induction l with
    | nil => simp
    | cons a l ih => simp only [List.foldr_cons]; omega
  simp only [total, weight, hrest, List.map_cons, List.foldr_cons]
  have := hfold (rest.map (·.2)) 0
  omega

/-- The options weigh at most 20 in all. -/
theorem total_le (depth : Nat) : g.total depth ≤ 20 := by
  unfold total weight options
  split <;> split <;> split <;> split <;> split <;> simp

theorem select_argSlot (hargs : 0 < g.ctx.nargs) (depth : Nat) :
    select (g.options depth) 0 = some .argSlot := by
  obtain ⟨rest, hrest⟩ := g.options_shape hargs depth
  rw [hrest]
  exact select_cons_lt _ (by omega)

theorem select_argIndex (hargs : 0 < g.ctx.nargs) (depth : Nat) :
    select (g.options (depth + 1)) 6 = some .argIndex := by
  obtain ⟨rest, hrest⟩ := g.options_shape hargs (depth + 1)
  rw [hrest]
  simp [select]

/-- A draw among the options answers what the selected option builds, when it meets the
requirement. -/
theorem draw_answers {depth : Nat} {req : Requirement} {buildAt : Choice → RandM (Option Expr)}
    {n : Nat} {w : UInt64} {c : Choice} {ws : List UInt64} {e : Expr}
    (hdraw : Answers (Random.intn (g.total depth)) [w] n) (hpos : 0 < g.total depth)
    (hsel : select (g.options depth) n = some c) (hb : Answers (buildAt c) ws (some e))
    (hs : e.satisfies req depth = true) :
    Answers (g.draw depth req buildAt) (w :: ws) (some e) := by
  unfold draw
  rw [if_neg (by simpa [total, weight] using Nat.pos_iff_ne_zero.1 hpos)]
  unfold attempt
  refine Answers.bind hdraw ?_
  dsimp only
  rw [hsel]
  refine Answers.bind_nil hb ?_
  dsimp only
  rw [if_pos hs]
  exact Answers.pure _

theorem build_argSlot (sub : Requirement → RandM (Option Expr)) (depth : Nat) :
    Answers (g.build sub depth .argSlot) [0] (some (Expr.arg 0)) := by
  unfold build
  exact (intn_zero_answers _).bind_pure

theorem build_argIndex {sub : Requirement → RandM (Option Expr)} {depth : Nat}
    {ws : List UInt64} {e : Expr}
    (hsub : Answers (sub (Requirement.number ||| Requirement.noConst)) ws (some e)) :
    Answers (g.build sub (depth + 1) .argIndex) ws (some (.argument e)) := by
  unfold build
  exact hsub.bind_pure

variable {g}

/-- At every depth the first argument slot comes from two zero words. -/
theorem exprAt_arg (hargs : 0 < g.ctx.nargs) (req : Requirement) (depth : Nat) :
    Answers (g.exprAt depth req) [0, 0] (some (Expr.arg 0)) := by
  have hpos : 0 < g.total depth := by have := g.total_ge hargs depth; omega
  have hs : (Expr.arg 0).satisfies req depth = true :=
    Expr.argument_satisfies (by simp [Expr.depth])
  cases depth with
  | zero =>
    rw [exprAt]
    exact g.draw_answers (intn_zero_answers _) hpos (g.select_argSlot hargs 0)
      (g.build_argSlot _ _) hs
  | succ d =>
    rw [exprAt]
    exact g.draw_answers (intn_zero_answers _) hpos (g.select_argSlot hargs _)
      (g.build_argSlot _ _) hs

/-- Above depth 0 the argument at the first slot's index comes from three words: the draw of
that option, then the first slot. -/
theorem exprAt_argument (hargs : 0 < g.ctx.nargs) (req : Requirement) (d : Nat) :
    Answers (g.exprAt (d + 1) req) [Random.drawWord (g.total (d + 1)) 6, 0, 0]
      (some (.argument (Expr.arg 0))) := by
  have hsix : 6 < g.total (d + 1) := by have := g.total_ge hargs (d + 1); simp at this; omega
  have hle : g.total (d + 1) ≤ 2 ^ (63 : Nat) :=
    Nat.le_trans (g.total_le _) (by decide)
  rw [exprAt]
  exact g.draw_answers (intn_answers hsix hle) (by omega) (g.select_argIndex hargs d)
    (g.build_argIndex (exprAt_arg hargs _ d))
    (Expr.argument_satisfies (by simp [Expr.arg, Expr.depth]; omega))

/-- The generator avoids any expression, for every requirement, on a script of at most three
words: one of the first argument slot and the argument at its index differs from it. -/
theorem expr_avoids (hargs : 0 < g.ctx.nargs) (hdepth : 0 < g.ctx.maxDepth) (req : Requirement)
    (x : Expr) :
    ∃ ws e, ws.length ≤ 3 ∧ Answers (g.expr req) ws (some e) ∧ x.equiv e = false := by
  obtain ⟨d, hd⟩ : ∃ d, g.ctx.maxDepth = d + 1 := ⟨g.ctx.maxDepth - 1, by omega⟩
  unfold expr
  rw [hd]
  rcases Expr.equiv_arg_or_argument x with h | h
  · exact ⟨_, _, by simp, exprAt_arg hargs req (d + 1), h⟩
  · exact ⟨_, _, by simp, exprAt_argument hargs req d, h⟩

end Generator

namespace Stmt

/-- Whether an assignment's target is a variable or a field, the targets a printed program can
have; other statements qualify. -/
def assignsPlace : Stmt → Bool
  | .assign (.var _) _ _ | .assign (.field _ _) _ _ => true
  | .assign _ _ _ => false
  | _ => true

end Stmt

namespace Strategy

variable {g : Generator}

section Avoiding

variable (hargs : 0 < g.ctx.nargs) (hdepth : 0 < g.ctx.maxDepth)
include hargs hdepth

/-- The assignment strategy changes every assignment to a place that the summary accepts. -/
theorem mutateAssign_changes {s : Stmt} (hs : s.isMutable = true)
    (hplace : s.assignsPlace = true) (hm : forStmt? s = some .assign) :
    ∃ ws s', ws.length ≤ 4 ∧ Answers (mutateAssign g s) ws (some s') ∧
      s.softEquals s' = false := by
  have avoid := Generator.expr_avoids hargs hdepth
  unfold mutateAssign
  split
  · -- a field target: its value, on the first of three draws
    rename_i obj name rhs decl
    obtain ⟨ws, e, hlen, he, hne⟩ := avoid .none (rhs.getD obj)
    refine ⟨0 :: ws, .assign (.field obj name) (some e) decl, by simp; omega,
      Answers.bind (intn_zero_answers 3) (Answers.bind_pure (g := withRhs _ decl) he), ?_⟩
    cases rhs <;> simp_all [Stmt.softEquals, Stmt.equiv, Stmt.equivOpt]
  · -- a variable target
    rename_i v rhs decl
    split
    · -- no value yet: any value differs
      obtain ⟨ws, e, hlen, he, -⟩ := avoid .none (.var v)
      exact ⟨ws, _, by omega, Answers.bind_pure (g := withRhs _ decl) he,
        by simp [Stmt.softEquals, Stmt.equiv, Stmt.equivOpt]⟩
    · simp [Stmt.isMutable] at hs
    · rename_i r hr
      split
      · -- the result's value
        obtain ⟨ws, e, hlen, he, hne⟩ := avoid .none r
        exact ⟨ws, _, by omega, Answers.bind_pure (g := withRhs _ decl) he,
          by simp [Stmt.softEquals, Stmt.equiv, Stmt.equivOpt, hne]⟩
      · split
        · simp_all [Stmt.isMutable]
        · -- a field read: its name, on the first of two draws
          rename_i obj name
          obtain ⟨ws, e, hlen, he, hne⟩ := avoid .key name
          refine ⟨0 :: ws, .assign (.var v) (some (.field obj e)) decl, by simp; omega, ?_,
            by simp [Stmt.softEquals, Stmt.equiv, Stmt.equivOpt, Expr.equiv, hne]⟩
          refine Answers.bind (intn_zero_answers 2) ?_
          rw [if_pos (show (0 == 0) = true from rfl)]
          exact Answers.bind_pure
            (g := Option.map fun n => Stmt.assign (.var v) (some (.field obj n)) decl) he
        · -- any other value: dropped from a declaration on the zero draw, else replaced
          cases decl with
          | false =>
            obtain ⟨ws, e, hlen, he, hne⟩ := avoid .none r
            refine ⟨ws, .assign (.var v) (some e) false, by omega, ?_,
              by simp [Stmt.softEquals, Stmt.equiv, Stmt.equivOpt, hne]⟩
            exact Answers.bind (Answers.pure false) (Answers.bind_pure (g := withRhs _ false) he)
          | true =>
            refine ⟨[0], .assign (.var v) none true, by simp, ?_,
              by simp [Stmt.softEquals, Stmt.equiv, Stmt.equivOpt]⟩
            have hdrop : decide ((0 : Float) < declDropRate) = true := by decide +kernel
            rw [if_pos rfl]
            refine Answers.bind_nil float_zero_answers ?_
            refine Answers.bind_nil (Answers.pure _) ?_
            dsimp only
            rw [hdrop, if_pos rfl]
            exact Answers.pure _
  · -- a statement of another kind, or an assignment to no place
    rename_i hfield hvar
    cases s <;> simp [forStmt?] at hm
    rename_i lhs rhs decl
    cases lhs with
    | field obj name => exact (hfield obj name rhs decl rfl).elim
    | var v => exact (hvar v rhs decl rfl).elim
    | _ => simp [Stmt.assignsPlace] at hplace

/-- Every statement the summary accepts is changed by its strategy, on some script of at most
four words, where strategies compare. -/
theorem mutate_changes {s : Stmt} (hs : s.isMutable = true) (hplace : s.assignsPlace = true)
    {m : Strategy} (hm : forStmt? s = some m) :
    ∃ ws s', ws.length ≤ 4 ∧ Answers (m.mutate g s) ws (some s') ∧ s.softEquals s' = false := by
  have avoid := Generator.expr_avoids hargs hdepth
  cases s with
  | assign lhs rhs decl =>
    simp only [forStmt?, Option.some.injEq] at hm
    subst hm
    exact mutateAssign_changes hargs hdepth hs hplace rfl
  | ret e =>
    simp only [forStmt?, Option.some.injEq] at hm
    subst hm
    obtain ⟨ws, e', hlen, he, hne⟩ := avoid .none e
    exact ⟨ws, .ret e', by omega, Answers.bind_nil he (Answers.pure _),
      by simpa [Stmt.softEquals, Stmt.equiv] using hne⟩
  | raise e =>
    simp only [forStmt?, Option.some.injEq] at hm
    subst hm
    obtain ⟨ws, e', hlen, he, hne⟩ := avoid .none e
    exact ⟨ws, .raise e', by omega, Answers.bind_nil he (Answers.pure _),
      by simpa [Stmt.softEquals, Stmt.equiv] using hne⟩
  | deleteProp obj name =>
    -- the object, on the first of two draws
    simp only [forStmt?, Option.some.injEq] at hm
    subst hm
    obtain ⟨ws, o, hlen, ho, hne⟩ := avoid .object obj
    refine ⟨0 :: ws, .deleteProp o name, by simp; omega, ?_,
      by simp [Stmt.softEquals, Stmt.equiv, hne]⟩
    refine Answers.bind (intn_zero_answers 2) ?_
    rw [if_pos (show (0 == 0) = true from rfl)]
    exact Answers.bind_pure (g := Option.map fun o => Stmt.deleteProp o name) ho
  | defineProp obj name v =>
    -- the object, on the first of three draws
    simp only [forStmt?, Option.some.injEq] at hm
    subst hm
    obtain ⟨ws, o, hlen, ho, hne⟩ := avoid .object obj
    exact ⟨0 :: ws, .defineProp o name v, by simp; omega,
      Answers.bind (intn_zero_answers 3)
        (Answers.bind_pure (g := Option.map fun o => Stmt.defineProp o name v) ho),
      by simp [Stmt.softEquals, Stmt.equiv, hne]⟩
  | ite c thn els =>
    simp only [forStmt?, Option.some.injEq] at hm
    subst hm
    obtain ⟨ws, c', hlen, hc, hne⟩ := avoid (Requirement.number ||| Requirement.boolean) c
    exact ⟨ws, .ite c' thn els, by omega,
      Answers.bind_pure (g := Option.map fun c => Stmt.ite c thn els) hc,
      by simpa [Stmt.softEquals] using hne⟩
  | loop x start bound step body =>
    simp only [forStmt?, Option.some.injEq] at hm
    subst hm
    obtain ⟨ws, b, hlen, hb, hne⟩ := avoid .number bound
    exact ⟨ws, .loop x start b step body, by omega,
      Answers.bind_pure (g := Option.map fun b => Stmt.loop x start b step body) hb,
      by simpa [Stmt.softEquals] using hne⟩
  | call res target args recv decl =>
    simp only [forStmt?, Option.some.injEq] at hm
    subst hm
    cases args with
    | cons a rest =>
      -- the first argument, then the position 0
      obtain ⟨ws, e, hlen, he, hne⟩ := avoid .none a
      refine ⟨ws ++ [0], .call res target (e :: rest) recv decl, by simp; omega, ?_,
        by simp [Stmt.softEquals, Stmt.equiv, Stmt.equivExprs, hne]⟩
      simp only [mutate]
      rw [if_pos (show (!(a :: rest).isEmpty) = true from rfl)]
      refine Answers.bind he ?_
      exact Answers.bind_pure
        (g := fun i => some (Stmt.call res target ((a :: rest).set i e) recv decl))
        (intn_zero_answers _)
    | nil =>
      -- no argument: the receiver
      obtain ⟨r, rfl⟩ : ∃ r, recv = some r := by
        cases recv with
        | none => simp [Stmt.isMutable] at hs
        | some r => exact ⟨r, rfl⟩
      obtain ⟨ws, o, hlen, ho, hne⟩ := avoid .object r
      exact ⟨ws, .call res target [] (some o) decl, by omega,
        Answers.bind_pure (g := Option.map fun o => Stmt.call res target [] (some o) decl) ho,
        by simp [Stmt.softEquals, Stmt.equiv, Stmt.equivOpt, hne]⟩
  | seq ss => simp [forStmt?] at hm
  | brk => simp [forStmt?] at hm

end Avoiding

/-- The assignment strategy gives nothing for an assignment the summary refuses: a fresh
allocation, or a copy of a variable other than the result. -/
theorem mutateAssign_of_immutable {s : Stmt} (hs : s.isMutable = false) :
    mutateAssign g s = pure none := by
  unfold mutateAssign
  split
  · simp [Stmt.isMutable] at hs
  · split
    · simp [Stmt.isMutable] at hs
    · rfl
    · rename_i r hr
      split
      · cases r <;> simp_all [Stmt.isMutable]
      · split
        · rfl
        · simp [Stmt.isMutable] at hs
        · cases r <;> simp_all [Stmt.isMutable]
  · rfl

/-- The strategy of a statement the summary refuses gives nothing, without drawing. -/
theorem mutate_of_immutable {s : Stmt} (hs : s.isMutable = false) {m : Strategy}
    (hm : forStmt? s = some m) : m.mutate g s = pure none := by
  cases s with
  | assign lhs rhs decl =>
    simp only [forStmt?, Option.some.injEq] at hm
    subst hm
    exact mutateAssign_of_immutable hs
  | call res target args recv decl =>
    simp only [forStmt?, Option.some.injEq] at hm
    subst hm
    simp only [Stmt.isMutable, Bool.or_eq_false_iff, Bool.not_eq_false'] at hs
    simp [mutate, hs.1, hs.2]
  | brk => simp [forStmt?] at hm
  | _ => simp [Stmt.isMutable] at hs

end Strategy

/-- A statement's strategy changes it on some draws, where strategies compare, exactly when
the summary accepts it; for a context with an argument slot, at every position's generator, and
for the statements a program addresses, with assignments to places. -/
theorem Stmt.isMutable_iff_changes {ctx : MutationContext} (hargs : 0 < ctx.nargs)
    (hdepth : 0 < ctx.maxDepth) {s : Stmt} (hseq : ∀ ss, s ≠ .seq ss)
    (hplace : s.assignsPlace = true) {g : Generator} (hg : g.ctx = ctx) :
    s.isMutable = true ↔ ∃ m rng s', Strategy.forStmt? s = some m ∧
      ((m.mutate g s).run rng).1 = some s' ∧ s.softEquals s' = false := by
  subst hg
  constructor
  · intro hs
    obtain ⟨m, hm⟩ : ∃ m, Strategy.forStmt? s = some m := by
      cases s <;> simp_all [Strategy.forStmt?, Stmt.isMutable]
    obtain ⟨ws, s', hws, hmut, hsoft⟩ := Strategy.mutate_changes hargs hdepth hs hplace hm
    obtain ⟨rng, hrun⟩ := hmut.exists_run (by omega)
    exact ⟨m, rng, s', hm, hrun, hsoft⟩
  · rintro ⟨m, rng, s', hm, hrun, -⟩
    cases hs : s.isMutable with
    | true => rfl
    | false =>
      -- a refused statement's strategy gives nothing on every source
      rw [Strategy.mutate_of_immutable hs hm] at hrun
      cases hrun

namespace Program

theorem replace_eq_ok_of_lt {p : Program} {i : Nat} (r : Replacement) (h : i < p.stmts.length) :
    ∃ q, p.replace i r = .ok q := by
  have hlt : i < p.numStmts := by rw [numStmts, ← Stmt.length_all]; exact h
  have hin : (decide ((i : Int) < 0) || decide ((i : Int) ≥ (p.numStmts : Int))) = false := by
    simp only [Bool.or_eq_false_iff, decide_eq_false_iff_not]
    omega
  exact ⟨_, by simp only [replace, hin]; rfl⟩

end Program

section RandomChange

open RandM

variable {ctx : MutationContext} {p : Program} {stmts : List Stmt} {defs : List (String × Nat)}

/-- When the attempts of a random change succeed, some statement of the list is one the summary
accepts: the changed one, since a refused statement's strategy gives nothing. -/
theorem randomChangeAttempts_mutable (hpos : 0 < stmts.length) :
    ∀ tries, Always (randomChangeAttempts ctx p stmts defs tries) fun res =>
      ∀ q, res = .ok q → stmts.any Stmt.isMutable = true
  | 0 => Always.pure fun _ h => by cases h
  | tries + 1 => by
    have ih := randomChangeAttempts_mutable hpos tries
    rw [randomChangeAttempts]
    refine (Random.intn_lt hpos).bind fun site hsite => ?_
    dsimp only
    split
    · exact ih
    · next m hm =>
      cases hmut : (stmts.getD site default).isMutable with
      | true =>
        -- the statement drawn is accepted, whatever the attempt gives
        have hany : stmts.any Stmt.isMutable = true := List.any_eq_true.2
          ⟨_, by rw [List.getD_eq_getElem _ _ hsite]; exact List.getElem_mem hsite, hmut⟩
        exact Always.mono (Always.triv _) fun _ _ _ _ => hany
      | false =>
        rw [Strategy.mutate_of_immutable hmut hm]
        exact ih

/-- A random change that succeeds changed a program the summary calls mutable. -/
theorem Program.mutable_of_randomChange {rng : Rng} {q : Program}
    (h : ((p.randomChange ctx).run rng).1 = .ok q) : p.mutable = true := by
  unfold Program.randomChange at h
  dsimp only at h
  split at h
  · cases h
  · next hne =>
    have hpos : 0 < p.stmts.length := by
      cases hs : p.stmts with
      | nil => simp [hs] at hne
      | cons _ _ => simp
    exact randomChangeAttempts_mutable hpos 25 rng q h

/-- A random change of a program whose assignments are to places succeeds on the word that
draws an accepted position, followed by the script on which its strategy changes it. -/
theorem Program.randomChange_answers (hargs : 0 < ctx.nargs) (hdepth : 0 < ctx.maxDepth)
    (hlen : p.stmts.length ≤ 2 ^ (63 : Nat)) {k : Nat} (hk : k < p.stmts.length)
    (hs : p.stmts[k].isMutable = true) (hplace : p.stmts[k].assignsPlace = true) :
    ∃ ws q, ws.length ≤ 5 ∧ Answers (p.randomChange ctx) ws (.ok q) := by
  have hget : p.stmts.getD k default = p.stmts[k] := List.getD_eq_getElem _ _ hk
  obtain ⟨m, hm⟩ : ∃ m, Strategy.forStmt? (p.stmts.getD k default) = some m := by
    have hseq := Stmt.not_seq_of_mem_all p.body (List.getElem_mem hk)
    rw [hget]
    cases hstmt : p.stmts[k] <;> simp_all [Strategy.forStmt?, Stmt.isMutable]
  obtain ⟨ws, s', hws, hmut, hsoft⟩ := Strategy.mutate_changes
    (g := Generator.atSite ctx p.declarations k) hargs hdepth (hget ▸ hs) (hget ▸ hplace) hm
  obtain ⟨q, hq⟩ := Program.replace_eq_ok_of_lt (.put s') hk
  have hne : p.stmts.isEmpty = false := by
    cases h : p.stmts with
    | nil => simp [h] at hk
    | cons _ _ => rfl
  refine ⟨Random.drawWord p.stmts.length k :: ws, q, by simp; omega, ?_⟩
  unfold Program.randomChange
  simp only [hne]
  rw [randomChangeAttempts]
  refine Answers.bind (Random.intn_answers hk hlen) ?_
  dsimp only
  rw [hm]
  refine Answers.bind_nil hmut ?_
  dsimp only
  rw [if_neg (by rw [hsoft]; exact Bool.false_ne_true), hq]
  exact Answers.pure _

end RandomChange

/-- The summary of the strategies is exact. For the mutation context of a search whose target
has an argument slot, and a program whose assignments are all to places: the program is mutable
exactly when a random change succeeds on some source; and each of its statements is accepted
exactly when its strategy changes it on some draws, where strategies compare, at every
position's generator. -/
theorem Program.mutable_exact {constants : List Value} {nargs : Nat} {useAlloc : Bool}
    {p : Program} (hargs : 0 < nargs) (hplace : ∀ s ∈ p.stmts, s.assignsPlace = true)
    (hlen : p.stmts.length ≤ 2 ^ (63 : Nat)) :
    (p.mutable = true ↔
      ∃ rng q, ((p.randomChange (Engine.context constants nargs useAlloc)).run rng).1 = .ok q) ∧
    ∀ s ∈ p.stmts, ∀ g : Generator, g.ctx = Engine.context constants nargs useAlloc →
      (s.isMutable = true ↔ ∃ m rng s', Strategy.forStmt? s = some m ∧
        ((m.mutate g s).run rng).1 = some s' ∧ s.softEquals s' = false) := by
  have hdepth : 0 < (Engine.context constants nargs useAlloc).maxDepth := by
    simp [Engine.context]
  refine ⟨⟨fun hmut => ?_, fun ⟨rng, q, h⟩ => Program.mutable_of_randomChange h⟩,
    fun s hs g hg =>
      Stmt.isMutable_iff_changes hargs hdepth (Stmt.not_seq_of_mem_all p.body hs) (hplace s hs) hg⟩
  -- a change at an accepted position, drawn first
  obtain ⟨s, hs, hmut⟩ := List.any_eq_true.1 hmut
  obtain ⟨k, hk, rfl⟩ := List.mem_iff_getElem.1 hs
  obtain ⟨ws, q, hws, hans⟩ :=
    Program.randomChange_answers hargs hdepth hlen hk hmut (hplace _ hs)
  obtain ⟨rng, hrun⟩ := hans.exists_run (by omega)
  exact ⟨rng, q, hrun⟩

/-- `var n = {}`, then a loop writing `n.x = arg0` and breaking, then `return n`: the write makes
the program mutable and a random change succeeds on it; at every generator of the context the
allocation and the break are refused, so no strategy changes them, and the write is changed. -/
theorem Program.mutable_exact_alloc_write_break :
    let alloc : Stmt := .assign (.var "n") (some (.alloc false)) true
    let write : Stmt := .assign (.field (.var "n") (.const (.str "x"))) (some (Expr.arg 0)) false
    let p : Program := ⟨.seq [alloc,
      .loop "i" (.const (.number 0)) (.const (.number 1)) (.const (.number 1)) (.seq [write, .brk]),
      .ret (.var "n")]⟩
    p.mutable = true ∧
      (∃ rng q, ((p.randomChange (Engine.context [] 1 false)).run rng).1 = .ok q) ∧
      ∀ g : Generator, g.ctx = Engine.context [] 1 false →
        (∀ s ∈ [alloc, .brk], ¬∃ m rng s', Strategy.forStmt? s = some m ∧
          ((m.mutate g s).run rng).1 = some s' ∧ s.softEquals s' = false) ∧
        ∃ m rng s', Strategy.forStmt? write = some m ∧
          ((m.mutate g write).run rng).1 = some s' ∧ write.softEquals s' = false := by
  intro alloc write p
  have hexact := @Program.mutable_exact [] 1 false p (by decide) (by decide) (by decide)
  have hm : p.mutable = true := by decide
  refine ⟨hm, hexact.1.1 hm, fun g hg => ⟨fun s hs => ?_, ?_⟩⟩
  · -- both are addressable statements that the summary refuses
    have hrefused : s ∈ p.stmts ∧ s.isMutable = false := by
      simp only [List.mem_cons, List.not_mem_nil, or_false] at hs
      rcases hs with rfl | rfl <;> exact ⟨by simp [p, Program.stmts, Stmt.all, Stmt.allList], rfl⟩
    rw [← hexact.2 s hrefused.1 g hg, hrefused.2]
    exact Bool.false_ne_true
  · exact (hexact.2 write (by simp [p, Program.stmts, Stmt.all, Stmt.allList]) g hg).1 rfl

end TraceSynth
