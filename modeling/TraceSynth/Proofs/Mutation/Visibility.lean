import TraceSynth.Proofs.Mutation.Shape
import TraceSynth.Proofs.Run.References

/-!
# Random changes read only declared variables

A generator made for the statement at position `site` offers only the variables declared before
`site`, and the result's length when the seed allocates its result (`Expr.Scoped`). An edit reads
what the statement it changes reads and the variables of the expression it puts in
(`Stmt.Edited.reads_subset`), and the statements around it keep what they read. So a random
change of a program whose statements read only declared variables reads only declared
variables too, provided an allocating seed declares its result, and by
`Program.run_unreferenced` running it never fails with a reference error.

## Main results

* `Program.EditedAt.readsDeclared`: an edit by expressions reading declared variables keeps every
  read declared;
* `Program.randomChange_reads_declared`: generated expressions are scoped to the earlier
  declarations, and a random change of a program reading only declared variables reads only
  declared variables and runs with no reference error.
-/

namespace TraceSynth

namespace Stmt

/-- An edit reads what the original reads and the variables of the expression it puts in. -/
theorem Edited.reads_subset {G : Expr → Prop} {s s' : Stmt} (h : s.Edited G s') {x : String}
    (hx : x ∈ s'.reads) : x ∈ s.reads ∨ ∃ e, G e ∧ x ∈ e.vars := by
  cases h with
  | @value lhs rhs _ r hr =>
    -- the target reads what it read before; the new value is the generated expression
    cases lhs
    case var y => exact .inr ⟨r, hr, hx⟩
    all_goals
      simp only [reads, optVars, List.mem_append] at hx ⊢
      exact hx.elim (fun h => .inl (.inl h)) fun h => .inr ⟨r, hr, h⟩
  | dropValue => simp [reads, optVars] at hx
  | @targetName o n n' rhs _ hn =>
    simp only [reads, Expr.vars, List.mem_append] at hx ⊢
    rcases hx with (hx | hx) | hx
    · exact .inl (.inl (.inl hx))
    · exact .inr ⟨n', hn, hx⟩
    · exact .inl (.inr hx)
  | @targetObject o o' n rhs _ ho =>
    simp only [reads, Expr.vars, List.mem_append] at hx ⊢
    rcases hx with (hx | hx) | hx
    · exact .inr ⟨o', ho, hx⟩
    · exact .inl (.inl (.inr hx))
    · exact .inl (.inr hx)
  | @readName v o n n' _ hn =>
    simp only [reads, optVars, Expr.vars, List.mem_append] at hx ⊢
    exact hx.elim (fun h => .inl (.inl h)) fun h => .inr ⟨n', hn, h⟩
  | @readObject v o o' n _ ho =>
    simp only [reads, optVars, Expr.vars, List.mem_append] at hx ⊢
    exact hx.elim (fun h => .inr ⟨o', ho, h⟩) fun h => .inl (.inr h)
  | @ret e e' he => exact .inr ⟨e', he, hx⟩
  | @raise e e' he => exact .inr ⟨e', he, hx⟩
  | @deleteObject o o' n ho =>
    simp only [reads, List.mem_append] at hx ⊢
    exact hx.elim (fun h => .inr ⟨o', ho, h⟩) fun h => .inl (.inr h)
  | @deleteName o n n' hn =>
    simp only [reads, List.mem_append] at hx ⊢
    exact hx.elim (fun h => .inl (.inl h)) fun h => .inr ⟨n', hn, h⟩
  | @defineObject o o' n v ho =>
    simp only [reads, List.mem_append] at hx ⊢
    rcases hx with (hx | hx) | hx
    · exact .inr ⟨o', ho, hx⟩
    · exact .inl (.inl (.inr hx))
    · exact .inl (.inr hx)
  | @defineName o n n' v hn =>
    simp only [reads, List.mem_append] at hx ⊢
    rcases hx with (hx | hx) | hx
    · exact .inl (.inl (.inl hx))
    · exact .inr ⟨n', hn, hx⟩
    · exact .inl (.inr hx)
  | @defineValue o n v v' hv =>
    simp only [reads, List.mem_append] at hx ⊢
    rcases hx with (hx | hx) | hx
    · exact .inl (.inl (.inl hx))
    · exact .inl (.inl (.inr hx))
    · exact .inr ⟨v', hv, hx⟩
  | @cond c c' t e hc => exact .inr ⟨c', hc, hx⟩
  | @bound y a b b' c body hb =>
    simp only [reads, List.mem_append] at hx ⊢
    rcases hx with (hx | hx) | hx
    · exact .inl (.inl (.inl hx))
    · exact .inr ⟨b', hb, hx⟩
    · exact .inl (.inr hx)
  | @argument res f args recv _ i e _ he =>
    simp only [reads, List.mem_append, List.mem_flatMap] at hx ⊢
    rcases hx with hx | ⟨a, ha, hxa⟩
    · exact .inl (.inl hx)
    -- an argument of the new list is an old argument or the generated one
    · rcases List.mem_or_eq_of_mem_set ha with ha | rfl
      · exact .inl (.inr ⟨a, ha, hxa⟩)
      · exact .inr ⟨a, he, hxa⟩
  | @receiver res f args r r' _ hr =>
    simp only [reads, optVars, List.mem_append] at hx ⊢
    rcases hx with (hx | hx) | hx
    · exact .inl (.inl (.inl hx))
    · exact .inr ⟨r', hr, hx⟩
    · exact .inl (.inr hx)

/-- A rebuilt conditional or loop reads what it read: its condition and bounds are kept. -/
theorem Rebuilt.reads_eq {s s' : Stmt} (h : s.Rebuilt s') : s'.reads = s.reads := by
  cases h <;> rfl

end Stmt

namespace Program

/-- Reading declared variables, position by position. -/
theorem readsDeclared_iff {p : Program} : p.ReadsDeclared ↔
    ∀ j < p.stmts.length, ∀ x ∈ (p.stmts.getD j default).reads, x ∈ p.declarations.map (·.1) := by
  unfold ReadsDeclared Stmt.ReadsWithin
  constructor
  · intro h j hj
    exact h _ (List.getD_eq_getElem _ _ hj ▸ List.getElem_mem hj)
  · intro h t ht
    obtain ⟨j, hj, rfl⟩ := List.mem_iff_getElem.1 ht
    have hread := h j hj
    rw [List.getD_eq_getElem p.stmts default hj] at hread
    exact hread

/-- Editing one position by expressions that read only declared variables keeps every read
declared: the edited statement reads what it read and the new expression's variables, and every
other position reads what it read. -/
theorem EditedAt.readsDeclared {p q : Program} {site : Nat} {s : Stmt} (hE : p.EditedAt q site s)
    {G : Expr → Prop} (hedit : (p.stmts.getD site default).Edited G s) (hp : p.ReadsDeclared)
    (hG : ∀ e, G e → ∀ x ∈ e.vars, x ∈ p.declarations.map (·.1)) : q.ReadsDeclared := by
  rw [readsDeclared_iff] at hp ⊢
  intro j hj x hx
  rw [hE.declarations_eq]
  have hj' : j < p.stmts.length := hE.length_eq ▸ hj
  by_cases hjs : j = site
  · subst hjs
    rw [hE.at_site] at hx
    rcases hedit.reads_subset hx with hold | ⟨e, he, hxe⟩
    · exact hp j hj' x hold
    · exact hG e he x hxe
  · rcases hE.elsewhere j hjs with heq | hr
    · rw [heq] at hx
      exact hp j hj' x hx
    · rw [hr.reads_eq] at hx
      exact hp j hj' x hx

/-- Generated expressions read only variables declared before their site, and the result's
length for an allocating seed; so a random change of a program whose statements read only
declared variables, whose seed declares its result if it allocates it, reads only declared
variables, and running it never fails with a reference error. -/
theorem randomChange_reads_declared :
    (∀ (ctx : MutationContext) (p : Program) (site : Nat) (req : Requirement) (rng : Rng)
      (e : Expr), (((Generator.atSite ctx p.declarations site).expr req).run rng).1 = some e →
        e.Scoped (fun x => ∃ i < site, (x, i) ∈ p.declarations) ctx.useAlloc) ∧
    ∀ (ctx : MutationContext) (p q : Program) (rng rng' : Rng), p.ReadsDeclared →
      (ctx.useAlloc = true → Expr.resultName ∈ p.declarations.map (·.1)) →
      (p.randomChange ctx).run rng = (.ok q, rng') →
      q.ReadsDeclared ∧ ∀ (args : List Value) (r : Recording) (msg : Bytes),
        ((q.run args).exec r).1 ≠ .error (.runtime .referenceError msg) := by
  refine ⟨fun ctx p site req rng e he => Generator.atSite_expr_scoped ctx _ site req rng e he,
    fun ctx p q rng rng' hp hresult h => ?_⟩
  obtain ⟨site, s, hsite, hedit, hsoft, hq⟩ := randomChange_edits h
  -- a generated expression reads a variable declared before the site, or the declared result
  have hscoped : ∀ e : Expr, e.Scoped (fun x => ∃ i < site, (x, i) ∈ p.declarations)
      ctx.useAlloc → ∀ x ∈ e.vars, x ∈ p.declarations.map (·.1) := by
    intro e he x hx
    rcases he.mem_vars hx with ⟨i, -, hxi⟩ | ⟨rfl, hu⟩
    · exact List.mem_map.2 ⟨(x, i), hxi, rfl⟩
    · exact hresult hu
  have hreads := (editedAt_of_replace hsite hedit hsoft hq).readsDeclared hedit hp hscoped
  refine ⟨hreads, fun args r msg hfail => ?_⟩
  have hends := q.run_unreferenced hreads args r
  rw [hfail] at hends
  simp [Fault.isReference] at hends

set_option maxRecDepth 100000 in
/-- Seeded with 1, a random change of `var n0 = arg0.x; return n0` for a target of one argument
returns `n0 == (arg0 - 1)` instead: it reads only declared variables and runs with no reference
error. -/
theorem randomChange_reads_declared_read :
    ∃ q rng', (({ body := .seq [.assign (.var "n0") (some (.field (Expr.arg 0) (.const (.str "x"))))
        true, .ret (.var "n0")] } : Program).randomChange { nargs := 1 }).run
        (Rng.seeded 1) = (.ok q, rng') ∧
      q.toText = "var n0 = arg0.x\nreturn n0 == (arg0 - 1)" ∧
      q.ReadsDeclared ∧ ∀ (args : List Value) (r : Recording) (msg : Bytes),
        ((q.run args).exec r).1 ≠ .error (.runtime .referenceError msg) := by
  -- the changed program's text, compared in one Boolean that the kernel evaluates
  have hok : ((({ body := .seq [.assign (.var "n0") (some (.field (Expr.arg 0) (.const (.str "x"))))
      true, .ret (.var "n0")] } : Program).randomChange { nargs := 1 }).run
      (Rng.seeded 1)).1.toOption.map Program.toText ==
        some "var n0 = arg0.x\nreturn n0 == (arg0 - 1)" := by
    decide +kernel
  rcases hrun : (({ body := .seq [.assign (.var "n0") (some (.field (Expr.arg 0)
      (.const (.str "x")))) true, .ret (.var "n0")] } : Program).randomChange { nargs := 1 }).run
      (Rng.seeded 1) with ⟨e | q, rng'⟩
  · rw [hrun] at hok
    cases hok
  · rw [hrun] at hok
    simp only [Except.toOption, Option.map_some, beq_iff_eq, Option.some.injEq] at hok
    exact ⟨q, rng', rfl, hok, randomChange_reads_declared.2 _ _ q _ rng' (by decide +kernel)
      (fun h => by cases h) hrun⟩

end Program

end TraceSynth
