import TraceSynth.Proofs.Mutation.Edit
import TraceSynth.Proofs.Program.Splice

/-!
# A random change keeps the program's shape

The statement at a pre-order position and the statements inside it fill a contiguous block of
the pre-order list (`Stmt.drop_all`). An edit has the same statements inside it as the original,
so replacing a position by an edit of its statement changes the pre-order list at that position
only, and rebuilds the compound statements around it (`Stmt.all_replaceAt_edited`). Position by
position, the program after a random change is the program before it, but for the edited
statement and the conditionals and loops that enclose it, which keep their condition and bounds;
and it declares the same variables at the same positions.

## Main results

* `Program.stmts_replace_edited`: the pre-order list after replacing a position by an edit;
* `Program.declarations_eq_of_map_declared`: the declarations depend only on what each position
  declares;
* `Program.randomChange_keeps_shape`: a random change edits one slot of one statement, leaves
  every other position as it was or rebuilt around the edit, and keeps the kinds of all
  statements and the declarations.
-/

namespace TraceSynth

namespace Stmt

/-- Dropping past the first list of an append drops from the second. -/
private theorem drop_append_past {A B : List Stmt} {j : Nat} (h : A.length ≤ j) :
    (A ++ B).drop j = B.drop (j - A.length) := by
  rw [List.drop_append, List.drop_eq_nil_of_le h, List.nil_append]

mutual

/-- The statement at position `j` and the statements inside it come first in the list from `j`
on. -/
theorem drop_all : ∀ (s : Stmt) (j : Nat), j < s.count →
    s.all.drop j = (s.all.getD j default).all ++ s.all.drop (j + (s.all.getD j default).count)
  | .seq ss, j, hj => drop_allList ss j hj
  | .ite c t e, 0, _ => by
    have := length_all (.ite c t e)
    simp only [List.drop_zero, List.getD_cons_zero, all] at this ⊢
    rw [List.drop_eq_nil_of_le (by omega), List.append_nil]
  | .ite c t e, j + 1, hj => by
    simp only [count] at hj
    have ht := length_all t
    simp only [all, List.drop_succ_cons, List.getD_cons_succ]
    by_cases hjt : j < t.count
    · -- the position lies in the `then` arm, whose block ends inside it
      have hfit := count_getD_le t j hjt
      rw [List.getD_append _ _ _ _ (by omega), List.drop_append_of_le_length (by omega),
        drop_all t j hjt, List.append_assoc, Nat.add_right_comm,
        List.drop_succ_cons, List.drop_append_of_le_length (by omega)]
    · -- the position lies in the `else` arm
      have hge : t.all.length ≤ j := by omega
      have ihe := drop_all e (j - t.count) (by omega)
      rw [List.getD_append_right _ _ _ _ hge, drop_append_past hge, Nat.add_right_comm,
        List.drop_succ_cons, drop_append_past (by omega), ht, ihe, show j + (e.all.getD (j - t.count) default).count - t.count =
          j - t.count + (e.all.getD (j - t.count) default).count by omega]
  | .loop v a b c body, 0, _ => by
    have := length_all (.loop v a b c body)
    simp only [List.drop_zero, List.getD_cons_zero, all] at this ⊢
    rw [List.drop_eq_nil_of_le (by omega), List.append_nil]
  | .loop v a b c body, j + 1, hj => by
    simp only [count] at hj
    simp only [all, List.drop_succ_cons, List.getD_cons_succ]
    rw [drop_all body j (by omega), Nat.add_right_comm, List.drop_succ_cons]
  | .assign .., j, hj | .ret _, j, hj | .raise _, j, hj | .deleteProp .., j, hj
  | .defineProp .., j, hj | .call .., j, hj | .brk, j, hj => by
    simp only [count] at hj
    obtain rfl : j = 0 := by omega
    rfl

theorem drop_allList : ∀ (ss : List Stmt) (j : Nat), j < countList ss →
    (allList ss).drop j =
      ((allList ss).getD j default).all ++ (allList ss).drop (j + ((allList ss).getD j default).count)
  | [], _, hj => by simp [countList] at hj
  | s :: rest, j, hj => by
    simp only [countList] at hj
    have hs := length_all s
    simp only [allList]
    by_cases hjs : j < s.count
    · have hfit := count_getD_le s j hjs
      rw [List.getD_append _ _ _ _ (by omega), List.drop_append_of_le_length (by omega),
        drop_all s j hjs, List.append_assoc, List.drop_append_of_le_length (by omega)]
    · have hge : s.all.length ≤ j := by omega
      have ihr := drop_allList rest (j - s.count) (by omega)
      rw [List.getD_append_right _ _ _ _ hge, drop_append_past hge, drop_append_past (by omega),
        hs, ihr,
        show j + ((allList rest).getD (j - s.count) default).count - s.count =
          j - s.count + ((allList rest).getD (j - s.count) default).count by omega]

end

/-- The positions of a list before `k` rebuilt by `f`, and position `k` set to `s'`. -/
theorem getElem?_rebuilt (L : List Stmt) (f : Nat → Stmt → Stmt) {k : Nat} (hk : k < L.length)
    (s' : Stmt) (j : Nat) :
    ((L.take k).mapIdx f ++ s' :: L.drop (k + 1))[j]? =
      if j < k then L[j]?.map (f j) else if j = k then some s' else L[j]? := by
  have hlen : ((L.take k).mapIdx f).length = k := by simp; omega
  by_cases hjk : j < k
  · rw [if_pos hjk, List.getElem?_append_left (by omega), List.getElem?_mapIdx,
      List.getElem?_take, if_pos hjk]
  · rw [if_neg hjk, List.getElem?_append_right (by omega), hlen]
    by_cases hj : j = k
    · subst hj
      simp
    · obtain ⟨m, hm⟩ : ∃ m, j - k = m + 1 := ⟨j - k - 1, by omega⟩
      rw [if_neg hj, hm, List.getElem?_cons_succ, List.getElem?_drop]
      congr 1
      omega

/-- Replacing position `k` by an edit of its statement puts the edit at `k`, rebuilds the
positions before it and keeps those after it: the statements inside the edit are those inside
the original. -/
theorem splice_edited {G : Expr → Prop} {s s' : Stmt} {k : Nat} (hk : k < s.count)
    (h : (s.all.getD k default).Edited G s') :
    splice s.all k (.put s') = (s.all.take k).mapIdx (rebuildAt k (.put s')) ++ s' :: s.all.drop (k + 1) := by
  -- past position `k` come the statements inside it, then those after its subtree
  have hnext : s.all.drop (k + 1) =
      (s.all.getD k default).all.tail ++ s.all.drop (k + (s.all.getD k default).count) := by
    rw [← List.drop_drop, drop_all s k hk, h.all_source]
    rfl
  simp only [splice, Replacement.stmts, Replacement.result, orEmpty_some, h.all_eq, hnext,
    List.append_assoc, List.cons_append]

theorem Rebuilt.kind_eq {u u' : Stmt} (h : u.Rebuilt u') : u'.kind = u.kind := by
  cases h <;> rfl

theorem Rebuilt.declared_eq {u u' : Stmt} (h : u.Rebuilt u') : u'.declared = u.declared := by
  cases h <;> rfl

/-- The declarations of a statement, read off what each addressed statement declares. -/
theorem declarations_eq (s : Stmt) :
    s.declarations = (s.all.map declared).zipIdx.filterMap fun d => d.1.map (·, d.2) := by
  rw [List.zipIdx_map, List.filterMap_map]
  unfold declarations
  congr 1
  funext d
  obtain ⟨st, i⟩ := d
  rcases st with ⟨lhs, rhs, decl⟩ | _ | _ | _ | _ | _ | _ | _ | ⟨res, _, _, _, decl⟩ | _
  · rcases lhs with _ | _ | _ | _ | _ | _ | _ <;> cases decl <;> rfl
  all_goals first | rfl | (cases decl <;> rfl)

end Stmt

namespace Program

/-- The positions of a program after replacing position `site` by an edit of its statement:
the edit at `site`, the positions before it rebuilt, those after it kept. -/
theorem stmts_replace_edited {G : Expr → Prop} {p q : Program} {site : Nat} {s : Stmt}
    (hsite : site < p.stmts.length) (h : (p.stmts.getD site default).Edited G s)
    (hq : p.replace site (.put s) = .ok q) :
    q.stmts = (p.stmts.take site).mapIdx (Stmt.rebuildAt site (.put s)) ++ s :: p.stmts.drop (site + 1) := by
  have hcount : site < p.numStmts := by rw [(replace_splices p site (.put s)).1]; exact hsite
  obtain ⟨q', hq', hstmts, -⟩ := (replace_splices p site (.put s)).2.2 (by omega) (by omega)
  rw [hq] at hq'
  cases hq'
  rw [hstmts, Int.toNat_natCast]
  exact Stmt.splice_edited (by unfold numStmts at hcount; exact hcount) h

/-- Two programs whose positions declare the same variables have the same declarations. -/
theorem declarations_eq_of_map_declared {p q : Program}
    (h : q.stmts.map Stmt.declared = p.stmts.map Stmt.declared) : q.declarations = p.declarations := by
  unfold declarations
  rw [Stmt.declarations_eq, Stmt.declarations_eq]
  exact congrArg (fun l => l.zipIdx.filterMap fun d => d.1.map (·, d.2)) h

/-- Two lists of the same length whose positions agree under `f` agree under `f` as lists. -/
theorem map_eq_of_getD {β : Type} {L M : List Stmt} {f : Stmt → β} (hlen : M.length = L.length)
    (h : ∀ j, f (M.getD j default) = f (L.getD j default)) : M.map f = L.map f := by
  refine List.ext_getElem (by simp [hlen]) fun j hM hL => ?_
  have hj := h j
  rw [List.getD_eq_getElem _ _ (by simpa using hM), List.getD_eq_getElem _ _ (by simpa using hL)] at hj
  simpa using hj

/-- `q` is `p` with one slot of the statement at position `site` changed, giving `s`, and the
shape of `p` kept: `q` addresses as many statements; `s` is at `site`, and every other position
holds the statement it held in `p`, or a conditional or loop around `site` rebuilt with the same
condition, or the same variable and bounds, and the same other arm; every position keeps its
kind; and the same variables are declared at the same positions. -/
structure EditedAt (p q : Program) (site : Nat) (s : Stmt) : Prop where
  site_lt : site < p.stmts.length
  replaced : p.replace site (.put s) = .ok q
  edit : (p.stmts.getD site default).Edited (fun _ => True) s
  /-- The edit differs from the original where strategies compare. -/
  differs : (p.stmts.getD site default).softEquals s = false
  length_eq : q.stmts.length = p.stmts.length
  at_site : q.stmts.getD site default = s
  elsewhere : ∀ j, j ≠ site → q.stmts.getD j default = p.stmts.getD j default ∨
    (p.stmts.getD j default).Rebuilt (q.stmts.getD j default)
  kind_eq : ∀ j, (q.stmts.getD j default).kind = (p.stmts.getD j default).kind
  declarations_eq : q.declarations = p.declarations

/-- Replacing a position by an edit of its statement that differs where strategies compare
keeps the program's shape. -/
theorem editedAt_of_replace {G : Expr → Prop} {p q : Program} {site : Nat} {s : Stmt}
    (hsite : site < p.stmts.length) (hedit : (p.stmts.getD site default).Edited G s)
    (hsoft : (p.stmts.getD site default).softEquals s = false)
    (hq : p.replace site (.put s) = .ok q) : p.EditedAt q site s := by
  have hstmts := stmts_replace_edited hsite hedit hq
  have hpos : ∀ j, q.stmts[j]? = if j < site then p.stmts[j]?.map (Stmt.rebuildAt site (.put s) j)
      else if j = site then some s else p.stmts[j]? := by
    intro j
    rw [hstmts]
    exact Stmt.getElem?_rebuilt _ _ hsite s j
  have hlen : q.stmts.length = p.stmts.length := by
    rw [hstmts]
    simp only [List.length_append, List.length_mapIdx, List.length_take, List.length_cons,
      List.length_drop]
    omega
  have hat : q.stmts.getD site default = s := by
    rw [List.getD_eq_getElem?_getD, hpos, if_neg (Nat.lt_irrefl site), if_pos rfl]
    rfl
  -- a position other than the edited one is kept, or encloses the edit and is rebuilt
  have hother : ∀ j, j ≠ site → q.stmts.getD j default = p.stmts.getD j default ∨
      (p.stmts.getD j default).Rebuilt (q.stmts.getD j default) := by
    intro j hj
    rw [List.getD_eq_getElem?_getD, List.getD_eq_getElem?_getD, hpos j]
    by_cases hlt : j < site
    · rw [if_pos hlt]
      cases hu : p.stmts[j]? with
      | none => exact .inl rfl
      | some u =>
        rcases Stmt.rebuildAt_kept_or_rebuilt p.body (.put s) hlt hu with ⟨-, hkept⟩ | ⟨-, hr⟩
        · exact .inl (by simp [hkept])
        · exact .inr (by simpa using hr)
    · rw [if_neg hlt, if_neg hj]
      exact .inl rfl
  -- every position keeps its kind and the variable it declares
  have hkeeps : ∀ j, (q.stmts.getD j default).kind = (p.stmts.getD j default).kind ∧
      (q.stmts.getD j default).declared = (p.stmts.getD j default).declared := by
    intro j
    by_cases hj : j = site
    · subst hj
      rw [hat]
      exact ⟨hedit.kind_eq, hedit.declared_eq⟩
    · rcases hother j hj with heq | hr
      · rw [heq]
        exact ⟨rfl, rfl⟩
      · exact ⟨hr.kind_eq, hr.declared_eq⟩
  exact ⟨hsite, hq, hedit.mono fun _ _ => trivial, hsoft, hlen, hat, hother,
    fun j => (hkeeps j).1,
    declarations_eq_of_map_declared (map_eq_of_getD hlen fun j => (hkeeps j).2)⟩

/-- A random change edits one slot of one statement and keeps the program's shape. -/
theorem randomChange_keeps_shape {ctx : MutationContext} {p q : Program} {rng rng' : Rng}
    (h : (p.randomChange ctx).run rng = (.ok q, rng')) : ∃ site s, p.EditedAt q site s := by
  obtain ⟨site, s, hsite, hedit, hsoft, hq⟩ := randomChange_edits h
  exact ⟨site, s, editedAt_of_replace hsite hedit hsoft hq⟩

set_option maxRecDepth 100000 in
/-- A random change of a program that declares a variable from its argument, branches on it and
runs a loop in its else branch: on the source seeded with 8 it turns the loop's end bound `2`
into `n`, inside the conditional, and the program keeps its shape. -/
theorem randomChange_keeps_shape_nested_loop :
    let p : Program := { body := .seq [
      .assign (.var "n") (some (.field (Expr.arg 0) (.const (.str "x")))) true,
      .ite (.var "n")
        (.seq [.assign (.field (Expr.arg 0) (.const (.str "y"))) (some (.const (.number 1))) false])
        (.seq [.loop "i" (.const (.number 0)) (.const (.number 2)) (.const (.number 1)) (.seq [.brk])]),
      .ret (.var "n")] }
    ∃ q rng', (p.randomChange { constants := [.number 1], nargs := 1 }).run (Rng.seeded 8) =
      (.ok q, rng') ∧ ∃ site s, p.EditedAt q site s := by
  intro p
  have hok : ((p.randomChange { constants := [.number 1], nargs := 1 }).run
      (Rng.seeded 8)).1.toBool = true := by
    decide +kernel
  rcases hrun : (p.randomChange { constants := [.number 1], nargs := 1 }).run (Rng.seeded 8) with
    ⟨e | q, rng'⟩
  · rw [hrun] at hok
    cases hok
  · exact ⟨q, rng', rfl, randomChange_keeps_shape hrun⟩

end Program

end TraceSynth
