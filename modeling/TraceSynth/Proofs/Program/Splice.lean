import TraceSynth.Program.Stmt
import Mathlib.Data.List.GetD

/-!
# Replacing a statement splices the pre-order list

The statements a program addresses are listed in pre-order, a compound statement before the
statements inside it, so the statement at position `k` and those inside it fill the positions
`k ..< k + n` where `n` is its own count (`Stmt.count_getD_le`). Replacing position `k` puts
the replacement's statements in that place (`Stmt.splice`) and leaves every position outside it
as it was, except the compound statements around position `k`: those are rebuilt with the
replacement inside, and keep their condition, their loop bounds and their other arm
(`Stmt.Rebuilt`).

## Main results

* `Stmt.length_all`: a statement addresses as many statements as it counts;
* `Stmt.all_replaceAt`: the pre-order list after a replacement is the old list with the
  replaced subtree cut out and the replacement's list put in its place, the enclosing
  statements rebuilt (`Stmt.rebuildAt_kept_or_rebuilt`);
* `Program.replace_splices`: the same for a program, together with the refusal of every
  position outside `0 ..< numStmts`.
-/

namespace TraceSynth

/-- The statements a replacement puts in place of the addressed one, in pre-order: none for a
deletion. -/
def Replacement.stmts (r : Replacement) : List Stmt := (Stmt.orEmpty r.result).all

namespace Stmt

/-- A compound statement rebuilt around a replacement: the same condition and other arm, or
the same loop variable and bounds, with one arm or the body replaced. -/
inductive Rebuilt : Stmt → Stmt → Prop
  | thenArm (c : Expr) (t e t' : Stmt) : Rebuilt (.ite c t e) (.ite c t' e)
  | elseArm (c : Expr) (t e e' : Stmt) : Rebuilt (.ite c t e) (.ite c t e')
  | body (v : String) (a b c : Expr) (body body' : Stmt) :
      Rebuilt (.loop v a b c body) (.loop v a b c body')

/-- The statement at pre-order position `j` once position `k` is replaced by `r`: a statement
whose subtree reaches past `k` takes the replacement at the relative position `k - j`, and any
other statement stays. -/
def rebuildAt (k : Nat) (r : Replacement) (j : Nat) (u : Stmt) : Stmt :=
  if k < j + u.count then orEmpty (u.replaceAt (k - j) r) else u

theorem rebuildAt_of_le {k j : Nat} {u : Stmt} (r : Replacement) (h : j + u.count ≤ k) :
    rebuildAt k r j u = u := by
  simp [rebuildAt, Nat.not_lt.2 h]

/-- Shifting both positions by the same amount rebuilds alike. -/
theorem rebuildAt_add (k d : Nat) (r : Replacement) (j : Nat) (u : Stmt) :
    rebuildAt (k + d) r (j + d) u = rebuildAt k r j u := by
  unfold rebuildAt
  have hpos : (k + d < j + d + u.count) = (k < j + u.count) := by
    apply propext; omega
  have hrel : k + d - (j + d) = k - j := by omega
  simp only [hpos, hrel]

@[simp] theorem orEmpty_some (s : Stmt) : orEmpty (some s) = s := rfl

@[simp] theorem all_empty : empty.all = [] := rfl

mutual

/-- A statement addresses as many statements as it counts. -/
theorem length_all : ∀ s : Stmt, s.all.length = s.count
  | .seq ss => length_allList ss
  | .ite c t e => by simp only [all, count, List.length_cons, List.length_append, length_all t,
      length_all e]; omega
  | .loop v a b c body => by simp only [all, count, List.length_cons, length_all body]; omega
  | .assign .. | .ret _ | .raise _ | .deleteProp .. | .defineProp .. | .call .. | .brk => rfl

theorem length_allList : ∀ ss : List Stmt, (allList ss).length = countList ss
  | [] => rfl
  | s :: rest => by simp [allList, countList, length_all s, length_allList rest]

end

mutual

/-- No addressed statement is a sequence. -/
theorem not_seq_of_mem_all : ∀ (s : Stmt) {u : Stmt}, u ∈ s.all → ∀ ss, u ≠ .seq ss
  | .seq ss, _, hu => not_seq_of_mem_allList ss hu
  | .ite c t e, u, hu => by
    simp only [all, List.mem_cons, List.mem_append] at hu
    rcases hu with rfl | hu | hu
    · intro _ h; cases h
    · exact not_seq_of_mem_all t hu
    · exact not_seq_of_mem_all e hu
  | .loop v a b c body, u, hu => by
    simp only [all, List.mem_cons] at hu
    rcases hu with rfl | hu
    · intro _ h; cases h
    · exact not_seq_of_mem_all body hu
  | .assign .., _, hu | .ret _, _, hu | .raise _, _, hu | .deleteProp .., _, hu
  | .defineProp .., _, hu | .call .., _, hu | .brk, _, hu => by
    simp only [all, List.mem_singleton] at hu
    subst hu
    intro _ h; cases h

theorem not_seq_of_mem_allList : ∀ (ss : List Stmt) {u : Stmt}, u ∈ allList ss → ∀ ss', u ≠ .seq ss'
  | [], _, hu => by simp [allList] at hu
  | s :: rest, _, hu => by
    simp only [allList, List.mem_append] at hu
    rcases hu with hu | hu
    · exact not_seq_of_mem_all s hu
    · exact not_seq_of_mem_allList rest hu

end

mutual

/-- The subtree of the statement at position `j` ends within the statement. -/
theorem count_getD_le : ∀ (s : Stmt) (j : Nat), j < s.count →
    j + (s.all.getD j default).count ≤ s.count
  | .seq ss, j, hj => count_getD_le_list ss j hj
  | .ite c t e, 0, _ => by simp [all]
  | .ite c t e, j + 1, hj => by
    have ht := length_all t
    simp only [all, List.getD_cons_succ]
    simp only [count] at hj ⊢
    by_cases hjt : j < t.count
    · rw [List.getD_append _ _ _ _ (by omega)]
      have := count_getD_le t j hjt
      omega
    · rw [List.getD_append_right _ _ _ _ (by omega), ht]
      have := count_getD_le e (j - t.count) (by omega)
      omega
  | .loop v a b c body, 0, _ => by simp [all]
  | .loop v a b c body, j + 1, hj => by
    simp only [all, List.getD_cons_succ]
    simp only [count] at hj ⊢
    have := count_getD_le body j (by omega)
    omega
  | .assign .., j, hj | .ret _, j, hj | .raise _, j, hj | .deleteProp .., j, hj
  | .defineProp .., j, hj | .call .., j, hj | .brk, j, hj => by
    simp only [count] at hj
    obtain rfl : j = 0 := by omega
    simp [all, count]

theorem count_getD_le_list : ∀ (ss : List Stmt) (j : Nat), j < countList ss →
    j + ((allList ss).getD j default).count ≤ countList ss
  | [], _, hj => by simp [countList] at hj
  | s :: rest, j, hj => by
    have hs := length_all s
    simp only [allList]
    simp only [countList] at hj ⊢
    by_cases hjs : j < s.count
    · rw [List.getD_append _ _ _ _ (by omega)]
      have := count_getD_le s j hjs
      omega
    · rw [List.getD_append_right _ _ _ _ (by omega), hs]
      have := count_getD_le_list rest (j - s.count) (by omega)
      omega

end

/-- Rebuilding for a position past a whole list of addressed statements changes none of them. -/
theorem mapIdx_rebuildAt_all (s : Stmt) (r : Replacement) {k : Nat} (h : s.count ≤ k) :
    s.all.mapIdx (rebuildAt k r) = s.all := by
  rw [List.mapIdx_eq_iff]
  intro j
  rcases Nat.lt_or_ge j s.all.length with hj | hj
  · have hfit := count_getD_le s j (by rw [← length_all]; exact hj)
    rw [List.getD_eq_getElem _ _ hj] at hfit
    rw [List.getElem?_eq_getElem hj, Option.map_some, rebuildAt_of_le r (by omega)]
  · rw [List.getElem?_eq_none hj, Option.map_none]

/-- The pre-order list `L` with position `k` replaced by `r`: the statements before `k`, the
enclosing ones rebuilt, then the replacement's statements, then the statements after the
subtree at `k`. -/
def splice (L : List Stmt) (k : Nat) (r : Replacement) : List Stmt :=
  (L.take k).mapIdx (rebuildAt k r) ++ r.stmts ++ L.drop (k + (L.getD k default).count)

/-- Splicing the first position of a statement's own list leaves only the replacement. -/
theorem splice_all_zero (s : Stmt) (hs : ∀ ss, s ≠ .seq ss) (r : Replacement) :
    splice s.all 0 r = r.stmts := by
  have hhead : s.all.getD 0 default = s := by
    cases s with
    | seq ss => exact absurd rfl (hs ss)
    | _ => rfl
  simp only [splice, List.take_zero, List.mapIdx_nil, List.nil_append, Nat.zero_add, hhead]
  rw [List.drop_eq_nil_of_le (Nat.le_of_eq (length_all s)), List.append_nil]

/-- A position inside the first part of a list is spliced there. -/
theorem splice_append_left (A B : List Stmt) {k : Nat} (r : Replacement) (hk : k < A.length)
    (hfit : k + (A.getD k default).count ≤ A.length) :
    splice (A ++ B) k r = splice A k r ++ B := by
  have hget : (A ++ B).getD k default = A.getD k default := List.getD_append _ _ _ _ hk
  simp only [splice, hget, List.take_append_of_le_length (Nat.le_of_lt hk),
    List.drop_append_of_le_length hfit, List.append_assoc]

/-- A position past a statement's own list is spliced in what follows it. -/
theorem splice_append_right (s : Stmt) (B : List Stmt) {k : Nat} (r : Replacement)
    (hk : s.count ≤ k) :
    splice (s.all ++ B) k r = s.all ++ splice B (k - s.count) r := by
  have hlen := length_all s
  have htake : (s.all ++ B).take k = s.all ++ B.take (k - s.count) := by
    rw [List.take_append, List.take_of_length_le (by omega), hlen]
  have hget : (s.all ++ B).getD k default = B.getD (k - s.count) default := by
    rw [List.getD_append_right _ _ _ _ (by omega), hlen]
  have hdrop : (s.all ++ B).drop (k + (B.getD (k - s.count) default).count) =
      B.drop (k - s.count + (B.getD (k - s.count) default).count) := by
    rw [List.drop_append, List.drop_eq_nil_of_le (by omega), List.nil_append, hlen]
    congr 1
    omega
  -- past the statement's own list, rebuilding is the same as for the shifted position
  have hshift : (fun j => rebuildAt k r (j + s.all.length)) = rebuildAt (k - s.count) r := by
    funext j u
    rw [hlen, ← rebuildAt_add (k - s.count) s.count r j u, Nat.sub_add_cancel hk]
  simp only [splice, htake, hget, hdrop, List.mapIdx_append, hshift,
    mapIdx_rebuildAt_all s r hk, List.append_assoc]

/-- A position past the head of a list is spliced in its tail, the head rebuilt. -/
theorem splice_cons (u : Stmt) (L : List Stmt) (k : Nat) (r : Replacement) :
    splice (u :: L) (k + 1) r = rebuildAt (k + 1) r 0 u :: splice L k r := by
  have hshift : (fun j => rebuildAt (k + 1) r (j + 1)) = rebuildAt k r := by
    funext j v
    exact rebuildAt_add k 1 r j v
  simp only [splice, List.take_succ_cons, List.mapIdx_cons, hshift, List.getD_cons_succ,
    Nat.add_right_comm k 1, List.drop_succ_cons, List.cons_append]

/-- A replacement reaching into a statement from its own position rebuilds it. -/
theorem rebuildAt_zero {k : Nat} {u : Stmt} (r : Replacement) (hk : k < u.count) :
    rebuildAt k r 0 u = orEmpty (u.replaceAt k r) := by
  simp [rebuildAt, hk]

mutual

/-- Replacing position `k` of a statement splices its pre-order list at `k`. -/
theorem all_replaceAt : ∀ (s : Stmt) (k : Nat), k < s.count → ∀ r : Replacement,
    (orEmpty (s.replaceAt k r)).all = splice s.all k r
  | .seq ss, k, hk, r => allList_replaceList ss k hk r
  | .ite c t e, 0, _, r => by
    rw [splice_all_zero _ (fun _ h => Stmt.noConfusion h)]
    rfl
  | .ite c t e, k + 1, hk, r => by
    simp only [count] at hk
    have hall : (Stmt.ite c t e).all = .ite c t e :: (t.all ++ e.all) := rfl
    by_cases hkt : k < t.count
    · -- the position lies in the `then` arm
      have hrep : (Stmt.ite c t e).replaceAt (k + 1) r =
          some (.ite c (orEmpty (t.replaceAt k r)) e) := by
        simp [replaceAt, hkt]
      have hfit := count_getD_le t k hkt
      calc (orEmpty ((Stmt.ite c t e).replaceAt (k + 1) r)).all
          = .ite c (orEmpty (t.replaceAt k r)) e :: ((orEmpty (t.replaceAt k r)).all ++ e.all) := by
            rw [hrep]; rfl
        _ = .ite c (orEmpty (t.replaceAt k r)) e :: (splice t.all k r ++ e.all) := by
            rw [all_replaceAt t k hkt r]
        _ = .ite c (orEmpty (t.replaceAt k r)) e :: splice (t.all ++ e.all) k r := by
            rw [splice_append_left _ _ r (by rw [length_all]; exact hkt)
              (by rw [length_all]; exact hfit)]
        _ = splice (Stmt.ite c t e).all (k + 1) r := by
            rw [hall, splice_cons, rebuildAt_zero r (by simp only [count]; omega), hrep,
              orEmpty_some]
    · -- the position lies in the `else` arm
      have hrep : (Stmt.ite c t e).replaceAt (k + 1) r =
          some (.ite c t (orEmpty (e.replaceAt (k - t.count) r))) := by
        simp [replaceAt, hkt]
      calc (orEmpty ((Stmt.ite c t e).replaceAt (k + 1) r)).all
          = .ite c t (orEmpty (e.replaceAt (k - t.count) r)) ::
              (t.all ++ (orEmpty (e.replaceAt (k - t.count) r)).all) := by
            rw [hrep]; rfl
        _ = .ite c t (orEmpty (e.replaceAt (k - t.count) r)) ::
              (t.all ++ splice e.all (k - t.count) r) := by
            rw [all_replaceAt e (k - t.count) (by omega) r]
        _ = .ite c t (orEmpty (e.replaceAt (k - t.count) r)) :: splice (t.all ++ e.all) k r := by
            rw [splice_append_right t _ r (by omega)]
        _ = splice (Stmt.ite c t e).all (k + 1) r := by
            rw [hall, splice_cons, rebuildAt_zero r (by simp only [count]; omega), hrep,
              orEmpty_some]
  | .loop v a b c body, 0, _, r => by
    rw [splice_all_zero _ (fun _ h => Stmt.noConfusion h)]
    rfl
  | .loop v a b c body, k + 1, hk, r => by
    simp only [count] at hk
    have hrep : (Stmt.loop v a b c body).replaceAt (k + 1) r =
        some (.loop v a b c (orEmpty (body.replaceAt k r))) := by
      simp [replaceAt]
    calc (orEmpty ((Stmt.loop v a b c body).replaceAt (k + 1) r)).all
        = .loop v a b c (orEmpty (body.replaceAt k r)) :: (orEmpty (body.replaceAt k r)).all := by
          rw [hrep]; rfl
      _ = .loop v a b c (orEmpty (body.replaceAt k r)) :: splice body.all k r := by
          rw [all_replaceAt body k (by omega) r]
      _ = splice (Stmt.loop v a b c body).all (k + 1) r := by
          rw [show (Stmt.loop v a b c body).all = .loop v a b c body :: body.all from rfl,
            splice_cons, rebuildAt_zero r (by simp only [count]; omega), hrep, orEmpty_some]
  | .assign .., k, hk, r | .ret _, k, hk, r | .raise _, k, hk, r | .deleteProp .., k, hk, r
  | .defineProp .., k, hk, r | .call .., k, hk, r | .brk, k, hk, r => by
    simp only [count] at hk
    obtain rfl : k = 0 := by omega
    rw [splice_all_zero _ (fun _ h => Stmt.noConfusion h)]
    rfl

/-- Replacing position `k` of a list of statements splices its pre-order list at `k`. -/
theorem allList_replaceList : ∀ (ss : List Stmt) (k : Nat), k < countList ss →
    ∀ r : Replacement, allList (replaceList ss k r) = splice (allList ss) k r
  | [], _, hk, _ => absurd hk (by simp [countList])
  | s :: rest, k, hk, r => by
    simp only [countList] at hk
    have hall : allList (s :: rest) = s.all ++ allList rest := rfl
    by_cases hks : k < s.count
    · -- the position lies in the first statement
      have hfit := count_getD_le s k hks
      calc allList (replaceList (s :: rest) k r)
          = (orEmpty (s.replaceAt k r)).all ++ allList rest := by
            rw [replaceList, if_pos hks]
            cases s.replaceAt k r <;> simp [allList, orEmpty]
        _ = splice s.all k r ++ allList rest := by rw [all_replaceAt s k hks r]
        _ = splice (allList (s :: rest)) k r := by
            rw [hall, splice_append_left _ _ r (by rw [length_all]; exact hks)
              (by rw [length_all]; exact hfit)]
    · -- the position lies in the rest of the list
      calc allList (replaceList (s :: rest) k r)
          = s.all ++ allList (replaceList rest (k - s.count) r) := by
            rw [replaceList, if_neg hks]; rfl
        _ = s.all ++ splice (allList rest) (k - s.count) r := by
            rw [allList_replaceList rest (k - s.count) (by omega) r]
        _ = splice (allList (s :: rest)) k r := by
            rw [hall, splice_append_right s _ r (by omega)]

end

/-- A compound statement enclosing the replaced position is rebuilt around it. -/
theorem rebuilt_rebuildAt {k j : Nat} {u : Stmt} (r : Replacement) (hu : ∀ ss, u ≠ .seq ss)
    (hj : j < k) (hk : k < j + u.count) : Rebuilt u (rebuildAt k r j u) := by
  rw [rebuildAt, if_pos hk]
  obtain ⟨m, hm⟩ : ∃ m, k - j = m + 1 := ⟨k - j - 1, by omega⟩
  rw [hm]
  cases u with
  | ite c t e =>
    by_cases hmt : m < t.count
    · simpa [replaceAt, hmt] using Rebuilt.thenArm c t e _
    · simpa [replaceAt, hmt] using Rebuilt.elseArm c t e _
  | loop v a b c body => simpa [replaceAt] using Rebuilt.body v a b c body _
  | seq ss => exact absurd rfl (hu ss)
  | _ =>
    simp only [count] at hk
    omega

/-- Each statement before the replaced position is kept when its subtree ends by that
position, and otherwise encloses the position and is rebuilt around it. -/
theorem rebuildAt_kept_or_rebuilt (s : Stmt) {k j : Nat} {u : Stmt} (r : Replacement)
    (hj : j < k) (hu : s.all[j]? = some u) :
    (j + u.count ≤ k ∧ rebuildAt k r j u = u) ∨
      (k < j + u.count ∧ Rebuilt u (rebuildAt k r j u)) := by
  have hnot : ∀ ss, u ≠ .seq ss := not_seq_of_mem_all s (List.mem_of_getElem? hu)
  rcases Nat.lt_or_ge k (j + u.count) with hk | hk
  · exact .inr ⟨hk, rebuilt_rebuildAt r hnot hj hk⟩
  · exact .inl ⟨hk, rebuildAt_of_le r hk⟩

end Stmt

namespace Program

/-- Replacing the statement at a position: the program addresses as many statements as it
counts; a position outside `0 ..< numStmts` is refused with that position and count; any other
position is replaced, and the program's statements in pre-order are the old ones spliced there,
each statement before the position either kept or rebuilt around it. The program replaced is a
value and stays as it was. -/
theorem replace_splices (p : Program) (i : Int) (r : Replacement) :
    p.numStmts = p.stmts.length ∧
    ((i < 0 ∨ p.numStmts ≤ i) → p.replace i r = .error ⟨i, p.numStmts⟩) ∧
    (0 ≤ i → i < p.numStmts → ∃ q, p.replace i r = .ok q ∧
      q.stmts = Stmt.splice p.stmts i.toNat r ∧
      ∀ j < i.toNat, ∀ u, p.stmts[j]? = some u →
        (j + u.count ≤ i.toNat ∧ Stmt.rebuildAt i.toNat r j u = u) ∨
          (i.toNat < j + u.count ∧ Stmt.Rebuilt u (Stmt.rebuildAt i.toNat r j u))) := by
  refine ⟨(Stmt.length_all p.body).symm, fun hout => ?_, fun h0 hlt => ?_⟩
  · have hrefuse : (decide (i < 0) || decide (i ≥ (p.numStmts : Int))) = true := by
      rcases hout with h | h <;> simp [h]
    simp only [replace, hrefuse, if_true]
  · have hin : (decide (i < 0) || decide (i ≥ (p.numStmts : Int))) = false := by
      simp only [Bool.or_eq_false_iff, decide_eq_false_iff_not]
      omega
    refine ⟨_, by simp only [replace, hin]; rfl, ?_, ?_⟩
    · exact Stmt.all_replaceAt p.body i.toNat (by unfold numStmts at hlt; omega) r
    · intro j hj u hu
      exact Stmt.rebuildAt_kept_or_rebuilt p.body r hj hu

/-- In `var a = 1; if (a) { a = 2 } else { a = 3 }; return a`, the statement `a = 2` inside
the conditional is deleted by splicing, and position 5 is refused. -/
theorem replace_splices_in_arm :
    (∃ q, ({ body := .seq [.assign (.var "a") (some (.const (.number 1))) true,
        .ite (.var "a") (.seq [.assign (.var "a") (some (.const (.number 2))) false])
          (.seq [.assign (.var "a") (some (.const (.number 3))) false]),
        .ret (.var "a")] } : Program).replace 2 .delete = .ok q ∧
      q.stmts = Stmt.splice ({ body := .seq [.assign (.var "a") (some (.const (.number 1))) true,
        .ite (.var "a") (.seq [.assign (.var "a") (some (.const (.number 2))) false])
          (.seq [.assign (.var "a") (some (.const (.number 3))) false]),
        .ret (.var "a")] } : Program).stmts 2 .delete) ∧
    ({ body := .seq [.assign (.var "a") (some (.const (.number 1))) true,
        .ite (.var "a") (.seq [.assign (.var "a") (some (.const (.number 2))) false])
          (.seq [.assign (.var "a") (some (.const (.number 3))) false]),
        .ret (.var "a")] } : Program).replace 5 .delete = .error ⟨5, 5⟩ := by
  refine ⟨?_, (replace_splices _ 5 .delete).2.1 (.inr (by decide))⟩
  exact ((replace_splices _ 2 .delete).2.2 (by decide) (by decide)).imp fun _ h => ⟨h.1, h.2.1⟩

/-- Deleting the conditional of `var a = 1; if (a) { a = 2 } else { a = 3 }; return a` drops
both its arms. -/
example :
    (({ body := .seq [.assign (.var "a") (some (.const (.number 1))) true,
        .ite (.var "a") (.seq [.assign (.var "a") (some (.const (.number 2))) false])
          (.seq [.assign (.var "a") (some (.const (.number 3))) false]),
        .ret (.var "a")] } : Program).replace 1 .delete).toOption.map numStmts = some 2 := by
  decide

end Program

end TraceSynth
