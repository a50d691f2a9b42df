import TraceSynth.Proofs.Program.ReadBack
import TraceSynth.Proofs.Run.References

/-!
# The reader never runs out of fuel

Each function of the program reader carries fuel, and fails with `exhausted` when it has none
left. This module proves that the fuel `Program.parse` gives, eight per token, is never the
reason a read stops: run on the tokens the tokenizer makes, every function of the reader, given
eight units per token still ahead and a small slack that depends on the function, ends with a
result or with a problem of the text, never with `exhausted`. The results hold only primitive
constants.

The argument follows the reader's own comment. Along any chain of nested calls that reads no
token the slack decreases, and a call after a read token has eight units more to spare; so
every call finds the fuel it needs (`settle`). A read is stated as a predicate on the outcome
of a run (`EndsWell`), which composes along `>>=` (`endsWell_bind`), so each step lemma walks
through a function's body as the function runs.

## Main results

* `settle`: every reader function ends well from every position, at every fuel of eight per
  token ahead plus its slack;
* `parse_total`: `Program.parse` returns a program whose constants are primitives, or a
  problem of the text, which the tokenizer met or the reader met for another reason than
  running out of fuel.
-/

namespace TraceSynth

/-- Every constant of the expression is a primitive. -/
def Expr.constsPrimitive : Expr → Bool
  | .const v => v.isPrimitive
  | .field o n => o.constsPrimitive && n.constsPrimitive
  | .argument i => i.constsPrimitive
  | .var _ | .alloc _ => true
  | .binary _ a b => a.constsPrimitive && b.constsPrimitive
  | .not e => e.constsPrimitive

/-- Every constant of every expression the statement holds, at any depth, is a primitive. -/
def Stmt.ConstsPrimitive (s : Stmt) : Prop :=
  ∀ t ∈ s.all, ∀ e ∈ t.exprs, e.constsPrimitive = true

namespace Stmt

theorem constsPrimitive_seq {ss : List Stmt} :
    (Stmt.seq ss).ConstsPrimitive ↔ ∀ s ∈ ss, s.ConstsPrimitive := by
  simp only [ConstsPrimitive, all, mem_allList]
  constructor
  · exact fun h s hs t ht => h t ⟨s, hs, ht⟩
  · rintro h t ⟨s, hs, ht⟩
    exact h s hs t ht

theorem constsPrimitive_ite {c : Expr} {t e : Stmt} :
    (Stmt.ite c t e).ConstsPrimitive ↔
      c.constsPrimitive = true ∧ t.ConstsPrimitive ∧ e.ConstsPrimitive := by
  simp [ConstsPrimitive, all, exprs, or_imp, forall_and]

theorem constsPrimitive_loop {v : String} {a b c : Expr} {body : Stmt} :
    (Stmt.loop v a b c body).ConstsPrimitive ↔
      (a.constsPrimitive = true ∧ b.constsPrimitive = true ∧ c.constsPrimitive = true) ∧
        body.ConstsPrimitive := by
  simp [ConstsPrimitive, all, exprs, or_imp, forall_and, Expr.constsPrimitive]

/-- A statement with no statement inside holds primitive constants when its expressions do. -/
theorem constsPrimitive_of_all_eq {s : Stmt} (h : s.all = [s]) :
    s.ConstsPrimitive ↔ ∀ e ∈ s.exprs, e.constsPrimitive = true := by
  simp [ConstsPrimitive, h]

end Stmt

namespace Program

/-- Every constant of the call is a primitive. -/
def CallForm.ConstsPrimitive (c : CallForm) : Prop :=
  c.target.constsPrimitive = true ∧ (∀ r ∈ c.receiver, r.constsPrimitive = true) ∧
    ∀ a ∈ c.args, a.constsPrimitive = true

/-- Every constant of what a postfix chain reads is a primitive. -/
def Chain.ConstsPrimitive : Chain → Prop
  | .value e => e.constsPrimitive = true
  | .call c => c.ConstsPrimitive

namespace Parsing

/-- The problem `exhausted` reports. -/
def exhaustedMsg : String := "program nested too deeply"

/-- A run from position `i` ends well: it fails for another reason than want of fuel, or it
succeeds with a result and a position that `Q` accepts. -/
def EndsWell {α : Type} (toks : Array Token) (m : ParseM α) (i : Nat) (Q : α → Nat → Prop) :
    Prop :=
  match m toks i with
  | .ok (a, j) => Q a j
  | .error e => e.msg ≠ exhaustedMsg

section EndsWell

variable {α β : Type} {toks : Array Token} {i : Nat}

theorem bind_run (m : ParseM α) (f : α → ParseM β) (i : Nat) :
    (m >>= f) toks i = match m toks i with
      | .ok (a, j) => f a toks j
      | .error e => .error e := by
  simp only [bind, ReaderT.bind, StateT.bind]
  cases m toks i <;> rfl

theorem EndsWell.mono {m : ParseM α} {Q R : α → Nat → Prop} (h : EndsWell toks m i Q)
    (hQR : ∀ a j, Q a j → R a j) : EndsWell toks m i R := by
  unfold EndsWell at h ⊢
  rcases hm : m toks i with e | ⟨a, j⟩
  · simpa [hm] using h
  · simp only [hm] at h ⊢
    exact hQR a j h

@[simp] theorem endsWell_bind {m : ParseM α} {f : α → ParseM β} {Q : β → Nat → Prop} :
    EndsWell toks (m >>= f) i Q ↔ EndsWell toks m i fun a j => EndsWell toks (f a) j Q := by
  unfold EndsWell
  rw [bind_run]
  rcases m toks i with e | ⟨a, j⟩ <;> rfl

@[simp] theorem endsWell_pure {a : α} {Q : α → Nat → Prop} :
    EndsWell toks (pure a) i Q ↔ Q a i := Iff.rfl

@[simp] theorem endsWell_ite {c : Prop} [Decidable c] {x y : ParseM α} {Q : α → Nat → Prop} :
    EndsWell toks (if c then x else y) i Q ↔
      if c then EndsWell toks x i Q else EndsWell toks y i Q := by
  split <;> rfl

@[simp] theorem endsWell_map {f : α → β} {m : ParseM α} {Q : β → Nat → Prop} :
    EndsWell toks (f <$> m) i Q ↔ EndsWell toks m i fun a j => Q (f a) j := by
  show EndsWell toks (m >>= fun a => pure (f a)) i Q ↔ _
  rw [endsWell_bind]
  rfl

@[simp] theorem endsWell_discard {m : ParseM α} {Q : Unit → Nat → Prop} :
    EndsWell toks (discard m) i Q ↔ EndsWell toks m i fun _ j => Q () j := by
  show EndsWell toks (m >>= fun _ => pure ()) i Q ↔ _
  rw [endsWell_bind]
  rfl

@[simp] theorem endsWell_peek {Q : Token → Nat → Prop} :
    EndsWell toks peek i Q ↔ Q (tokenAt toks i) i := Iff.rfl

@[simp] theorem endsWell_prevLine {Q : Nat → Nat → Prop} :
    EndsWell toks prevLine i Q ↔ Q (tokenAt toks (i - 1)).line i := Iff.rfl

@[simp] theorem endsWell_atKind {k : TokenKind} {Q : Bool → Nat → Prop} :
    EndsWell toks (atKind k) i Q ↔ Q ((tokenAt toks i).kind == k) i := Iff.rfl

@[simp] theorem endsWell_atIdent {name : String} {Q : Bool → Nat → Prop} :
    EndsWell toks (atIdent name) i Q ↔
      Q ((tokenAt toks i).kind == .ident && (tokenAt toks i).text == name) i := Iff.rfl

@[simp] theorem endsWell_get {Q : Nat → Nat → Prop} : EndsWell toks get i Q ↔ Q i i := Iff.rfl

@[simp] theorem endsWell_set {j : Nat} {Q : PUnit → Nat → Prop} :
    EndsWell toks (set j : ParseM PUnit) i Q ↔ Q () j := Iff.rfl

@[simp] theorem endsWell_reject {msg : String} {Q : α → Nat → Prop} :
    EndsWell toks (reject msg : ParseM α) i Q ↔ msg ≠ exhaustedMsg := Iff.rfl

/-- Running out of fuel is the one failure that does not end well. -/
theorem not_endsWell_exhausted {Q : α → Nat → Prop} :
    ¬ EndsWell toks (exhausted : ParseM α) i Q := by
  simp [exhausted, exhaustedMsg]

theorem endsWell_next {Q : Token → Nat → Prop} :
    EndsWell toks next i Q ↔
      Q (tokenAt toks i) (if (tokenAt toks i).kind = .eof then i else i + 1) := by
  by_cases h : (tokenAt toks i).kind = .eof
  · simp only [next, endsWell_bind, endsWell_peek, h, bne_self_eq_false, if_pos]
    rfl
  · simp only [if_neg h]
    unfold EndsWell
    rw [next_run toks h]

/-- A try whose failure handler resumes with a result ends well when the attempt does, or
fails and the handler ends well. -/
theorem endsWell_tryCatch {m : ParseM α} {h : SyntaxError → ParseM α} {Q : α → Nat → Prop}
    (hm : EndsWell toks m i Q) (hh : ∀ e, EndsWell toks (h e) i Q) :
    EndsWell toks (tryCatch m h) i Q := by
  have hrun : (tryCatch m h) toks i = Except.tryCatch (m toks i) (fun e => h e toks i) := rfl
  unfold EndsWell at hm ⊢
  rw [hrun]
  rcases hmr : m toks i with e | ⟨a, j⟩
  · exact hh e
  · simp only [hmr] at hm
    exact hm

end EndsWell

/-! ### Tokens -/

/-- The token arrays the tokenizer makes: they end with the end token. -/
structure EndsWithEof (toks : Array Token) : Prop where
  size_pos : 0 < toks.size
  last_eof : (tokenAt toks (toks.size - 1)).kind = .eof

section Tokens

variable {α : Type} {toks : Array Token} {i : Nat}

theorem lt_last_of_ne_eof (hw : EndsWithEof toks) (hi : i ≤ toks.size - 1)
    (hk : (tokenAt toks i).kind ≠ .eof) : i < toks.size - 1 := by
  rcases Nat.lt_or_eq_of_le hi with h | rfl
  · exact h
  · exact absurd hw.last_eof hk

/-- Every problem the reader reports but `exhausted` starts with another letter. -/
theorem ne_exhaustedMsg {msg : String} (h : msg.toList.head? ≠ some 'p') : msg ≠ exhaustedMsg := by
  rintro rfl
  exact h rfl

/-- A statement keyword is an identifier, so never the end token. -/
theorem ne_eof_of_keyword {t : Token} {w : String}
    (h : (if (t.kind == .ident) = true then t.text else "") = w) (hw : w ≠ "") :
    t.kind ≠ .eof := by
  intro heof
  rw [heof] at h
  exact hw h.symm

/-- A token the reader checked to be of a kind other than the end token's is not the end token. -/
theorem ne_eof_of_beq {t : Token} {k : TokenKind} (h : (t.kind == k) = true) (hk : k ≠ .eof) :
    t.kind ≠ .eof := by
  rw [beq_iff_eq] at h
  rwa [h]

theorem endsWell_next_of_ne {Q : Token → Nat → Prop} (hk : (tokenAt toks i).kind ≠ .eof) :
    EndsWell toks next i Q ↔ Q (tokenAt toks i) (i + 1) := by
  rw [endsWell_next, if_neg hk]

theorem expect_ends (hw : EndsWithEof toks) (hi : i ≤ toks.size - 1) {k : TokenKind}
    (hk : k ≠ .eof) {Q : Unit → Nat → Prop} (h : i < toks.size - 1 → Q () (i + 1)) :
    EndsWell toks (expect k) i Q := by
  simp only [expect, endsWell_bind, endsWell_peek, endsWell_ite, endsWell_discard]
  split
  next hkk =>
    have hne := ne_eof_of_beq hkk hk
    rw [endsWell_next_of_ne hne]
    exact h (lt_last_of_ne_eof hw hi hne)
  next => exact ne_exhaustedMsg (by simp)

theorem expectIdent_ends (hw : EndsWithEof toks) (hi : i ≤ toks.size - 1) {name : String}
    {Q : Unit → Nat → Prop} (h : i < toks.size - 1 → Q () (i + 1)) :
    EndsWell toks (expectIdent name) i Q := by
  simp only [expectIdent, endsWell_bind, endsWell_peek, endsWell_ite, endsWell_discard]
  split
  next hid =>
    have hne := ne_eof_of_beq (Bool.and_eq_true_iff.1 hid).1 (by decide)
    rw [endsWell_next_of_ne hne]
    exact h (lt_last_of_ne_eof hw hi hne)
  next => exact ne_exhaustedMsg (by simp)

/-- Reading a token that is not the end token moves one position on, still before the end. -/
theorem skip_ends (hw : EndsWithEof toks) (hi : i ≤ toks.size - 1)
    (hk : (tokenAt toks i).kind ≠ .eof) {Q : Unit → Nat → Prop}
    (h : i < toks.size - 1 → Q () (i + 1)) : EndsWell toks (discard next) i Q := by
  rw [endsWell_discard, endsWell_next_of_ne hk]
  exact h (lt_last_of_ne_eof hw hi hk)

theorem ident_ends (hw : EndsWithEof toks) (hi : i ≤ toks.size - 1) {Q : String → Nat → Prop}
    (h : i < toks.size - 1 → Q (tokenAt toks i).text (i + 1)) : EndsWell toks ident i Q := by
  simp only [ident, endsWell_bind, endsWell_peek, endsWell_ite, endsWell_discard]
  split
  next hid =>
    have hne := ne_eof_of_beq hid (by decide)
    rw [endsWell_next_of_ne hne]
    exact h (lt_last_of_ne_eof hw hi hne)
  next => exact ne_exhaustedMsg (by simp)

/-- Reading whatever token is next, the end token included, moves at most one position on. -/
theorem step_ends (hw : EndsWithEof toks) (hi : i ≤ toks.size - 1) {Q : Unit → Nat → Prop}
    (h : ∀ j, i ≤ j → j ≤ i + 1 → j ≤ toks.size - 1 → Q () j) :
    EndsWell toks (discard next) i Q := by
  by_cases hk : (tokenAt toks i).kind = .eof
  · rw [endsWell_discard, endsWell_next, if_pos hk]
    exact h i (Nat.le_refl i) (Nat.le_succ i) hi
  · exact skip_ends hw hi hk fun hlt => h (i + 1) (Nat.le_succ i) (Nat.le_refl _) hlt

end Tokens

/-! ### What each function settles -/

/-- Run from every position with eight units of fuel per token ahead and `slack` more, `m` ends
well at a position `rel`-after the start and before the end token, with a result `ok`
accepts. -/
def Settles {α : Type} (toks : Array Token) (slack fuel : Nat) (rel : Nat → Nat → Prop)
    (m : ParseM α) (ok : α → Prop) : Prop :=
  ∀ i, i ≤ toks.size - 1 → 8 * (toks.size - 1 - i) + slack ≤ fuel →
    EndsWell toks m i fun a j => rel i j ∧ j ≤ toks.size - 1 ∧ ok a

theorem Settles.then {α : Type} {toks : Array Token} {slack fuel i : Nat}
    {rel : Nat → Nat → Prop} {m : ParseM α} {ok : α → Prop} {Q : α → Nat → Prop}
    (hm : Settles toks slack fuel rel m ok) (hi : i ≤ toks.size - 1)
    (hf : 8 * (toks.size - 1 - i) + slack ≤ fuel)
    (h : ∀ a j, rel i j → j ≤ toks.size - 1 → ok a → Q a j) : EndsWell toks m i Q :=
  (hm i hi hf).mono fun a j ⟨hr, hj, ha⟩ => h a j hr hj ha

section Steps

variable {toks : Array Token} (hw : EndsWithEof toks)

include hw

theorem primary_settles {f : Nat}
    (hexpr : Settles toks 5 f (· < ·) (expr f) fun e => e.constsPrimitive = true)
    (hid : ∀ name, Settles toks 1 f (· ≤ ·) (identExpr f name) fun e => e.constsPrimitive = true) :
    Settles toks 1 (f + 1) (· < ·) (primary (f + 1)) fun e => e.constsPrimitive = true := by
  intro i hi hfuel
  simp only [primary, endsWell_bind, endsWell_peek]
  -- every token that starts an operand is read first
  split
  case h_1 hk | h_2 hk | h_3 hk =>
    rw [endsWell_bind]
    refine skip_ends hw hi (by rw [hk]; decide) fun hlt => ?_
    split
    · exact ⟨by omega, hlt, rfl⟩
    · exact ne_exhaustedMsg (by simp)
  case h_4 hk =>
    simp only [endsWell_bind, endsWell_pure]
    refine skip_ends hw hi (by rw [hk]; decide) fun hlt => ?_
    refine hexpr.then hlt (by omega) fun e j hij hj he => ?_
    exact expect_ends hw hj (by decide) fun hj' => ⟨by omega, by omega, he⟩
  case h_5 hk | h_6 hk =>
    simp only [endsWell_bind, endsWell_pure]
    refine skip_ends hw hi (by rw [hk]; decide) fun hlt => ?_
    exact expect_ends hw hlt (by decide) fun hj' => ⟨by omega, by omega, rfl⟩
  case h_7 hk =>
    rw [endsWell_bind]
    refine skip_ends hw hi (by rw [hk]; decide) fun hlt => ?_
    exact (hid _).then hlt (by omega) fun e j hij hj he => ⟨by omega, hj, he⟩
  case h_8 => exact ne_exhaustedMsg (by simp)

theorem identExpr_settles {f : Nat}
    (hexpr : Settles toks 5 f (· < ·) (expr f) fun e => e.constsPrimitive = true) (name : String) :
    Settles toks 1 (f + 1) (· ≤ ·) (identExpr (f + 1) name) fun e => e.constsPrimitive = true := by
  intro i hi hfuel
  simp only [identExpr]
  split
  case h_7 =>
    -- `arguments[e]`
    simp only [endsWell_bind, endsWell_pure]
    refine expect_ends hw hi (by decide) fun h1 => ?_
    refine hexpr.then h1 (by omega) fun idx j hij hj hidx => ?_
    exact expect_ends hw hj (by decide) fun h2 => ⟨by omega, by omega, hidx⟩
  -- the literal words, argument slots and variables read no token
  all_goals (try split) <;> exact ⟨Nat.le_refl i, hi, rfl⟩

omit hw in
theorem chain_settles {f : Nat}
    (hprim : Settles toks 1 f (· < ·) (primary f) fun e => e.constsPrimitive = true)
    (htail : ∀ e, e.constsPrimitive = true →
      Settles toks 1 f (· ≤ ·) (chainTail f e) Chain.ConstsPrimitive) :
    Settles toks 2 (f + 1) (· < ·) (chain (f + 1)) Chain.ConstsPrimitive := by
  intro i hi hfuel
  simp only [chain, endsWell_bind]
  refine hprim.then hi (by omega) fun e j hij hj he => ?_
  exact (htail e he).then hj (by omega) fun c k hjk hk hc => ⟨by omega, hk, hc⟩

theorem chainTail_settles {f : Nat}
    (hexpr : Settles toks 5 f (· < ·) (expr f) fun e => e.constsPrimitive = true)
    (hcall : ∀ e, e.constsPrimitive = true →
      Settles toks 6 f (· ≤ ·) (callArgs f e) CallForm.ConstsPrimitive)
    (htail : ∀ e, e.constsPrimitive = true →
      Settles toks 1 f (· ≤ ·) (chainTail f e) Chain.ConstsPrimitive)
    (e : Expr) (he : e.constsPrimitive = true) :
    Settles toks 1 (f + 1) (· ≤ ·) (chainTail (f + 1) e) Chain.ConstsPrimitive := by
  intro i hi hfuel
  simp only [chainTail, endsWell_bind, endsWell_prevLine, endsWell_peek, endsWell_ite,
    endsWell_atKind, endsWell_pure]
  split
  next hdot =>
    -- `.name`, or `.apply(` starting a call
    refine skip_ends hw hi (ne_eof_of_beq hdot (by decide)) fun h1 => ?_
    refine ident_ends hw h1 fun h2 => ?_
    split
    · exact (hcall e he).then h2 (by omega) fun c j hij hj hc => ⟨by omega, hj, hc⟩
    · have hfield : (Expr.field e (.const (Value.str (tokenAt toks (i + 1)).text))).constsPrimitive
          = true := by
        simp [Expr.constsPrimitive, he, Value.str, Value.isPrimitive]
      exact (htail _ hfield).then h2 (by omega) fun c j hij hj hc => ⟨by omega, hj, hc⟩
  next =>
    split
    next hbr =>
      -- `[e]` on the line of the token before
      refine skip_ends hw hi (ne_eof_of_beq (Bool.and_eq_true_iff.1 hbr).1 (by decide))
        fun h1 => ?_
      refine hexpr.then h1 (by omega) fun n j hij hj hn => ?_
      refine expect_ends hw hj (by decide) fun h2 => ?_
      have hfield : (Expr.field e n).constsPrimitive = true := by
        simp [Expr.constsPrimitive, he, hn]
      exact (htail _ hfield).then h2 (by omega) fun c k hjk hk hc => ⟨by omega, hk, hc⟩
    next => exact ⟨Nat.le_refl i, hi, he⟩

theorem argList_settles {f : Nat}
    (hexpr : Settles toks 5 f (· < ·) (expr f) fun e => e.constsPrimitive = true)
    (hargs : ∀ acc : List Expr, (∀ a ∈ acc, a.constsPrimitive = true) →
      Settles toks 6 f (· ≤ ·) (argList f acc) fun as => ∀ a ∈ as, a.constsPrimitive = true)
    (acc : List Expr) (hacc : ∀ a ∈ acc, a.constsPrimitive = true) :
    Settles toks 6 (f + 1) (· ≤ ·) (argList (f + 1) acc)
      fun as => ∀ a ∈ as, a.constsPrimitive = true := by
  intro i hi hfuel
  simp only [argList, endsWell_bind, endsWell_atKind, endsWell_ite, endsWell_pure]
  split
  · exact ⟨Nat.le_refl i, hi, fun a ha => hacc a (List.mem_reverse.1 ha)⟩
  · -- a comma before every argument but the first, then the argument and the rest
    have hrest : ∀ j, i ≤ j → j ≤ i + 1 → j ≤ toks.size - 1 →
        EndsWell toks (expr f) j fun a k => EndsWell toks (argList f (a :: acc)) k
          fun as l => i ≤ l ∧ l ≤ toks.size - 1 ∧ ∀ a ∈ as, a.constsPrimitive = true := by
      intro j hij hji hj
      refine hexpr.then hj (by omega) fun a k hjk hk ha => ?_
      exact (hargs _ (List.forall_mem_cons.2 ⟨ha, hacc⟩)).then hk (by omega) fun as l hkl hl has => ⟨by omega, hl, has⟩
    split
    · exact expect_ends hw hi (by decide) fun h1 => hrest (i + 1) (by omega) (by omega) h1
    · exact hrest i (Nat.le_refl i) (Nat.le_succ i) hi

theorem callArgs_settles {f : Nat}
    (hexpr : Settles toks 5 f (· < ·) (expr f) fun e => e.constsPrimitive = true)
    (hargs : ∀ acc : List Expr, (∀ a ∈ acc, a.constsPrimitive = true) →
      Settles toks 6 f (· ≤ ·) (argList f acc) fun as => ∀ a ∈ as, a.constsPrimitive = true)
    (target : Expr) (ht : target.constsPrimitive = true) :
    Settles toks 6 (f + 1) (· ≤ ·) (callArgs (f + 1) target) CallForm.ConstsPrimitive := by
  intro i hi hfuel
  simp only [callArgs, endsWell_bind, endsWell_atIdent, endsWell_ite, endsWell_map,
    endsWell_pure]
  -- after the receiver, the same `, [args])` in both arms
  have hrest : ∀ (r : Option Expr) k, i ≤ k → k ≤ toks.size - 1 →
      (∀ e ∈ r, e.constsPrimitive = true) →
      EndsWell toks (expect (.char ',')) k fun _ l => EndsWell toks (expect (.char '[')) l
        fun _ l => EndsWell toks (argList f []) l fun args l => EndsWell toks (discard next) l
          fun _ l => EndsWell toks (expect (.char ')')) l fun _ l =>
            i ≤ l ∧ l ≤ toks.size - 1 ∧ CallForm.ConstsPrimitive { target, receiver := r, args } := by
    intro r k hik hk hr
    refine expect_ends hw hk (by decide) fun h1 => ?_
    refine expect_ends hw h1 (by decide) fun h2 => ?_
    refine (hargs [] (by simp)).then h2 (by omega) fun as l hkl hl has => ?_
    refine step_ends hw hl fun m hlm _ hm => ?_
    exact expect_ends hw hm (by decide) fun h3 => ⟨by omega, by omega, ht, hr, has⟩
  refine step_ends hw hi fun j hij hji hj => ?_
  split
  · exact step_ends hw hj fun k hjk _ hk => hrest none k (by omega) hk (by simp)
  · exact hexpr.then hj (by omega) fun e k hjk hk he =>
      hrest (some e) k (by omega) hk (by simpa using he)

theorem unary_settles {f : Nat}
    (hunary : Settles toks 3 f (· < ·) (unary f) fun e => e.constsPrimitive = true)
    (hchain : Settles toks 2 f (· < ·) (chain f) Chain.ConstsPrimitive) :
    Settles toks 3 (f + 1) (· < ·) (unary (f + 1)) fun e => e.constsPrimitive = true := by
  intro i hi hfuel
  simp only [unary, endsWell_bind, endsWell_peek, endsWell_ite, endsWell_pure]
  split
  next hnot =>
    refine skip_ends hw hi (ne_eof_of_beq hnot (by decide)) fun h1 => ?_
    exact hunary.then h1 (by omega) fun e j hij hj he => ⟨by omega, hj, he⟩
  next =>
    split
    next hneg =>
      -- a minus sign only before a number literal
      refine skip_ends hw hi (ne_eof_of_beq hneg (by decide)) fun h1 => ?_
      refine hunary.then h1 (by omega) fun e j hij hj he => ?_
      split
      · exact ⟨by omega, hj, rfl⟩
      · exact ne_exhaustedMsg (by simp)
    next =>
      refine hchain.then hi (by omega) fun c j hij hj hc => ?_
      cases c with
      | value e => exact ⟨hij, hj, hc⟩
      | call => exact ne_exhaustedMsg (by simp)

theorem additiveTail_settles {f : Nat}
    (hunary : Settles toks 3 f (· < ·) (unary f) fun e => e.constsPrimitive = true)
    (htail : ∀ a : Expr, a.constsPrimitive = true →
      Settles toks 1 f (· ≤ ·) (additiveTail f a) fun e => e.constsPrimitive = true)
    (a : Expr) (ha : a.constsPrimitive = true) :
    Settles toks 1 (f + 1) (· ≤ ·) (additiveTail (f + 1) a)
      fun e => e.constsPrimitive = true := by
  intro i hi hfuel
  simp only [additiveTail, endsWell_bind, endsWell_peek, endsWell_ite, endsWell_pure]
  split
  next hsign =>
    have hk : (tokenAt toks i).kind ≠ .eof := by
      simp only [Bool.or_eq_true, beq_iff_eq] at hsign
      rcases hsign with h | h <;> rw [h] <;> decide
    refine skip_ends hw hi hk fun h1 => ?_
    refine hunary.then h1 (by omega) fun b j hij hj hb => ?_
    split
    · -- `- n` adds the negated number
      split
      · exact (htail _ (by simp [Expr.constsPrimitive, ha, Value.isPrimitive])).then hj
          (by omega) fun e k hjk hk he => ⟨by omega, hk, he⟩
      · exact ne_exhaustedMsg (by simp)
    · exact (htail _ (by simp [Expr.constsPrimitive, ha, hb])).then hj (by omega)
        fun e k hjk hk he => ⟨by omega, hk, he⟩
  next => exact ⟨Nat.le_refl i, hi, ha⟩

omit hw in
theorem additive_settles {f : Nat}
    (hunary : Settles toks 3 f (· < ·) (unary f) fun e => e.constsPrimitive = true)
    (htail : ∀ a : Expr, a.constsPrimitive = true →
      Settles toks 1 f (· ≤ ·) (additiveTail f a) fun e => e.constsPrimitive = true) :
    Settles toks 4 (f + 1) (· < ·) (additive (f + 1)) fun e => e.constsPrimitive = true := by
  intro i hi hfuel
  simp only [additive, endsWell_bind]
  refine hunary.then hi (by omega) fun a j hij hj ha => ?_
  exact (htail a ha).then hj (by omega) fun e k hjk hk he => ⟨by omega, hk, he⟩

theorem equalityTail_settles {f : Nat}
    (hadd : Settles toks 4 f (· < ·) (additive f) fun e => e.constsPrimitive = true)
    (htail : ∀ a : Expr, a.constsPrimitive = true →
      Settles toks 1 f (· ≤ ·) (equalityTail f a) fun e => e.constsPrimitive = true)
    (a : Expr) (ha : a.constsPrimitive = true) :
    Settles toks 1 (f + 1) (· ≤ ·) (equalityTail (f + 1) a)
      fun e => e.constsPrimitive = true := by
  intro i hi hfuel
  simp only [equalityTail, endsWell_bind, endsWell_atKind, endsWell_ite, endsWell_pure]
  split
  next heq =>
    refine skip_ends hw hi (ne_eof_of_beq heq (by decide)) fun h1 => ?_
    refine hadd.then h1 (by omega) fun b j hij hj hb => ?_
    exact (htail _ (by simp [Expr.constsPrimitive, ha, hb])).then hj (by omega)
      fun e k hjk hk he => ⟨by omega, hk, he⟩
  next => exact ⟨Nat.le_refl i, hi, ha⟩

omit hw in
theorem expr_settles {f : Nat}
    (hadd : Settles toks 4 f (· < ·) (additive f) fun e => e.constsPrimitive = true)
    (htail : ∀ a : Expr, a.constsPrimitive = true →
      Settles toks 1 f (· ≤ ·) (equalityTail f a) fun e => e.constsPrimitive = true) :
    Settles toks 5 (f + 1) (· < ·) (expr (f + 1)) fun e => e.constsPrimitive = true := by
  intro i hi hfuel
  simp only [expr, endsWell_bind]
  refine hadd.then hi (by omega) fun a j hij hj ha => ?_
  exact (htail a ha).then hj (by omega) fun e k hjk hk he => ⟨by omega, hk, he⟩

omit hw in
theorem exprOrCall_settles {f : Nat}
    (hexpr : Settles toks 5 f (· < ·) (expr f) fun e => e.constsPrimitive = true)
    (hchain : Settles toks 2 f (· < ·) (chain f) Chain.ConstsPrimitive) :
    Settles toks 6 (f + 1) (· < ·) (exprOrCall (f + 1)) Chain.ConstsPrimitive := by
  intro i hi hfuel
  simp only [exprOrCall, endsWell_bind, endsWell_get]
  -- when no call is read, the expression is read again from the start
  have hagain : ∀ j, EndsWell toks (do set i; pure (Chain.value (← expr f))) j
      fun c k => i < k ∧ k ≤ toks.size - 1 ∧ c.ConstsPrimitive := by
    intro j
    simp only [endsWell_bind, endsWell_set, endsWell_pure]
    exact hexpr.then hi (by omega) fun e k hik hk he => ⟨hik, hk, he⟩
  refine endsWell_tryCatch ?_ fun _ => hagain i
  rw [endsWell_bind]
  refine hchain.then hi (by omega) fun c j hij hj hc => ?_
  cases c with
  | call c => exact ⟨hij, hj, hc⟩
  | value => exact hagain j

omit hw in
theorem assignment_settles {f : Nat}
    (hrhs : Settles toks 6 f (· < ·) (exprOrCall f) Chain.ConstsPrimitive)
    (lhs : Expr) (decl : Bool) (hl : lhs.constsPrimitive = true) :
    Settles toks 7 (f + 1) (· ≤ ·) (assignment (f + 1) lhs decl) Stmt.ConstsPrimitive := by
  intro i hi hfuel
  simp only [assignment, endsWell_bind]
  refine hrhs.then hi (by omega) fun c j hij hj hc => ?_
  cases c with
  | value rhs =>
    refine ⟨by omega, hj, (Stmt.constsPrimitive_of_all_eq rfl).2 ?_⟩
    simpa [Stmt.exprs, hl, Chain.ConstsPrimitive] using hc
  | call c =>
    -- a call's result needs a variable
    dsimp only
    split
    · obtain ⟨ht, hr, ha⟩ := hc
      refine ⟨by omega, hj, (Stmt.constsPrimitive_of_all_eq rfl).2 ?_⟩
      simp only [Stmt.exprs, List.cons_append, List.mem_cons, List.mem_append, Option.mem_toList]
      rintro e (rfl | rfl | he | he)
      · rfl
      · exact ht
      · exact hr e (by simpa using he)
      · exact ha e he
    · exact ne_exhaustedMsg (by simp)

theorem block_settles {f : Nat}
    (hstmts : ∀ acc : List Stmt, (∀ s ∈ acc, s.ConstsPrimitive) →
      Settles toks 4 f (· ≤ ·) (blockStmts f acc) fun ss => ∀ s ∈ ss, s.ConstsPrimitive) :
    Settles toks 1 (f + 1) (· < ·) (block (f + 1)) Stmt.ConstsPrimitive := by
  intro i hi hfuel
  simp only [block, endsWell_bind, endsWell_pure]
  refine expect_ends hw hi (by decide) fun h1 => ?_
  exact (hstmts [] (by simp)).then h1 (by omega) fun ss j hij hj hss =>
    ⟨by omega, hj, Stmt.constsPrimitive_seq.2 hss⟩

theorem blockStmts_settles {f : Nat}
    (hstmt : Settles toks 3 f (· < ·) (stmt f) Stmt.ConstsPrimitive)
    (hstmts : ∀ acc : List Stmt, (∀ s ∈ acc, s.ConstsPrimitive) →
      Settles toks 4 f (· ≤ ·) (blockStmts f acc) fun ss => ∀ s ∈ ss, s.ConstsPrimitive)
    (acc : List Stmt) (hacc : ∀ s ∈ acc, s.ConstsPrimitive) :
    Settles toks 4 (f + 1) (· ≤ ·) (blockStmts (f + 1) acc)
      fun ss => ∀ s ∈ ss, s.ConstsPrimitive := by
  intro i hi hfuel
  simp only [blockStmts, endsWell_bind, endsWell_peek, endsWell_ite, endsWell_pure]
  split
  next hclose =>
    refine skip_ends hw hi (ne_eof_of_beq hclose (by decide)) fun h1 => ?_
    exact ⟨by omega, h1, fun s hs => hacc s (List.mem_reverse.1 hs)⟩
  next =>
    split
    next => exact ne_exhaustedMsg (by simp)
    next =>
      refine hstmt.then hi (by omega) fun st j hij hj hst => ?_
      exact (hstmts _ (List.forall_mem_cons.2 ⟨hst, hacc⟩)).then hj (by omega) fun ss k hjk hk hss => ⟨by omega, hk, hss⟩

theorem ifStmt_settles {f : Nat}
    (hexpr : Settles toks 5 f (· < ·) (expr f) fun e => e.constsPrimitive = true)
    (hblock : Settles toks 1 f (· < ·) (block f) Stmt.ConstsPrimitive) :
    Settles toks 1 (f + 1) (· < ·) (ifStmt (f + 1)) Stmt.ConstsPrimitive := by
  intro i hi hfuel
  simp only [ifStmt, endsWell_bind, endsWell_atIdent, endsWell_ite, endsWell_pure]
  refine step_ends hw hi fun j hij _ hj => ?_
  refine expect_ends hw hj (by decide) fun h1 => ?_
  refine hexpr.then h1 (by omega) fun cond k hjk hk hc => ?_
  refine expect_ends hw hk (by decide) fun h2 => ?_
  refine hblock.then h2 (by omega) fun thn l hkl hl ht => ?_
  split
  next hels =>
    refine skip_ends hw hl (ne_eof_of_beq (Bool.and_eq_true_iff.1 hels).1 (by decide))
      fun h3 => ?_
    exact hblock.then h3 (by omega) fun els m hlm hm he =>
      ⟨by omega, hm, Stmt.constsPrimitive_ite.2 ⟨hc, ht, he⟩⟩
  next =>
    exact ⟨by omega, hl, Stmt.constsPrimitive_ite.2 ⟨hc, ht, Stmt.constsPrimitive_seq.2 (by simp)⟩⟩

theorem forStmt_settles {f : Nat}
    (hexpr : Settles toks 5 f (· < ·) (expr f) fun e => e.constsPrimitive = true)
    (hblock : Settles toks 1 f (· < ·) (block f) Stmt.ConstsPrimitive) :
    Settles toks 1 (f + 1) (· < ·) (forStmt (f + 1)) Stmt.ConstsPrimitive := by
  intro i hi hfuel
  simp only [forStmt, endsWell_bind, endsWell_pure]
  -- `for (var name = start; name < stop; name += step) body`, read in order
  refine step_ends hw hi fun j0 h0 _ hj0 => ?_
  refine expect_ends hw hj0 (by decide) fun h1 => ?_
  refine expectIdent_ends hw h1 fun h2 => ?_
  refine ident_ends hw h2 fun h3 => ?_
  refine expect_ends hw h3 (by decide) fun h4 => ?_
  refine hexpr.then h4 (by omega) fun start j5 h5 hj5 hstart => ?_
  refine expect_ends hw hj5 (by decide) fun h6 => ?_
  refine expectIdent_ends hw h6 fun h7 => ?_
  refine expect_ends hw h7 (by decide) fun h8 => ?_
  refine hexpr.then h8 (by omega) fun stop j9 h9 hj9 hstop => ?_
  refine expect_ends hw hj9 (by decide) fun h10 => ?_
  refine expectIdent_ends hw h10 fun h11 => ?_
  refine expect_ends hw h11 (by decide) fun h12 => ?_
  refine hexpr.then h12 (by omega) fun step j13 h13 hj13 hstep => ?_
  refine expect_ends hw hj13 (by decide) fun h14 => ?_
  exact hblock.then h14 (by omega) fun body j15 h15 hj15 hbody =>
    ⟨by omega, hj15, Stmt.constsPrimitive_loop.2 ⟨⟨hstart, hstop, hstep⟩, hbody⟩⟩

theorem defineStmt_settles {f : Nat}
    (hexpr : Settles toks 5 f (· < ·) (expr f) fun e => e.constsPrimitive = true) :
    Settles toks 1 (f + 1) (· < ·) (defineStmt (f + 1)) Stmt.ConstsPrimitive := by
  intro i hi hfuel
  simp only [defineStmt, endsWell_bind, endsWell_pure]
  -- `Object.defineProperty(obj, name, {value: v})`, read in order
  refine step_ends hw hi fun j0 h0 _ hj0 => ?_
  refine expect_ends hw hj0 (by decide) fun h1 => ?_
  refine expectIdent_ends hw h1 fun h2 => ?_
  refine expect_ends hw h2 (by decide) fun h3 => ?_
  refine hexpr.then h3 (by omega) fun obj j4 h4 hj4 hobj => ?_
  refine expect_ends hw hj4 (by decide) fun h5 => ?_
  refine hexpr.then h5 (by omega) fun name j6 h6 hj6 hname => ?_
  refine expect_ends hw hj6 (by decide) fun h7 => ?_
  refine expect_ends hw h7 (by decide) fun h8 => ?_
  refine expectIdent_ends hw h8 fun h9 => ?_
  refine expect_ends hw h9 (by decide) fun h10 => ?_
  refine hexpr.then h10 (by omega) fun v j11 h11 hj11 hv => ?_
  refine expect_ends hw hj11 (by decide) fun h12 => ?_
  refine expect_ends hw h12 (by decide) fun h13 => ?_
  refine ⟨by omega, by omega, (Stmt.constsPrimitive_of_all_eq rfl).2 ?_⟩
  simp only [Stmt.exprs, List.mem_cons, List.not_mem_nil, or_false]
  rintro e (rfl | rfl | rfl) <;> assumption

theorem stmt_settles {f : Nat}
    (hexpr : Settles toks 5 f (· < ·) (expr f) fun e => e.constsPrimitive = true)
    (hchain : Settles toks 2 f (· < ·) (chain f) Chain.ConstsPrimitive)
    (hassign : ∀ lhs decl, lhs.constsPrimitive = true →
      Settles toks 7 f (· ≤ ·) (assignment f lhs decl) Stmt.ConstsPrimitive)
    (hif : Settles toks 1 f (· < ·) (ifStmt f) Stmt.ConstsPrimitive)
    (hfor : Settles toks 1 f (· < ·) (forStmt f) Stmt.ConstsPrimitive)
    (hdef : Settles toks 1 f (· < ·) (defineStmt f) Stmt.ConstsPrimitive) :
    Settles toks 3 (f + 1) (· < ·) (stmt (f + 1)) Stmt.ConstsPrimitive := by
  intro i hi hfuel
  simp only [stmt, endsWell_bind, endsWell_peek]
  -- a leading keyword is read first; anything else starts an assignment's left side
  split
  case h_1 hk =>
    simp only [endsWell_bind, endsWell_atKind, endsWell_ite, endsWell_pure]
    refine skip_ends hw hi (ne_eof_of_keyword hk (by decide)) fun h1 => ?_
    refine ident_ends hw h1 fun h2 => ?_
    split
    next heq =>
      refine skip_ends hw h2 (ne_eof_of_beq heq (by decide)) fun h3 => ?_
      exact (hassign _ true rfl).then h3 (by omega) fun s j hij hj hs => ⟨by omega, hj, hs⟩
    next =>
      exact ⟨by omega, h2, (Stmt.constsPrimitive_of_all_eq rfl).2
        (by simp [Stmt.exprs, Expr.constsPrimitive])⟩
  case h_2 hk | h_3 hk =>
    simp only [endsWell_bind, endsWell_pure]
    refine skip_ends hw hi (ne_eof_of_keyword hk (by decide)) fun h1 => ?_
    exact hexpr.then h1 (by omega) fun e j hij hj he =>
      ⟨by omega, hj, (Stmt.constsPrimitive_of_all_eq rfl).2 (by simpa [Stmt.exprs] using he)⟩
  case h_4 hk =>
    simp only [endsWell_bind]
    refine skip_ends hw hi (ne_eof_of_keyword hk (by decide)) fun h1 => ?_
    refine hchain.then h1 (by omega) fun c j hij hj hc => ?_
    -- only a field can be deleted
    rcases c with (_ | _ | ⟨o, n⟩ | _ | _ | _ | _ | _) | _
    case value.field =>
      simp only [Chain.ConstsPrimitive, Expr.constsPrimitive, Bool.and_eq_true] at hc
      exact ⟨by omega, hj, (Stmt.constsPrimitive_of_all_eq rfl).2 (by simp [Stmt.exprs, hc])⟩
    all_goals exact ne_exhaustedMsg (by simp)
  case h_5 hk =>
    simp only [endsWell_bind, endsWell_pure]
    refine skip_ends hw hi (ne_eof_of_keyword hk (by decide)) fun h1 => ?_
    exact ⟨by omega, h1, (Stmt.constsPrimitive_of_all_eq rfl).2 (by simp [Stmt.exprs])⟩
  case h_6 => exact hif.then hi (by omega) fun s j hij hj hs => ⟨hij, hj, hs⟩
  case h_7 => exact hfor.then hi (by omega) fun s j hij hj hs => ⟨hij, hj, hs⟩
  case h_8 => exact hdef.then hi (by omega) fun s j hij hj hs => ⟨hij, hj, hs⟩
  case h_9 =>
    simp only [endsWell_bind]
    refine hchain.then hi (by omega) fun c j hij hj hc => ?_
    cases c with
    | call => exact ne_exhaustedMsg (by simp)
    | value lhs =>
      -- only a variable or a field can be assigned
      dsimp only
      split
      case h_1 | h_2 =>
        rw [endsWell_bind]
        refine expect_ends hw hj (by decide) fun h2 => ?_
        exact (hassign _ false hc).then h2 (by omega) fun s k hjk hk hs => ⟨by omega, hk, hs⟩
      case h_3 => exact ne_exhaustedMsg (by simp)

end Steps

/-! ### Every function, at every fuel -/

/-- Every function of the reader settles at a fuel, with its slack. -/
structure Settle (toks : Array Token) (fuel : Nat) : Prop where
  primary : Settles toks 1 fuel (· < ·) (primary fuel) fun e => e.constsPrimitive = true
  identExpr : ∀ name, Settles toks 1 fuel (· ≤ ·) (identExpr fuel name)
    fun e => e.constsPrimitive = true
  chain : Settles toks 2 fuel (· < ·) (chain fuel) Chain.ConstsPrimitive
  chainTail : ∀ e : Expr, e.constsPrimitive = true →
    Settles toks 1 fuel (· ≤ ·) (chainTail fuel e) Chain.ConstsPrimitive
  callArgs : ∀ e : Expr, e.constsPrimitive = true →
    Settles toks 6 fuel (· ≤ ·) (callArgs fuel e) CallForm.ConstsPrimitive
  argList : ∀ acc : List Expr, (∀ a ∈ acc, a.constsPrimitive = true) →
    Settles toks 6 fuel (· ≤ ·) (argList fuel acc) fun as => ∀ a ∈ as, a.constsPrimitive = true
  unary : Settles toks 3 fuel (· < ·) (unary fuel) fun e => e.constsPrimitive = true
  additiveTail : ∀ a : Expr, a.constsPrimitive = true →
    Settles toks 1 fuel (· ≤ ·) (additiveTail fuel a) fun e => e.constsPrimitive = true
  additive : Settles toks 4 fuel (· < ·) (additive fuel) fun e => e.constsPrimitive = true
  equalityTail : ∀ a : Expr, a.constsPrimitive = true →
    Settles toks 1 fuel (· ≤ ·) (equalityTail fuel a) fun e => e.constsPrimitive = true
  expr : Settles toks 5 fuel (· < ·) (expr fuel) fun e => e.constsPrimitive = true
  exprOrCall : Settles toks 6 fuel (· < ·) (exprOrCall fuel) Chain.ConstsPrimitive
  assignment : ∀ lhs decl, lhs.constsPrimitive = true →
    Settles toks 7 fuel (· ≤ ·) (assignment fuel lhs decl) Stmt.ConstsPrimitive
  block : Settles toks 1 fuel (· < ·) (block fuel) Stmt.ConstsPrimitive
  blockStmts : ∀ acc : List Stmt, (∀ s ∈ acc, s.ConstsPrimitive) →
    Settles toks 4 fuel (· ≤ ·) (blockStmts fuel acc) fun ss => ∀ s ∈ ss, s.ConstsPrimitive
  ifStmt : Settles toks 1 fuel (· < ·) (ifStmt fuel) Stmt.ConstsPrimitive
  forStmt : Settles toks 1 fuel (· < ·) (forStmt fuel) Stmt.ConstsPrimitive
  defineStmt : Settles toks 1 fuel (· < ·) (defineStmt fuel) Stmt.ConstsPrimitive
  stmt : Settles toks 3 fuel (· < ·) (stmt fuel) Stmt.ConstsPrimitive

/-- Without fuel nothing needs to settle: every slack is at least one. -/
theorem settle_zero (toks : Array Token) : Settle toks 0 where
  primary _ _ h := absurd h (by omega)
  identExpr _ _ _ h := absurd h (by omega)
  chain _ _ h := absurd h (by omega)
  chainTail _ _ _ _ h := absurd h (by omega)
  callArgs _ _ _ _ h := absurd h (by omega)
  argList _ _ _ _ h := absurd h (by omega)
  unary _ _ h := absurd h (by omega)
  additiveTail _ _ _ _ h := absurd h (by omega)
  additive _ _ h := absurd h (by omega)
  equalityTail _ _ _ _ h := absurd h (by omega)
  expr _ _ h := absurd h (by omega)
  exprOrCall _ _ h := absurd h (by omega)
  assignment _ _ _ _ _ h := absurd h (by omega)
  block _ _ h := absurd h (by omega)
  blockStmts _ _ _ _ h := absurd h (by omega)
  ifStmt _ _ h := absurd h (by omega)
  forStmt _ _ h := absurd h (by omega)
  defineStmt _ _ h := absurd h (by omega)
  stmt _ _ h := absurd h (by omega)

/-- One more unit of fuel: each function from the functions it calls. -/
theorem Settle.succ {toks : Array Token} (hw : EndsWithEof toks) {f : Nat} (h : Settle toks f) :
    Settle toks (f + 1) where
  primary := primary_settles hw h.expr h.identExpr
  identExpr := identExpr_settles hw h.expr
  chain := chain_settles h.primary h.chainTail
  chainTail := chainTail_settles hw h.expr h.callArgs h.chainTail
  callArgs := callArgs_settles hw h.expr h.argList
  argList := argList_settles hw h.expr h.argList
  unary := unary_settles hw h.unary h.chain
  additiveTail := additiveTail_settles hw h.unary h.additiveTail
  additive := additive_settles h.unary h.additiveTail
  equalityTail := equalityTail_settles hw h.additive h.equalityTail
  expr := expr_settles h.additive h.equalityTail
  exprOrCall := exprOrCall_settles h.expr h.chain
  assignment := assignment_settles h.exprOrCall
  block := block_settles hw h.blockStmts
  blockStmts := blockStmts_settles hw h.stmt h.blockStmts
  ifStmt := ifStmt_settles hw h.expr h.block
  forStmt := forStmt_settles hw h.expr h.block
  defineStmt := defineStmt_settles hw h.expr
  stmt := stmt_settles hw h.expr h.chain h.assignment h.ifStmt h.forStmt h.defineStmt

/-- On tokens that end with the end token, every function of the reader settles at every fuel:
given eight units per token ahead and its slack, it never runs out. -/
theorem settle {toks : Array Token} (hw : EndsWithEof toks) (fuel : Nat) : Settle toks fuel := by
  -- induction on the fuel: all nineteen functions settle together, each from those it calls
  induction fuel with
  | zero => exact settle_zero toks
  | succ f ih => exact ih.succ hw

/-- The statements up to the end token end well when there are more steps than tokens ahead:
every statement read moves on. -/
theorem statements_ends {toks : Array Token} {fuel : Nat}
    (hs : Settles toks 3 fuel (· < ·) (stmt fuel) Stmt.ConstsPrimitive) :
    ∀ (steps : Nat) (acc : List Stmt) (i : Nat), i ≤ toks.size - 1 →
      8 * (toks.size - 1 - i) + 3 ≤ fuel → toks.size - 1 - i < steps →
      (∀ s ∈ acc, s.ConstsPrimitive) →
      EndsWell toks (statements fuel steps acc) i fun ss _ => ∀ s ∈ ss, s.ConstsPrimitive := by
  intro steps
  -- induction on the steps left: every statement read moves past at least one token
  induction steps with
  | zero => intro _ _ _ _ hsteps; omega
  | succ steps ih =>
    intro acc i hi hf hsteps hacc
    simp only [statements, endsWell_bind, endsWell_atKind, endsWell_ite, endsWell_pure]
    split
    · exact fun s hs => hacc s (List.mem_reverse.1 hs)
    · refine hs.then hi hf fun st j hij hj hst => ?_
      exact ih _ j hj (by omega) (by omega) (List.forall_mem_cons.2 ⟨hst, hacc⟩)

end Parsing

/-- The tokenizer ends what it reads with the end token. -/
theorem tokenize_endsWithEof {src : String} {toks : Array Token} (h : tokenize src = .ok toks) :
    Parsing.EndsWithEof toks := by
  unfold tokenize at h
  dsimp only at h
  split at h
  · cases h
  · cases h
    constructor
    · simp
    · simp [Parsing.tokenAt]

/-- `Program.parse` ends well: it returns a program whose constants are all primitives, or a
problem of the text, which the tokenizer met or the reader met for another reason than running
out of fuel. -/
theorem parse_total (src : String) :
    (∃ p, parse src = .ok p ∧ p.body.ConstsPrimitive) ∨
      ∃ e, parse src = .error e ∧ (tokenize src = .error e ∨ e.msg ≠ Parsing.exhaustedMsg) := by
  rcases ht : tokenize src with e | toks
  · exact .inr ⟨e, by rw [parse, ht]; rfl, .inl rfl⟩
  · -- the statements start at the first token with eight units per token and slack to spare
    have hw := tokenize_endsWithEof ht
    have hrun := Parsing.statements_ends (Parsing.settle hw (8 * (toks.size + 1))).stmt
      (toks.size + 1) [] 0 (by omega) (by omega) (by omega) (by simp)
    have hparse : parse src =
        Parsing.statements (8 * (toks.size + 1)) (toks.size + 1) [] toks 0 >>= fun r =>
          pure { body := .seq r.1 } := by
      simp [parse, ht]
      rfl
    unfold Parsing.EndsWell at hrun
    rcases hr : Parsing.statements (8 * (toks.size + 1)) (toks.size + 1) [] toks 0 with
      e | ⟨ss, j⟩
    · rw [hr] at hrun
      exact .inr ⟨e, by rw [hparse, hr]; rfl, .inr hrun⟩
    · rw [hr] at hrun
      exact .inl ⟨_, by rw [hparse, hr]; rfl, Stmt.constsPrimitive_seq.2 hrun⟩

end Program

end TraceSynth
