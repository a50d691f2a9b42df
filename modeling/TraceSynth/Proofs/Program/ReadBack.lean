import TraceSynth.Proofs.Program.Layout

/-!
# Reading printed expressions back from their tokens

The reader runs on an array of tokens and a position. This module proves that when the tokens
from a position on spell the printed form of an expression (`Expr.segs`), each level of the
reader reads exactly those tokens and builds `Expr.reread` of the expression, provided the token
after them cannot continue it (`StopsChain`, `StopsSum`, `StopsExpr`) and the fuel is eight per
token, as the reader's own comment promises.

The levels call each other on smaller fuel, so the statement for all of them (`Reads`) is proved
by induction on the fuel, one step lemma per level.
-/

namespace TraceSynth

namespace Program.Parsing

/-- The token at a position; the end token past the last one. -/
def tokenAt (toks : Array Token) (i : Nat) : Token := toks.getD i default

section Steps

variable {α β : Type} (toks : Array Token)

theorem run_bind_ok {x : ParseM α} {f : α → ParseM β} {i j : Nat} {a : α}
    (h : x toks i = .ok (a, j)) : (x >>= f) toks i = f a toks j := by
  simp only [bind, ReaderT.bind, StateT.bind, h]
  rfl

theorem run_pure (a : α) (i : Nat) : (pure a : ParseM α) toks i = .ok (a, i) := rfl

theorem peek_run (i : Nat) : peek toks i = .ok (tokenAt toks i, i) := rfl

theorem prevLine_run (i : Nat) : prevLine toks i = .ok ((tokenAt toks (i - 1)).line, i) := rfl

theorem next_run {i : Nat} (h : (tokenAt toks i).kind ≠ .eof) :
    next toks i = .ok (tokenAt toks i, i + 1) := by
  rw [next, run_bind_ok toks (peek_run toks i)]
  simp [h]
  rfl

theorem discard_next_run {i : Nat} (h : (tokenAt toks i).kind ≠ .eof) :
    (discard next : ParseM Unit) toks i = .ok ((), i + 1) := by
  show (next >>= fun _ => pure ()) toks i = _
  rw [run_bind_ok toks (next_run toks h)]
  rfl

theorem atKind_run (k : TokenKind) (i : Nat) :
    atKind k toks i = .ok ((tokenAt toks i).kind == k, i) := by
  rw [atKind, run_bind_ok toks (peek_run toks i)]
  rfl

theorem atIdent_run (name : String) (i : Nat) :
    atIdent name toks i =
      .ok ((tokenAt toks i).kind == .ident && (tokenAt toks i).text == name, i) := by
  rw [atIdent, run_bind_ok toks (peek_run toks i)]
  rfl

theorem expect_run {k : TokenKind} {i : Nat} (h : (tokenAt toks i).kind = k) (hk : k ≠ .eof) :
    expect k toks i = .ok ((), i + 1) := by
  rw [expect, run_bind_ok toks (peek_run toks i)]
  simp only [h, beq_self_eq_true, if_true]
  exact discard_next_run toks (h ▸ hk)

theorem expectIdent_run {name : String} {i : Nat} (h : (tokenAt toks i).kind = .ident)
    (ht : (tokenAt toks i).text = name) : expectIdent name toks i = .ok ((), i + 1) := by
  rw [expectIdent, run_bind_ok toks (peek_run toks i)]
  simp only [h, ht, beq_self_eq_true, Bool.and_self, if_true]
  exact discard_next_run toks (by rw [h]; decide)

theorem ident_run {i : Nat} (h : (tokenAt toks i).kind = .ident) :
    ident toks i = .ok ((tokenAt toks i).text, i + 1) := by
  rw [ident, run_bind_ok toks (peek_run toks i)]
  simp only [h, beq_self_eq_true, if_true]
  rw [run_bind_ok toks (discard_next_run toks (by rw [h]; decide))]
  rfl

end Steps

/-- The tokens from position `i` on have these kinds, texts and lines. -/
def Spells (toks : Array Token) : Nat → List (TokenKind × String × Nat) → Prop
  | _, [] => True
  | i, (k, s, l) :: rest =>
    (tokenAt toks i).kind = k ∧ (tokenAt toks i).text = s ∧ (tokenAt toks i).line = l ∧
      Spells toks (i + 1) rest

/-- Tokens placed on one line. -/
def atLine (line : Nat) (ls : List (TokenKind × String)) : List (TokenKind × String × Nat) :=
  ls.map fun (k, s) => (k, s, line)

section Spelling

variable {toks : Array Token}

theorem spells_append {i : Nat} {xs ys : List (TokenKind × String × Nat)} :
    Spells toks i (xs ++ ys) ↔ Spells toks i xs ∧ Spells toks (i + xs.length) ys := by
  induction xs generalizing i with
  | nil => simp [Spells]
  | cons x xs ih =>
    obtain ⟨k, s, l⟩ := x
    simp only [List.cons_append, Spells, ih, List.length_cons, and_assoc]
    rw [Nat.add_right_comm, Nat.add_assoc]

theorem spells_cons {i : Nat} {k : TokenKind} {s : String} {l : Nat}
    {rest : List (TokenKind × String × Nat)} :
    Spells toks i ((k, s, l) :: rest) ↔
      ((tokenAt toks i).kind = k ∧ (tokenAt toks i).text = s ∧ (tokenAt toks i).line = l) ∧
        Spells toks (i + 1) rest := by
  simp [Spells, and_assoc]

@[simp] theorem atLine_append (line : Nat) (a b : List (TokenKind × String)) :
    atLine line (a ++ b) = atLine line a ++ atLine line b := by
  simp [atLine]

@[simp] theorem atLine_cons (line : Nat) (k : TokenKind) (s : String)
    (rest : List (TokenKind × String)) :
    atLine line ((k, s) :: rest) = (k, s, line) :: atLine line rest := rfl

@[simp] theorem atLine_nil (line : Nat) : atLine line [] = [] := rfl

@[simp] theorem length_atLine (line : Nat) (ls : List (TokenKind × String)) :
    (atLine line ls).length = ls.length := by
  simp [atLine]

end Spelling

section Stops

variable (toks : Array Token)

/-- The token at `j` cannot continue a chain of field reads that ended on `line` with the tokens
`ls`: it reads no field, opens no bracket on that line, and is no parenthesis after `.apply`. -/
def StopsChain (j line : Nat) (ls : List (TokenKind × String)) : Prop :=
  (tokenAt toks j).kind ≠ .char '.' ∧
    ((tokenAt toks j).kind = .char '[' → (tokenAt toks j).line ≠ line) ∧
    ((tokenAt toks j).kind = .char '(' → endsWithApply ls = false)

/-- The token at `j` cannot continue a sum either: it neither adds nor subtracts. -/
def StopsSum (j line : Nat) (ls : List (TokenKind × String)) : Prop :=
  StopsChain toks j line ls ∧ (tokenAt toks j).kind ≠ .char '+' ∧
    (tokenAt toks j).kind ≠ .char '-'

/-- The token at `j` cannot continue an expression: nor does it compare. -/
def StopsExpr (j line : Nat) (ls : List (TokenKind × String)) : Prop :=
  StopsSum toks j line ls ∧ (tokenAt toks j).kind ≠ .eqEq

variable {toks}

theorem StopsExpr.sum {j line : Nat} {ls : List (TokenKind × String)}
    (h : StopsExpr toks j line ls) : StopsSum toks j line ls := h.1

theorem StopsSum.chain {j line : Nat} {ls : List (TokenKind × String)}
    (h : StopsSum toks j line ls) : StopsChain toks j line ls := h.1

/-- A punctuation token other than `.`, `[`, `(`, `+` and `-` ends any expression. -/
theorem stopsExpr_of_char {j line : Nat} {ls : List (TokenKind × String)} {c : Char}
    (h : (tokenAt toks j).kind = .char c)
    (hc : c ≠ '.' ∧ c ≠ '[' ∧ c ≠ '(' ∧ c ≠ '+' ∧ c ≠ '-') : StopsExpr toks j line ls := by
  obtain ⟨h1, h2, h3, h4, h5⟩ := hc
  refine ⟨⟨⟨?_, ?_, ?_⟩, ?_, ?_⟩, ?_⟩ <;> simp_all

/-- A sum followed by a comparison: the comparison continues no chain and no sum. -/
theorem stopsSum_of_eqEq {j line : Nat} {ls : List (TokenKind × String)}
    (h : (tokenAt toks j).kind = .eqEq) : StopsSum toks j line ls := by
  refine ⟨⟨?_, ?_, ?_⟩, ?_, ?_⟩ <;> simp [h]

/-- An operand followed by `+` or `-`: the operator continues no chain. -/
theorem stopsChain_of_char {j line : Nat} {ls : List (TokenKind × String)} {c : Char}
    (h : (tokenAt toks j).kind = .char c) (hc : c ≠ '.' ∧ c ≠ '[' ∧ c ≠ '(') :
    StopsChain toks j line ls := by
  obtain ⟨h1, h2, h3⟩ := hc
  refine ⟨?_, ?_, ?_⟩ <;> simp_all

end Stops

section Tails

variable (toks : Array Token)

theorem chainTail_stop {fuel j : Nat} (e : Expr) (hf : 0 < fuel)
    (hdot : (tokenAt toks j).kind ≠ .char '.')
    (hbr : (tokenAt toks j).kind = .char '[' →
      (tokenAt toks j).line ≠ (tokenAt toks (j - 1)).line) :
    chainTail fuel e toks j = .ok (.value e, j) := by
  obtain ⟨f, rfl⟩ : ∃ f, fuel = f + 1 := ⟨fuel - 1, by omega⟩
  rw [chainTail, run_bind_ok toks (prevLine_run toks j), run_bind_ok toks (peek_run toks j)]
  have h1 : ((tokenAt toks j).kind == .char '.') = false := by simpa using hdot
  have h2 : ((tokenAt toks j).kind == .char '[' &&
      (tokenAt toks j).line == (tokenAt toks (j - 1)).line) = false := by
    by_cases hb : (tokenAt toks j).kind = .char '[' <;> simp_all
  simp only [h1, h2, Bool.false_eq_true, ↓reduceIte]
  rfl

theorem additiveTail_stop {fuel j : Nat} (a : Expr) (hf : 0 < fuel)
    (hplus : (tokenAt toks j).kind ≠ .char '+') (hminus : (tokenAt toks j).kind ≠ .char '-') :
    additiveTail fuel a toks j = .ok (a, j) := by
  obtain ⟨f, rfl⟩ : ∃ f, fuel = f + 1 := ⟨fuel - 1, by omega⟩
  rw [additiveTail, run_bind_ok toks (peek_run toks j)]
  have h : ((tokenAt toks j).kind == .char '+' || (tokenAt toks j).kind == .char '-') = false := by
    simp [hplus, hminus]
  simp only [h, Bool.false_eq_true, ↓reduceIte]
  rfl

theorem equalityTail_stop {fuel j : Nat} (a : Expr) (hf : 0 < fuel)
    (heq : (tokenAt toks j).kind ≠ .eqEq) :
    equalityTail fuel a toks j = .ok (a, j) := by
  obtain ⟨f, rfl⟩ : ∃ f, fuel = f + 1 := ⟨fuel - 1, by omega⟩
  rw [equalityTail, run_bind_ok toks (atKind_run toks .eqEq j)]
  have h : ((tokenAt toks j).kind == .eqEq) = false := by simpa using heq
  simp only [h, Bool.false_eq_true, ↓reduceIte]
  rfl

/-- A name that is no literal word and not `arguments` reads as an argument slot or a variable. -/
theorem identExpr_name {fuel : Nat} (hf : 0 < fuel) {name : String}
    (hn : name ∉ ["true", "false", "null", "undefined", "NaN", "Infinity", "arguments"])
    (i : Nat) :
    identExpr fuel name toks i = .ok ((match argNumber? name with
      | some k => Expr.arg k
      | none => .var name), i) := by
  obtain ⟨f, rfl⟩ : ∃ f, fuel = f + 1 := ⟨fuel - 1, by omega⟩
  simp only [List.mem_cons, List.not_mem_nil, or_false, not_or] at hn
  obtain ⟨h1, h2, h3, h4, h5, h6, h7⟩ := hn
  rw [identExpr]
  · cases argNumber? name <;> rfl
  all_goals assumption

/-- The argument shorthand of a natural number is no literal word and not `arguments`. -/
theorem argWord_not_literal {i : Int} (hi : 0 ≤ i) :
    "arg" ++ toString i ∉
      ["true", "false", "null", "undefined", "NaN", "Infinity", "arguments"] := by
  have hd : ∀ c ∈ (toString i).toList, c.isDigit = true := by
    obtain ⟨k, rfl⟩ := Int.eq_ofNat_of_zero_le hi
    intro c hc
    rw [show toString (k : Int) = toString k from rfl, Nat.toString_eq_repr,
      Nat.toList_repr] at hc
    exact Nat.isDigit_of_mem_toDigits (by decide) (by decide) hc
  intro hmem
  simp only [List.mem_cons, List.not_mem_nil, or_false] at hmem
  -- only `arguments` starts with `arg`, and its rest is no numeral
  rcases hmem with h | h | h | h | h | h | h <;>
    have h' := congrArg String.toList h <;> simp [String.toList_append] at h'
  have hu := hd 'u' (by rw [show toString i = i.repr from rfl, h']; simp)
  exact absurd hu (by decide)

/-- A plain name is no literal word and not `arguments`. -/
theorem plainName_not_literal {name : String} (h : isPlainName name = true) :
    name ∉ ["true", "false", "null", "undefined", "NaN", "Infinity", "arguments"] := by
  simp only [isPlainName, Bool.and_eq_true, Bool.not_eq_true', List.contains_eq_mem,
    decide_eq_false_iff_not, reservedWords] at h
  intro hmem
  apply h.1.2
  simp only [List.mem_cons, List.not_mem_nil, or_false] at hmem ⊢
  rcases hmem with h | h | h | h | h | h | h <;> simp [h]

theorem argNumber?_plainName {name : String} (h : isPlainName name = true) :
    argNumber? name = none := by
  simp only [isPlainName, Bool.and_eq_true, Option.isNone_iff_eq_none] at h
  exact h.2

end Tails

section SpellsFacts

variable {toks : Array Token}

theorem spells_atLine_append {i line : Nat} {a b : List (TokenKind × String)} :
    Spells toks i (atLine line (a ++ b)) ↔
      Spells toks i (atLine line a) ∧ Spells toks (i + a.length) (atLine line b) := by
  rw [atLine_append, spells_append, length_atLine]

theorem spells_atLine_cons {i line : Nat} {k : TokenKind} {s : String}
    {rest : List (TokenKind × String)} :
    Spells toks i (atLine line ((k, s) :: rest)) ↔
      ((tokenAt toks i).kind = k ∧ (tokenAt toks i).text = s ∧ (tokenAt toks i).line = line) ∧
        Spells toks (i + 1) (atLine line rest) := by
  rw [atLine_cons, spells_cons]

/-- The last of a line's tokens is on that line. -/
theorem spells_last_line {i line : Nat} {ls : List (TokenKind × String)} (hne : ls ≠ [])
    (h : Spells toks i (atLine line ls)) : (tokenAt toks (i + ls.length - 1)).line = line := by
  induction ls generalizing i with
  | nil => exact absurd rfl hne
  | cons x rest ih =>
    obtain ⟨k, s⟩ := x
    rw [spells_atLine_cons] at h
    cases rest with
    | nil => simpa using h.1.2.2
    | cons y rest' =>
      have := ih (by simp) h.2
      simpa [Nat.add_assoc, Nat.add_comm 1] using this

end SpellsFacts

end Program.Parsing

open Program Parsing

namespace Seg

@[simp] theorem lexemes_nil : lexemes [] = [] := rfl

@[simp] theorem lexemes_append (a b : List Seg) : lexemes (a ++ b) = lexemes a ++ lexemes b := by
  simp [lexemes]

@[simp] theorem lexemes_blank (t : String) (rest : List Seg) :
    lexemes (blank t :: rest) = lexemes rest := rfl

@[simp] theorem lexemes_tok (k : TokenKind) (t : String) (rest : List Seg) :
    lexemes (tok k t :: rest) = (k, t) :: lexemes rest := rfl

@[simp] theorem lexemes_sym (c : Char) (rest : List Seg) :
    lexemes (sym c :: rest) = (.char c, c.toString) :: lexemes rest := rfl

@[simp] theorem lexemes_word (w : String) (rest : List Seg) :
    lexemes (word w :: rest) = (.ident, w) :: lexemes rest := rfl

@[simp] theorem lexemes_space (rest : List Seg) : lexemes (space :: rest) = lexemes rest := rfl

@[simp] theorem lexemes_paren (ss : List Seg) :
    lexemes (paren ss) = (.char '(', "(") :: lexemes ss ++ [(.char ')', ")")] := by
  simp [paren]

@[simp] theorem lexemes_bracket (ss : List Seg) :
    lexemes (bracket ss) = (.char '[', "[") :: lexemes ss ++ [(.char ']', "]")] := by
  simp [bracket]

end Seg


namespace Value

theorem lexemes_atomSeg (s : String) :
    Seg.lexemes [atomSeg s] =
      [(if s == "NaN" || s == "Infinity" then .ident else digitsKind s, s)] := by
  unfold atomSeg
  split <;> simp_all [Seg.word]

theorem lexemes_numberSegs_ne_nil (s : String) : Seg.lexemes (numberSegs s) ≠ [] := by
  unfold numberSegs
  split <;> simp [lexemes_atomSeg]

end Value

namespace Expr

/-- A field read is written as `.name` or as a bracketed name. -/
theorem access_cases (n : Expr) :
    (∃ s, isIdentifier s = true ∧ accessSegs n = [.sym '.', .word s.toStringLossy] ∧
      ∀ o, accessReread o n = .field o (.const (.str s.toStringLossy))) ∨
    (accessSegs n = Seg.bracket (n.segs true) ∧ ∀ o, accessReread o n = .field o n.reread) := by
  rcases n with _ | _ | _ | ⟨_ | _ | _ | _ | s | _⟩ | _ | _ | _
  case const.string =>
    by_cases hs : isIdentifier s = true
    · exact .inl ⟨s, hs, by simp [accessSegs, hs], fun o => by simp [accessReread, hs]⟩
    · exact .inr ⟨by simp [accessSegs, hs], fun o => by simp [accessReread, hs]⟩
  all_goals exact .inr ⟨rfl, fun _ => rfl⟩

theorem two_le_length_access (n : Expr) : 2 ≤ (Seg.lexemes (accessSegs n)).length := by
  rcases access_cases n with ⟨s, -, h, -⟩ | ⟨h, -⟩ <;> simp [h]

theorem length_accesses (ns : List Expr) :
    2 * ns.length ≤ (Seg.lexemes (ns.flatMap accessSegs)).length := by
  induction ns with
  | nil => simp
  | cons n rest ih =>
    have := two_le_length_access n
    simp only [List.flatMap_cons, Seg.lexemes_append, List.length_append, List.length_cons]
    omega

theorem lexemes_segs_ne_nil (e : Expr) (top : Bool) : Seg.lexemes (e.segs top) ≠ [] := by
  cases e with
  | const v =>
    cases v
    case number n => exact Value.lexemes_numberSegs_ne_nil _
    all_goals simp [segs, Value.segs]
  | field o n =>
    have := two_le_length_access n
    rw [segs_field, Seg.lexemes_append, ← List.length_pos_iff, List.length_append]
    omega
  | binary op a b =>
    cases top
    · simp [segs_binary_inner]
    · cases op
      · rw [segs_add]
        unfold addendSegs
        split
        · split <;> simp [Seg.space, Seg.sym]
        · simp [Seg.space, Seg.sym]
      · simp [segs_eq, Seg.space]
  | argument index =>
    simp only [segs]
    split <;> simp
  | alloc array => cases array <;> simp [segs]
  | _ => simp [segs]

theorem lexemes_operandSegs_ne_nil (e : Expr) : Seg.lexemes e.operandSegs ≠ [] := by
  unfold operandSegs
  split
  · simp
  · exact lexemes_segs_ne_nil e true

theorem lexemes_addendSegs_ne_nil (b : Expr) : Seg.lexemes (addendSegs b) ≠ [] := by
  unfold addendSegs
  split
  · split <;> simp [Seg.space, Seg.sym]
  · simp [Seg.space, Seg.sym]

theorem operandSegs_field (o n : Expr) :
    (Expr.field o n).operandSegs = o.operandSegs ++ accessSegs n := by
  rw [operandSegs, if_neg (by simp [isCompound]), segs_field]

/-- The kinds of token an operand starts with. -/
def operandStarts : List TokenKind :=
  [.ident, .string, .char '(', .char '[', .char '\x7b', .char '#']

/-- An operand is written from a word, a string, a parenthesis or a bracket. -/
theorem operandSegs_head (e : Expr) : ∃ k t rest, Seg.lexemes e.operandSegs = (k, t) :: rest ∧
    k ∈ operandStarts := by
  have paren : ∀ ss, ∃ k t rest, Seg.lexemes (Seg.paren ss) = (k, t) :: rest ∧
      k ∈ operandStarts := fun ss => ⟨_, _, _, Seg.lexemes_paren ss, by decide⟩
  induction e with
  | const v =>
    cases v
    case number n => exact paren _
    all_goals exact ⟨_, _, _, rfl, by decide⟩
  | field o n ih _ =>
    obtain ⟨k, t, rest, h, hk⟩ := ih
    refine ⟨k, t, rest ++ Seg.lexemes (accessSegs n), ?_, hk⟩
    rw [operandSegs_field, Seg.lexemes_append, h, List.cons_append]
  | argument index =>
    simp only [operandSegs, isCompound, Bool.false_eq_true, if_false, segs]
    split <;> exact ⟨_, _, _, rfl, by decide⟩
  | alloc array => cases array <;> exact ⟨_, _, _, rfl, by decide⟩
  | var => exact ⟨_, _, _, rfl, by decide⟩
  | binary => exact paren _
  | not => exact paren _

/-- Apart from negations and numbers, an expression is written the same as an operand and as
an operand of an operation. -/
theorem segs_false_eq_operandSegs {e : Expr} (h1 : ∀ inner, e ≠ .not inner)
    (h2 : ∀ n, e ≠ .const (.number n)) : e.segs false = e.operandSegs := by
  cases e with
  | binary op a b => simp [segs_binary_inner, operandSegs, isCompound]
  | not inner => exact absurd rfl (h1 inner)
  | const v =>
    cases v
    case number n => exact absurd rfl (h2 n)
    all_goals rfl
  | _ => rfl

/-- The right operand of a sum is a negative number written after `-`, or anything after `+`. -/
theorem addend_cases (b : Expr) :
    (∃ n, n < 0 ∧ addendSegs b = [.space, .sym '-', .space] ++
        Value.numberSegs (Value.formatNumber (-n)) ∧
      addendReread b = .const (.number (-Value.numberValue (Value.formatNumber (-n)))) ∧
      addendPrintable b = Value.readsBack (.number (-n)) ∧
      Value.numberSegs (Value.formatNumber (-n)) = (Expr.const (.number (-n))).segs false) ∨
    (addendSegs b = [.space, .sym '+', .space] ++ b.segs false ∧ addendReread b = b.reread ∧
      addendPrintable b = b.printable) := by
  rcases b with _ | _ | _ | ⟨_ | _ | _ | n | _ | _⟩ | _ | _ | _
  case const.number =>
    by_cases hn : n < 0
    · exact .inl ⟨n, hn, by simp [addendSegs, hn], by simp [addendReread, hn],
        by simp [addendPrintable, hn], rfl⟩
    · exact .inr ⟨by simp [addendSegs, hn], by simp [addendReread, hn],
        by simp [addendPrintable, hn]⟩
  all_goals exact .inr ⟨rfl, rfl, rfl⟩

end Expr

namespace Value

/-- A number's text is an unsigned text, or `-` before one. -/
theorem numberSegs_cases (t : String) :
    (∃ r, numberSegs t = [.sym '-', atomSeg r] ∧ numberValue t = -atomValue r ∧
      numberReads t = atomReads r) ∨
    (numberSegs t = [atomSeg t] ∧ numberValue t = atomValue t ∧ numberReads t = atomReads t) := by
  unfold numberSegs numberValue numberReads
  split
  · exact .inl ⟨_, rfl, rfl, rfl⟩
  · exact .inr ⟨rfl, rfl, rfl⟩

end Value

/-- Tokens that end with the field read `.apply` still do after anything is put before them. -/
theorem endsWithApply_append {a b : List (TokenKind × String)} (h : endsWithApply b = true) :
    endsWithApply (a ++ b) = true := by
  unfold endsWithApply at h ⊢
  split at h
  · rename_i heq
    rw [List.reverse_append, heq]
    rfl
  · exact absurd h (by decide)

theorem endsWithApply_of_append {a b : List (TokenKind × String)}
    (h : endsWithApply (a ++ b) = false) : endsWithApply b = false := by
  cases hb : endsWithApply b
  · rfl
  · simp [endsWithApply_append hb] at h

namespace Program.Parsing

variable {toks : Array Token}

/-- A follower that stops a chain stops any chain the chain ends. -/
theorem StopsChain.of_append {j line : Nat} {a b : List (TokenKind × String)}
    (h : StopsChain toks j line (a ++ b)) : StopsChain toks j line b :=
  ⟨h.1, h.2.1, fun hk => endsWithApply_of_append (h.2.2 hk)⟩

theorem StopsSum.of_append {j line : Nat} {a b : List (TokenKind × String)}
    (h : StopsSum toks j line (a ++ b)) : StopsSum toks j line b :=
  ⟨h.1.of_append, h.2⟩

theorem StopsExpr.of_append {j line : Nat} {a b : List (TokenKind × String)}
    (h : StopsExpr toks j line (a ++ b)) : StopsExpr toks j line b :=
  ⟨h.1.of_append, h.2⟩

theorem StopsChain.of_eq {j k line : Nat} {ls : List (TokenKind × String)}
    (h : StopsChain toks j line ls) (hj : j = k) : StopsChain toks k line ls := hj ▸ h

theorem StopsSum.of_eq {j k line : Nat} {ls : List (TokenKind × String)}
    (h : StopsSum toks j line ls) (hj : j = k) : StopsSum toks k line ls := hj ▸ h

theorem StopsExpr.of_eq {j k line : Nat} {ls : List (TokenKind × String)}
    (h : StopsExpr toks j line ls) (hj : j = k) : StopsExpr toks k line ls := hj ▸ h

theorem Spells.of_eq {i i' : Nat} {xs : List (TokenKind × String × Nat)} (h : Spells toks i xs)
    (hi : i = i') : Spells toks i' xs := hi ▸ h

end Program.Parsing


namespace Program.Parsing

section Enclosed

variable {toks : Array Token}

/-- The tokens of segments between two punctuation marks. -/
theorem spells_enclosed {i line : Nat} {o c : Char} {l : List Seg}
    (h : Spells toks i (atLine line (Seg.lexemes (Seg.sym o :: l ++ [Seg.sym c])))) :
    (tokenAt toks i).kind = .char o ∧ (tokenAt toks i).line = line ∧
      Spells toks (i + 1) (atLine line (Seg.lexemes l)) ∧
      (tokenAt toks (i + 1 + (Seg.lexemes l).length)).kind = .char c ∧
      (tokenAt toks (i + 1 + (Seg.lexemes l).length)).line = line := by
  simp only [List.cons_append, Seg.lexemes_sym, Seg.lexemes_append, Seg.lexemes_nil,
    atLine_cons, atLine_append, atLine_nil, spells_cons, spells_append, length_atLine,
    Spells] at h
  exact ⟨h.1.1, h.1.2.2, h.2.1, h.2.2.1, h.2.2.2.2.1⟩

@[simp] theorem length_lexemes_enclosed (o c : Char) (ss : List Seg) :
    (Seg.lexemes (Seg.sym o :: ss ++ [Seg.sym c])).length = (Seg.lexemes ss).length + 2 := by
  simp

/-- The tokens of one word. -/
theorem spells_word {i line : Nat} {w : String}
    (h : Spells toks i (atLine line (Seg.lexemes [Seg.word w]))) :
    (tokenAt toks i).kind = .ident ∧ (tokenAt toks i).text = w := by
  simp only [Seg.lexemes_word, Seg.lexemes_nil, atLine_cons, atLine_nil, spells_cons] at h
  exact ⟨h.1.1, h.1.2.1⟩

end Enclosed

section Primary

variable {toks : Array Token} {i : Nat}

theorem primary_paren {f : Nat} (hk : (tokenAt toks i).kind = .char '(') {e : Expr} {j : Nat}
    (he : expr f toks (i + 1) = .ok (e, j)) (hc : (tokenAt toks j).kind = .char ')') :
    primary (f + 1) toks i = .ok (e, j + 1) := by
  rw [primary, run_bind_ok toks (peek_run toks i)]
  simp only [hk]
  rw [run_bind_ok toks (discard_next_run toks (by rw [hk]; decide)), run_bind_ok toks he,
    run_bind_ok toks (expect_run toks hc (by decide))]
  rfl

theorem primary_ident {f : Nat} (hk : (tokenAt toks i).kind = .ident) :
    primary (f + 1) toks i = identExpr f (tokenAt toks i).text toks (i + 1) := by
  rw [primary, run_bind_ok toks (peek_run toks i)]
  simp only [hk]
  rw [run_bind_ok toks (discard_next_run toks (by rw [hk]; decide))]

theorem primary_string {f : Nat} (hk : (tokenAt toks i).kind = .string) {s : Bytes}
    (hs : Quoted.unquote (Bytes.ofString (tokenAt toks i).text) = some s) :
    primary (f + 1) toks i = .ok (.const (.string s), i + 1) := by
  rw [primary, run_bind_ok toks (peek_run toks i)]
  simp only [hk]
  rw [run_bind_ok toks (discard_next_run toks (by rw [hk]; decide))]
  simp only [hs]
  rfl

theorem primary_digits {f : Nat} (hk : (tokenAt toks i).kind = .int ∨ (tokenAt toks i).kind = .float)
    {x : Float} (hx : Reading.float (Bytes.ofString (tokenAt toks i).text).toList = .ok x) :
    primary (f + 1) toks i = .ok (.const (.number x), i + 1) := by
  rw [primary, run_bind_ok toks (peek_run toks i)]
  rcases hk with hk | hk <;>
  · simp only [hk]
    rw [run_bind_ok toks (discard_next_run toks (by rw [hk]; decide))]
    simp only [hx]
    rfl

theorem primary_alloc {f : Nat} {array : Bool}
    (hk : (tokenAt toks i).kind = .char (if array then '[' else '\x7b'))
    (hc : (tokenAt toks (i + 1)).kind = .char (if array then ']' else '\x7d')) :
    primary (f + 1) toks i = .ok (.alloc array, i + 2) := by
  rw [primary, run_bind_ok toks (peek_run toks i)]
  cases array <;>
  · simp only [Bool.false_eq_true, if_true, if_false] at hk hc
    simp only [hk]
    rw [run_bind_ok toks (discard_next_run toks (by rw [hk]; decide)),
      run_bind_ok toks (expect_run toks hc (by decide))]
    rfl

theorem identExpr_arguments {g : Nat} (hk : (tokenAt toks i).kind = .char '[') {e : Expr}
    {j : Nat} (he : expr g toks (i + 1) = .ok (e, j)) (hc : (tokenAt toks j).kind = .char ']') :
    identExpr (g + 1) "arguments" toks i = .ok (.argument e, j + 1) := by
  show (do expect (.char '['); let idx ← expr g; expect (.char ']'); pure (Expr.argument idx))
    toks i = _
  rw [run_bind_ok toks (expect_run toks hk (by decide)), run_bind_ok toks he,
    run_bind_ok toks (expect_run toks hc (by decide))]
  rfl

end Primary

end Program.Parsing


namespace Program.Parsing

open TraceSynth.Expr

/-! ## What each level of the reader reads

Each statement takes the tokens of an expression's printed form from a position on, the
expression readable (`Expr.printable`), a condition on the token after them where the level
would otherwise read on, and fuel of eight per token less a small slack per level, and says
that the level reads exactly those tokens into `Expr.reread` of the expression. -/

/-- `primary` reads an operand: an operation or number in parentheses, or an expression that
reads no field. -/
def PrimaryReads (fuel : Nat) : Prop :=
  ∀ (h : Expr) (toks : Array Token) (i line : Nat),
    (isCompound h = true ∨ ∀ o n, h ≠ .field o n) → h.printable = true →
    Spells toks i (atLine line (Seg.lexemes h.operandSegs)) →
    8 * (Seg.lexemes h.operandSegs).length ≤ fuel + 6 →
    primary fuel toks i = .ok (h.reread, i + (Seg.lexemes h.operandSegs).length)

/-- `chainTail` reads a run of field reads on one line and goes on after them. -/
def ChainTailReads (fuel : Nat) : Prop :=
  ∀ (ns : List Expr) (e : Expr) (toks : Array Token) (j line : Nat),
    (∀ n ∈ ns, n.printable = true) →
    Spells toks j (atLine line (Seg.lexemes (ns.flatMap accessSegs))) →
    0 < j → (tokenAt toks (j - 1)).line = line →
    ((tokenAt toks (j + (Seg.lexemes (ns.flatMap accessSegs)).length)).kind = .char '(' →
      endsWithApply (Seg.lexemes (ns.flatMap accessSegs)) = false) →
    8 * (Seg.lexemes (ns.flatMap accessSegs)).length ≤ fuel →
    chainTail fuel e toks j =
      chainTail (fuel - ns.length) (ns.foldl accessReread e) toks
        (j + (Seg.lexemes (ns.flatMap accessSegs)).length)

/-- `chain` reads an operand with its field reads. -/
def ChainReads (fuel : Nat) : Prop :=
  ∀ (e : Expr) (toks : Array Token) (i line : Nat), e.printable = true →
    Spells toks i (atLine line (Seg.lexemes e.operandSegs)) →
    StopsChain toks (i + (Seg.lexemes e.operandSegs).length) line (Seg.lexemes e.operandSegs) →
    8 * (Seg.lexemes e.operandSegs).length ≤ fuel + 5 →
    chain fuel toks i = .ok (.value e.reread, i + (Seg.lexemes e.operandSegs).length)

/-- `unary` reads an expression written as an operand of an operation. -/
def UnaryReads (fuel : Nat) : Prop :=
  ∀ (e : Expr) (toks : Array Token) (i line : Nat), e.printable = true →
    Spells toks i (atLine line (Seg.lexemes (e.segs false))) →
    StopsChain toks (i + (Seg.lexemes (e.segs false)).length) line (Seg.lexemes (e.segs false)) →
    8 * (Seg.lexemes (e.segs false)).length ≤ fuel + 4 →
    unary fuel toks i = .ok (e.reread, i + (Seg.lexemes (e.segs false)).length)

/-- `additiveTail` reads the right operand of a sum. -/
def AddendReads (fuel : Nat) : Prop :=
  ∀ (a b : Expr) (toks : Array Token) (j line : Nat), addendPrintable b = true →
    Spells toks j (atLine line (Seg.lexemes (addendSegs b))) →
    StopsSum toks (j + (Seg.lexemes (addendSegs b)).length) line (Seg.lexemes (addendSegs b)) →
    8 * (Seg.lexemes (addendSegs b)).length ≤ fuel →
    additiveTail fuel a toks j =
      .ok (.binary .add a (addendReread b), j + (Seg.lexemes (addendSegs b)).length)

/-- `additive` reads an operand, or a sum written at the top. -/
def AdditiveReads (fuel : Nat) : Prop :=
  ∀ (e : Expr) (top : Bool) (toks : Array Token) (i line : Nat),
    (top = true → ∃ a b, e = .binary .add a b) → e.printable = true →
    Spells toks i (atLine line (Seg.lexemes (e.segs top))) →
    StopsSum toks (i + (Seg.lexemes (e.segs top)).length) line (Seg.lexemes (e.segs top)) →
    8 * (Seg.lexemes (e.segs top)).length ≤ fuel + 3 →
    additive fuel toks i = .ok (e.reread, i + (Seg.lexemes (e.segs top)).length)

/-- `equalityTail` reads the right operand of a comparison. -/
def ComparandReads (fuel : Nat) : Prop :=
  ∀ (a b : Expr) (toks : Array Token) (j line : Nat), b.printable = true →
    Spells toks j (atLine line ((.eqEq, "==") :: Seg.lexemes (b.segs false))) →
    StopsExpr toks (j + 1 + (Seg.lexemes (b.segs false)).length) line
      (Seg.lexemes (b.segs false)) →
    8 * ((Seg.lexemes (b.segs false)).length + 1) ≤ fuel →
    equalityTail fuel a toks j =
      .ok (.binary .eq a b.reread, j + 1 + (Seg.lexemes (b.segs false)).length)

/-- `expr` reads an expression written at the top. -/
def ExprReads (fuel : Nat) : Prop :=
  ∀ (e : Expr) (toks : Array Token) (i line : Nat), e.printable = true →
    Spells toks i (atLine line (Seg.lexemes (e.segs true))) →
    StopsExpr toks (i + (Seg.lexemes (e.segs true)).length) line (Seg.lexemes (e.segs true)) →
    8 * (Seg.lexemes (e.segs true)).length ≤ fuel + 2 →
    expr fuel toks i = .ok (e.reread, i + (Seg.lexemes (e.segs true)).length)

theorem primary_step {f : Nat} (hexpr : ∀ m ≤ f, ExprReads m) : PrimaryReads (f + 1) := by
  intro h toks i line hshape hp hs hfuel
  by_cases hc : isCompound h = true
  · -- an operation or a number, in parentheses
    simp only [operandSegs, hc, if_true] at hs hfuel ⊢
    obtain ⟨hk, -, hbody, hclose, -⟩ := spells_enclosed hs
    have hlen : (Seg.lexemes (Seg.paren (h.segs true))).length =
        (Seg.lexemes (h.segs true)).length + 2 := length_lexemes_enclosed _ _ _
    rw [hlen] at hfuel ⊢
    have he := hexpr f (Nat.le_refl f) h toks (i + 1) line hp hbody
      (stopsExpr_of_char hclose (by decide)) (by omega)
    rw [primary_paren hk he hclose]
    congr 2
    omega
  · have hnf : ∀ o n, h ≠ .field o n := hshape.resolve_left hc
    have hne := lexemes_operandSegs_ne_nil h
    simp only [operandSegs, hc, Bool.false_eq_true, if_false] at hs hfuel hne ⊢
    have hpos := List.length_pos_iff.mpr hne
    obtain ⟨g, rfl⟩ : ∃ g, f = g + 1 := ⟨f - 1, by omega⟩
    cases h with
    | const v =>
      cases v with
      | string s =>
        simp only [printable, Value.readsBack, Option.isSome_iff_exists] at hp
        obtain ⟨s', hs'⟩ := hp
        simp only [segs, Value.segs, Seg.lexemes_tok, Seg.lexemes_nil, atLine_cons, atLine_nil,
          spells_cons] at hs
        rw [primary_string hs.1.1 (by rw [hs.1.2.1]; exact hs')]
        simp [segs, Value.segs, reread, Value.reread, hs']
      | ref => simp [printable, Value.readsBack] at hp
      | number => simp [isCompound] at hc
      | bool b =>
        cases b <;>
        · obtain ⟨hk, ht⟩ := spells_word hs
          rw [primary_ident hk, ht]
          rfl
      | undefined =>
        obtain ⟨hk, ht⟩ := spells_word hs
        rw [primary_ident hk, ht]
        rfl
      | null =>
        obtain ⟨hk, ht⟩ := spells_word hs
        rw [primary_ident hk, ht]
        rfl
    | var name =>
      obtain ⟨hk, ht⟩ := spells_word hs
      rw [primary_ident hk, ht, identExpr_name toks (Nat.succ_pos g) (plainName_not_literal hp),
        argNumber?_plainName hp]
      rfl
    | alloc array =>
      cases array
      · have := spells_enclosed (o := '\x7b') (c := '\x7d') (l := []) hs
        exact primary_alloc this.1 this.2.2.2.1
      · have := spells_enclosed (o := '[') (c := ']') (l := []) hs
        exact primary_alloc this.1 this.2.2.2.1
    | argument index =>
      cases hidx : (Expr.argument index).argIndex? with
      | some k =>
        simp only [segs, hidx] at hs ⊢
        simp only [printable, hidx, decide_eq_true_eq] at hp
        obtain ⟨hk, ht⟩ := spells_word hs
        rw [primary_ident hk, ht, identExpr_name toks (Nat.succ_pos g) (argWord_not_literal hp)]
        cases hn : argNumber? ("arg" ++ toString k) <;>
          simp only [reread, hidx, hn, Seg.lexemes_word, Seg.lexemes_nil, List.length_cons,
            List.length_nil, Nat.zero_add]
      | none =>
        simp only [segs, hidx] at hs hfuel ⊢
        simp only [printable, hidx] at hp
        simp only [Seg.lexemes_word, atLine_cons, spells_cons] at hs
        obtain ⟨⟨hk, ht, -⟩, hbr⟩ := hs
        obtain ⟨hopen, -, hbody, hclose, -⟩ := spells_enclosed hbr
        have hlen : (Seg.lexemes (Seg.bracket (index.segs true))).length =
            (Seg.lexemes (index.segs true)).length + 2 := length_lexemes_enclosed _ _ _
        simp only [Seg.lexemes_word, List.length_cons, hlen] at hfuel ⊢
        have he := hexpr g (by omega) index toks (i + 1 + 1) line hp hbody
          (stopsExpr_of_char hclose (by decide)) (by omega)
        rw [primary_ident hk, ht, identExpr_arguments hopen he hclose]
        simp only [reread, hidx]
        congr 2
        omega
    | field o n => exact absurd rfl (hnf o n)
    | binary => simp [isCompound] at hc
    | not => simp [isCompound] at hc


/-- A field read starts with `.` or `[`, never with a parenthesis. -/
theorem spells_access_first {toks : Array Token} {j line : Nat} {n : Expr}
    {more : List (TokenKind × String)}
    (h : Spells toks j (atLine line (Seg.lexemes (accessSegs n) ++ more))) :
    (tokenAt toks j).kind ≠ .char '(' := by
  rw [spells_atLine_append] at h
  rcases access_cases n with ⟨s, -, hsegs, -⟩ | ⟨hsegs, -⟩
  · rw [hsegs] at h
    simp only [Seg.lexemes_sym, atLine_cons, spells_cons] at h
    rw [h.1.1.1]
    decide
  · rw [hsegs] at h
    rw [(spells_enclosed h.1).1]
    decide

theorem chainTail_step {f : Nat} (hexpr : ExprReads f) (htail : ChainTailReads f) :
    ChainTailReads (f + 1) := by
  intro ns e toks j line hp hs hj hline hparen hfuel
  cases ns with
  | nil => rfl
  | cons n rest =>
    simp only [List.flatMap_cons, Seg.lexemes_append, List.length_append, List.foldl_cons,
      List.length_cons, Nat.add_sub_add_right] at hs hparen hfuel ⊢
    have hsplit := spells_atLine_append.mp hs
    have hpr : ∀ m ∈ rest, m.printable = true := fun m hm => hp m (List.mem_cons_of_mem n hm)
    -- the rest of the run is not followed by `.apply(` unless the whole run is
    have hparen' : (tokenAt toks (j + (Seg.lexemes (accessSegs n)).length +
        (Seg.lexemes (rest.flatMap accessSegs)).length)).kind = .char '(' →
        endsWithApply (Seg.lexemes (rest.flatMap accessSegs)) = false := fun hk =>
      endsWithApply_of_append (hparen (by rwa [Nat.add_assoc] at hk))
    rcases access_cases n with ⟨s, -, hsegs, hre⟩ | ⟨hsegs, hre⟩
    · -- `.name`
      have hn := hsplit.1
      rw [hsegs] at hn hsplit hparen hparen' hfuel ⊢
      simp only [Seg.lexemes_sym, Seg.lexemes_word, Seg.lexemes_nil, atLine_cons, atLine_nil,
        spells_cons, Spells] at hn
      obtain ⟨⟨hk0, -, -⟩, hk1, ht1, hl1, -⟩ := hn
      simp only [Seg.lexemes_sym, Seg.lexemes_word, Seg.lexemes_nil, List.length_cons,
        List.length_nil] at hsplit hparen hparen' hfuel ⊢
      -- a parenthesis after the name starts a call only after a last `.apply`
      have hcall : (s.toStringLossy == "apply" &&
          (tokenAt toks (j + 1 + 1)).kind == .char '(') = false := by
        cases rest with
        | nil =>
          by_cases hk : (tokenAt toks (j + 1 + 1)).kind = .char '('
          · have hend := hparen (by simpa using hk)
            by_cases ha : s.toStringLossy = "apply"
            · rw [ha] at hend
              exact absurd hend (by decide)
            · simp [ha]
          · simp [hk]
        | cons m _ =>
          have hk := spells_access_first (by simpa using hsplit.2)
          simp [hk]
      rw [chainTail, run_bind_ok toks (prevLine_run toks j), run_bind_ok toks (peek_run toks j)]
      simp only [hk0, beq_self_eq_true, if_true]
      rw [run_bind_ok toks (discard_next_run toks (by rw [hk0]; decide)),
        run_bind_ok toks (ident_run toks hk1), run_bind_ok toks (atKind_run toks _ _), ht1]
      simp only [hcall, Bool.false_eq_true, if_false, hre e]
      rw [htail rest _ toks (j + 1 + 1) line hpr (by simpa using hsplit.2) (by omega)
        (by simpa using hl1) (by simpa using hparen') (by omega)]
      congr 1
      omega
    · -- `[name]`
      have hn := hsplit.1
      rw [hsegs] at hn hsplit hparen' hfuel ⊢
      obtain ⟨hk0, hl0, hbody, hclose, hlc⟩ := spells_enclosed hn
      simp only [Seg.lexemes_bracket, List.cons_append, List.length_cons, List.length_append,
        List.length_nil] at hsplit hparen' hfuel ⊢
      have he := hexpr n toks (j + 1) line (hp n (List.mem_cons_self ..)) hbody
        (stopsExpr_of_char hclose (by decide)) (by omega)
      have h1 : ((tokenAt toks j).kind == .char '.') = false := by rw [hk0]; decide
      have h2 : ((tokenAt toks j).kind == .char '[' &&
          (tokenAt toks j).line == (tokenAt toks (j - 1)).line) = true := by
        rw [hk0, hl0, hline]
        simp
      rw [chainTail, run_bind_ok toks (prevLine_run toks j), run_bind_ok toks (peek_run toks j)]
      simp only [h1, h2, Bool.false_eq_true, if_false, if_true]
      rw [run_bind_ok toks (discard_next_run toks (by rw [hk0]; decide)), run_bind_ok toks he,
        run_bind_ok toks (expect_run toks hclose (by decide)), hre e]
      have hidx : j + 1 + (Seg.lexemes (n.segs true)).length + 1 =
          j + ((Seg.lexemes (n.segs true)).length + 2) := by omega
      rw [hidx, htail rest _ toks _ line hpr hsplit.2 (by omega) (by rw [← hidx]; simpa using hlc)
        (by simpa [Nat.add_assoc] using hparen') (by omega)]
      congr 1
      omega


theorem chain_step {f : Nat} (hprim : PrimaryReads f) (htail : ChainTailReads f) :
    ChainReads (f + 1) := by
  intro e toks i line hp hs hstop hfuel
  -- the innermost operand first, then the run of field reads on it
  obtain ⟨hph, hpn⟩ := printable_spine hp
  have hlast := spells_last_line (lexemes_operandSegs_ne_nil e) hs
  rw [operandSegs_spine e, Seg.lexemes_append] at hs hstop hfuel hlast ⊢
  obtain ⟨hsh, hsn⟩ := spells_atLine_append.mp hs
  have hne := lexemes_operandSegs_ne_nil (spine e).1
  have hpos := List.length_pos_iff.mpr hne
  have hacc := length_accesses (spine e).2
  simp only [List.length_append, ← Nat.add_assoc] at hfuel hlast hstop ⊢
  have hhead := hprim (spine e).1 toks i line (spine_head e) hph hsh (by omega)
  have hrun := htail (spine e).2 (spine e).1.reread toks _ line hpn hsn (by omega)
    (by simpa using spells_last_line hne hsh) (fun hk => endsWithApply_of_append (hstop.2.2 hk))
    (by omega)
  rw [chain, run_bind_ok toks hhead, hrun, chainTail_stop toks _ (by omega) hstop.1
    (fun hk => by rw [hlast]; exact hstop.2.1 hk), reread_spine e]

section UnaryForms

variable {toks : Array Token} {i : Nat}

/-- A token that is neither `!` nor `-` starts a chain. -/
theorem unary_chain {f : Nat} (h1 : (tokenAt toks i).kind ≠ .char '!')
    (h2 : (tokenAt toks i).kind ≠ .char '-') {e : Expr} {j : Nat}
    (hc : chain f toks i = .ok (.value e, j)) : unary (f + 1) toks i = .ok (e, j) := by
  have h1' : ((tokenAt toks i).kind == .char '!') = false := by simpa using h1
  have h2' : ((tokenAt toks i).kind == .char '-') = false := by simpa using h2
  rw [unary, run_bind_ok toks (peek_run toks i)]
  simp only [h1', h2', Bool.false_eq_true, if_false]
  rw [run_bind_ok toks hc]
  rfl

theorem unary_not {f : Nat} (hk : (tokenAt toks i).kind = .char '!') {e : Expr} {j : Nat}
    (he : unary f toks (i + 1) = .ok (e, j)) : unary (f + 1) toks i = .ok (.not e, j) := by
  rw [unary, run_bind_ok toks (peek_run toks i)]
  simp only [hk, beq_self_eq_true, if_true]
  rw [run_bind_ok toks (discard_next_run toks (by rw [hk]; decide)), run_bind_ok toks he]
  rfl

theorem unary_neg {f : Nat} (hk : (tokenAt toks i).kind = .char '-') {x : Float} {j : Nat}
    (he : unary f toks (i + 1) = .ok (.const (.number x), j)) :
    unary (f + 1) toks i = .ok (.const (.number (-x)), j) := by
  have h1 : ((tokenAt toks i).kind == .char '!') = false := by rw [hk]; decide
  have h2 : ((tokenAt toks i).kind == .char '-') = true := by rw [hk]; decide
  rw [unary, run_bind_ok toks (peek_run toks i)]
  simp only [h1, h2, Bool.false_eq_true, if_false, if_true]
  rw [run_bind_ok toks (discard_next_run toks (by rw [hk]; decide)), run_bind_ok toks he]
  rfl

/-- The token of an unsigned number text: a word `NaN` or `Infinity`, or digits. -/
theorem spells_atom {s : String} {line : Nat}
    (hsp : Spells toks i (atLine line (Seg.lexemes [Value.atomSeg s]))) :
    (tokenAt toks i).kind = (if s == "NaN" || s == "Infinity" then .ident else Value.digitsKind s) ∧
      (tokenAt toks i).text = s ∧ (tokenAt toks i).line = line := by
  rw [Value.lexemes_atomSeg] at hsp
  simpa only [atLine_cons, atLine_nil, spells_cons, Spells, and_true] using hsp

/-- An unsigned number text is neither `!` nor `-`. -/
theorem atom_not_sign {s : String} {line : Nat}
    (hsp : Spells toks i (atLine line (Seg.lexemes [Value.atomSeg s]))) :
    (tokenAt toks i).kind ≠ .char '!' ∧ (tokenAt toks i).kind ≠ .char '-' := by
  rw [(spells_atom hsp).1]
  unfold Value.digitsKind
  constructor <;> split <;> (try split) <;> simp

/-- An unsigned number text is one token, read as its number. -/
theorem primary_atom {f : Nat} (hf : 1 ≤ f) {s : String} (hs : Value.atomReads s = true)
    {line : Nat} (hsp : Spells toks i (atLine line (Seg.lexemes [Value.atomSeg s]))) :
    primary (f + 1) toks i = .ok (.const (.number (Value.atomValue s)), i + 1) := by
  obtain ⟨hk, ht, -⟩ := spells_atom hsp
  obtain ⟨g, rfl⟩ : ∃ g, f = g + 1 := ⟨f - 1, by omega⟩
  by_cases hw : (s == "NaN" || s == "Infinity") = true
  · -- the words are read by `identExpr`
    simp only [hw, if_true] at hk
    rw [primary_ident hk, ht]
    simp only [Bool.or_eq_true, beq_iff_eq] at hw
    rcases hw with rfl | rfl <;> rfl
  · -- digits are read by the number reader, which accepts them
    simp only [hw, Bool.false_eq_true, if_false] at hk
    simp only [Value.atomReads, hw, Bool.false_or] at hs
    obtain ⟨x, hx⟩ : ∃ x, Reading.float (Bytes.ofString s).toList = .ok x := by
      cases h : Reading.float (Bytes.ofString s).toList with
      | ok x => exact ⟨x, rfl⟩
      | error _ => simp [h, Except.toBool] at hs
    have hk' : (tokenAt toks i).kind = .int ∨ (tokenAt toks i).kind = .float := by
      rw [hk, Value.digitsKind]
      split <;> simp
    have hval : Value.atomValue s = x := by
      simp only [Bool.or_eq_true, beq_iff_eq, not_or] at hw
      simp [Value.atomValue, hw.1, hw.2, hx]
    rw [primary_digits hk' (by rw [ht]; exact hx), hval]

theorem chain_atom {fuel : Nat} (hf : 3 ≤ fuel) {s : String} (hs : Value.atomReads s = true)
    {line : Nat} (hsp : Spells toks i (atLine line (Seg.lexemes [Value.atomSeg s])))
    (hstop : StopsChain toks (i + 1) line (Seg.lexemes [Value.atomSeg s])) :
    chain fuel toks i = .ok (.value (.const (.number (Value.atomValue s))), i + 1) := by
  obtain ⟨g, rfl⟩ : ∃ g, fuel = g + 2 + 1 := ⟨fuel - 3, by omega⟩
  have hl := (spells_atom hsp).2.2
  rw [chain, run_bind_ok toks (primary_atom (by omega) hs hsp)]
  exact chainTail_stop toks _ (by omega) hstop.1 (fun hk => by simpa [hl] using hstop.2.1 hk)

theorem unary_atom {fuel : Nat} (hf : 4 ≤ fuel) {s : String} (hs : Value.atomReads s = true)
    {line : Nat} (hsp : Spells toks i (atLine line (Seg.lexemes [Value.atomSeg s])))
    (hstop : StopsChain toks (i + 1) line (Seg.lexemes [Value.atomSeg s])) :
    unary fuel toks i = .ok (.const (.number (Value.atomValue s)), i + 1) := by
  obtain ⟨g, rfl⟩ : ∃ g, fuel = g + 1 := ⟨fuel - 1, by omega⟩
  exact unary_chain (atom_not_sign hsp).1 (atom_not_sign hsp).2
    (chain_atom (by omega) hs hsp hstop)

end UnaryForms

theorem unary_step {f : Nat} (hunary : UnaryReads f) (hchain : ChainReads f) :
    UnaryReads (f + 1) := by
  intro e toks i line hp hs hstop hfuel
  -- a negation and a number are written as themselves; anything else as an operand
  have plain : (∀ inner, e ≠ .not inner) → (∀ n, e ≠ .const (.number n)) →
      unary (f + 1) toks i = .ok (e.reread, i + (Seg.lexemes (e.segs false)).length) := by
    intro h1 h2
    rw [segs_false_eq_operandSegs h1 h2] at hs hstop hfuel ⊢
    obtain ⟨k, t, rest, hhd, hmem⟩ := operandSegs_head e
    have hk : (tokenAt toks i).kind = k := by
      rw [hhd] at hs
      exact (spells_atLine_cons.mp hs).1.1
    have hk1 : k ≠ .char '!' := by rintro rfl; simp [operandStarts] at hmem
    have hk2 : k ≠ .char '-' := by rintro rfl; simp [operandStarts] at hmem
    exact unary_chain (hk ▸ hk1) (hk ▸ hk2) (hchain e toks i line hp hs hstop (by omega))
  cases e with
  | not inner =>
    simp only [segs, Seg.lexemes_sym, atLine_cons, spells_cons, List.length_cons] at hs hstop hfuel ⊢
    obtain ⟨⟨hk, -, -⟩, hrest⟩ := hs
    have hstop' : StopsChain toks (i + 1 + (Seg.lexemes (inner.segs false)).length) line
        (Seg.lexemes (inner.segs false)) :=
      StopsChain.of_append (a := [(.char '!', '!'.toString)])
        (by rw [← Nat.add_comm 1, ← Nat.add_assoc] at hstop; exact hstop)
    rw [unary_not hk (hunary inner toks (i + 1) line hp hrest hstop' (by omega))]
    simp only [reread]
    congr 2
    omega
  | const v =>
    cases v with
    | number n =>
      simp only [printable, Value.readsBack] at hp
      simp only [reread, Value.reread]
      simp only [segs, Value.segs] at hs hstop hfuel ⊢
      rcases Value.numberSegs_cases (Value.formatNumber n) with ⟨r, hsegs, hval, hreads⟩ |
        ⟨hsegs, hval, hreads⟩
      · -- `-` before an unsigned number
        rw [hsegs] at hs hstop hfuel ⊢
        rw [hreads] at hp
        simp only [Seg.lexemes_sym, atLine_cons, spells_cons, List.length_cons] at hs hstop hfuel ⊢
        obtain ⟨⟨hk, -, -⟩, hrest⟩ := hs
        have hone : (Seg.lexemes [Value.atomSeg r]).length = 1 := by
          simp [Value.lexemes_atomSeg]
        rw [hone] at hstop hfuel ⊢
        have hstop' : StopsChain toks (i + 1 + 1) line (Seg.lexemes [Value.atomSeg r]) :=
          StopsChain.of_append (a := [(.char '-', '-'.toString)]) hstop
        rw [unary_neg hk (unary_atom (by omega) hp hrest hstop'), hval]
      · rw [hsegs] at hs hstop hfuel ⊢
        rw [hreads] at hp
        have hone : (Seg.lexemes [Value.atomSeg (Value.formatNumber n)]).length = 1 := by
          simp [Value.lexemes_atomSeg]
        rw [hone] at hstop ⊢
        rw [unary_atom (by omega) hp hs hstop, hval]
    | _ => exact plain (by simp) (by simp)
  | _ => exact plain (by simp) (by simp)

section SumForms

variable {toks : Array Token} {j : Nat}

theorem additiveTail_plus {f : Nat} (a : Expr) (hk : (tokenAt toks j).kind = .char '+')
    {b : Expr} {k : Nat} (hb : unary f toks (j + 1) = .ok (b, k)) :
    additiveTail (f + 1) a toks j = additiveTail f (.binary .add a b) toks k := by
  have h1 : ((tokenAt toks j).kind == .char '+' || (tokenAt toks j).kind == .char '-') = true := by
    rw [hk]; decide
  have h2 : ((tokenAt toks j).kind == .char '-') = false := by rw [hk]; decide
  rw [additiveTail, run_bind_ok toks (peek_run toks j)]
  simp only [h1, if_true]
  rw [run_bind_ok toks (discard_next_run toks (by rw [hk]; decide)), run_bind_ok toks hb]
  simp only [h2, Bool.false_eq_true, if_false]

theorem additiveTail_minus {f : Nat} (a : Expr) (hk : (tokenAt toks j).kind = .char '-')
    {x : Float} {k : Nat} (hb : unary f toks (j + 1) = .ok (.const (.number x), k)) :
    additiveTail (f + 1) a toks j = additiveTail f (.binary .add a (.const (.number (-x)))) toks k := by
  have h1 : ((tokenAt toks j).kind == .char '+' || (tokenAt toks j).kind == .char '-') = true := by
    rw [hk]; decide
  rw [additiveTail, run_bind_ok toks (peek_run toks j)]
  simp only [h1, if_true]
  rw [run_bind_ok toks (discard_next_run toks (by rw [hk]; decide)), run_bind_ok toks hb]
  simp only [hk, beq_self_eq_true, if_true]
  rfl

theorem equalityTail_eq {f : Nat} (a : Expr) (hk : (tokenAt toks j).kind = .eqEq) {b : Expr}
    {k : Nat} (hb : additive f toks (j + 1) = .ok (b, k)) :
    equalityTail (f + 1) a toks j = equalityTail f (.binary .eq a b) toks k := by
  rw [equalityTail, run_bind_ok toks (atKind_run toks .eqEq j)]
  simp only [hk, beq_self_eq_true, if_true]
  rw [run_bind_ok toks (discard_next_run toks (by rw [hk]; decide)), run_bind_ok toks hb]

end SumForms

theorem addend_step {f : Nat} (hunary : UnaryReads f) : AddendReads (f + 1) := by
  intro a b toks j line hp hs hstop hfuel
  rcases addend_cases b with ⟨n, -, hsegs, hre, hpr, hnum⟩ | ⟨hsegs, hre, hpr⟩
  · -- `- n` for a negative number
    rw [hsegs, hnum] at hs hstop hfuel ⊢
    rw [hpr] at hp
    simp only [Seg.lexemes_space, Seg.lexemes_sym, List.cons_append, List.nil_append,
      atLine_cons, spells_cons] at hs hstop
    simp only [Seg.lexemes_space, Seg.lexemes_sym, List.cons_append, List.nil_append,
      List.length_cons] at hfuel ⊢
    obtain ⟨⟨hk, -, -⟩, hrest⟩ := hs
    have hb := hunary (.const (.number (-n))) toks (j + 1) line hp hrest
      ((StopsSum.of_append (a := [(.char '-', '-'.toString)]) hstop).1.of_eq (by simp; omega))
      (by omega)
    simp only [reread, Value.reread] at hb
    have hend := hstop.of_eq (k := j + 1 + (Seg.lexemes ((Expr.const (.number (-n))).segs false)).length)
      (by simp; omega)
    rw [additiveTail_minus a hk hb, hre, additiveTail_stop toks _ (by omega) hend.2.1 hend.2.2]
    congr 2
    omega
  · -- `+ b`
    rw [hsegs] at hs hstop hfuel ⊢
    rw [hpr] at hp
    simp only [Seg.lexemes_space, Seg.lexemes_sym, List.cons_append, List.nil_append,
      atLine_cons, spells_cons] at hs hstop
    simp only [Seg.lexemes_space, Seg.lexemes_sym, List.cons_append, List.nil_append,
      List.length_cons] at hfuel ⊢
    obtain ⟨⟨hk, -, -⟩, hrest⟩ := hs
    have hb := hunary b toks (j + 1) line hp hrest
      ((StopsSum.of_append (a := [(.char '+', '+'.toString)]) hstop).1.of_eq (by simp; omega))
      (by omega)
    have hend := hstop.of_eq (k := j + 1 + (Seg.lexemes (b.segs false)).length) (by simp; omega)
    rw [additiveTail_plus a hk hb, hre, additiveTail_stop toks _ (by omega) hend.2.1 hend.2.2]
    congr 2
    omega


/-- An operand before the right operand of a sum is followed by `+` or `-`. -/
theorem addendSegs_first {toks : Array Token} {j line : Nat} {b : Expr}
    (h : Spells toks j (atLine line (Seg.lexemes (addendSegs b)))) :
    (tokenAt toks j).kind = .char '+' ∨ (tokenAt toks j).kind = .char '-' := by
  rcases addend_cases b with ⟨n, -, hsegs, -⟩ | ⟨hsegs, -⟩ <;>
  · rw [hsegs] at h
    simp only [Seg.lexemes_space, Seg.lexemes_sym, List.cons_append, List.nil_append,
      atLine_cons, spells_cons] at h
    simp [h.1.1]

theorem additive_step {f : Nat} (hunary : UnaryReads f) (haddend : AddendReads f) :
    AdditiveReads (f + 1) := by
  intro e top toks i line htop hp hs hstop hfuel
  cases top with
  | false =>
    have hne := List.length_pos_iff.mpr (lexemes_segs_ne_nil e false)
    rw [additive, run_bind_ok toks (hunary e toks i line hp hs hstop.chain (by omega)),
      additiveTail_stop toks _ (by omega) hstop.2.1 hstop.2.2]
  | true =>
    -- a sum at the top: its left operand, then the right one after `+` or `-`
    obtain ⟨a, b, rfl⟩ := htop rfl
    rw [printable_add, Bool.and_eq_true] at hp
    rw [segs_add, Seg.lexemes_append] at hs hstop hfuel ⊢
    obtain ⟨hsa, hsb⟩ := spells_atLine_append.mp hs
    have hne := List.length_pos_iff.mpr (lexemes_segs_ne_nil a false)
    have hnb := List.length_pos_iff.mpr (lexemes_addendSegs_ne_nil b)
    simp only [List.length_append] at hfuel hstop ⊢
    have hsign := addendSegs_first hsb
    have ha := hunary a toks i line hp.1 hsa
      (by rcases hsign with h | h <;> exact stopsChain_of_char h (by decide)) (by omega)
    rw [additive, run_bind_ok toks ha, haddend a.reread b toks _ line hp.2 hsb
      (hstop.of_append.of_eq (by omega)) (by omega), reread_add, Nat.add_assoc]

theorem comparand_step {f : Nat} (hadd : AdditiveReads f) : ComparandReads (f + 1) := by
  intro a b toks j line hp hs hstop hfuel
  rw [atLine_cons, spells_cons] at hs
  obtain ⟨⟨hk, -, -⟩, hrest⟩ := hs
  have hne := List.length_pos_iff.mpr (lexemes_segs_ne_nil b false)
  have hb := hadd b false toks (j + 1) line (fun h => absurd h (by decide)) hp hrest hstop.sum
    (by omega)
  rw [equalityTail_eq a hk hb, equalityTail_stop toks _ (by omega) hstop.2]

theorem expr_step {f : Nat} (hadd : AdditiveReads f) (hcomp : ComparandReads f) :
    ExprReads (f + 1) := by
  intro e toks i line hp hs hstop hfuel
  have hne := List.length_pos_iff.mpr (lexemes_segs_ne_nil e true)
  -- a comparison at the top: its left operand, then `==` and the right one
  have hcompare : ∀ a b, e = .binary .eq a b →
      expr (f + 1) toks i = .ok (e.reread, i + (Seg.lexemes (e.segs true)).length) := by
    rintro a b rfl
    rw [printable_eq, Bool.and_eq_true] at hp
    rw [segs_eq] at hs hstop hfuel ⊢
    simp only [Seg.lexemes_append, Seg.lexemes_space, Seg.lexemes_tok, List.nil_append,
      List.append_assoc, List.cons_append] at hs hstop hfuel ⊢
    obtain ⟨hsa, hsb⟩ := spells_atLine_append.mp hs
    have hna := List.length_pos_iff.mpr (lexemes_segs_ne_nil a false)
    simp only [List.length_append, List.length_cons] at hfuel hstop ⊢
    have heq : (tokenAt toks (i + (Seg.lexemes (a.segs false)).length)).kind = .eqEq := by
      rw [atLine_cons, spells_cons] at hsb
      exact hsb.1.1
    have ha := hadd a false toks i line (fun h => absurd h (by decide)) hp.1 hsa
      (stopsSum_of_eqEq heq) (by omega)
    have hstop' : StopsExpr toks (i + (Seg.lexemes (a.segs false)).length + 1 +
        (Seg.lexemes (b.segs false)).length) line (Seg.lexemes (b.segs false)) :=
      (StopsExpr.of_append (a := Seg.lexemes (a.segs false) ++ [(.eqEq, "==")])
        (by rw [List.append_assoc, List.singleton_append]; exact hstop)).of_eq (by omega)
    rw [expr, run_bind_ok toks ha, hcomp a.reread b toks _ line hp.2 hsb hstop' (by omega),
      reread_eq]
    congr 2
    omega
  cases e with
  | binary op a b =>
    cases op with
    | eq => exact hcompare a b rfl
    | add =>
      rw [expr, run_bind_ok toks (hadd _ true toks i line (fun _ => ⟨a, b, rfl⟩) hp hs hstop.sum
        (by omega)), equalityTail_stop toks _ (by omega) hstop.2]
  | _ =>
    rw [segs_of_not_binary (by simp)] at hs hstop hfuel hne ⊢
    rw [expr, run_bind_ok toks (hadd _ false toks i line (fun h => absurd h (by decide)) hp hs
      hstop.sum (by omega)), equalityTail_stop toks _ (by omega) hstop.2]

/-- Every level of the reader reads the printed form of what it reads, at a fuel. -/
structure Reads (fuel : Nat) : Prop where
  primary : PrimaryReads fuel
  chainTail : ChainTailReads fuel
  chain : ChainReads fuel
  unary : UnaryReads fuel
  addend : AddendReads fuel
  additive : AdditiveReads fuel
  comparand : ComparandReads fuel
  expr : ExprReads fuel

/-- With no fuel nothing is read, and nothing needs to be: every printed form has a token. -/
theorem reads_zero : Reads 0 where
  primary h _ _ _ _ _ _ hfuel := by
    have := List.length_pos_iff.mpr (lexemes_operandSegs_ne_nil h)
    omega
  chainTail ns e _ _ _ _ _ _ _ _ hfuel := by
    have := length_accesses ns
    obtain rfl : ns = [] := List.eq_nil_of_length_eq_zero (by omega)
    rfl
  chain e _ _ _ _ _ _ hfuel := by
    have := List.length_pos_iff.mpr (lexemes_operandSegs_ne_nil e)
    omega
  unary e _ _ _ _ _ _ hfuel := by
    have := List.length_pos_iff.mpr (lexemes_segs_ne_nil e false)
    omega
  addend _ b _ _ _ _ _ _ hfuel := by
    have := List.length_pos_iff.mpr (lexemes_addendSegs_ne_nil b)
    omega
  additive e top _ _ _ _ _ _ _ hfuel := by
    have := List.length_pos_iff.mpr (lexemes_segs_ne_nil e top)
    omega
  comparand _ _ _ _ _ _ _ _ hfuel := by omega
  expr e _ _ _ _ _ _ hfuel := by
    have := List.length_pos_iff.mpr (lexemes_segs_ne_nil e true)
    omega

/-- One more unit of fuel: each level from the levels below it. -/
theorem Reads.succ {f : Nat} (ih : ∀ m ≤ f, Reads m) : Reads (f + 1) :=
  have h := ih f (Nat.le_refl f)
  { primary := primary_step fun m hm => (ih m hm).expr
    chainTail := chainTail_step h.expr h.chainTail
    chain := chain_step h.primary h.chainTail
    unary := unary_step h.unary h.chain
    addend := addend_step h.unary
    additive := additive_step h.unary h.addend
    comparand := comparand_step h.additive
    expr := expr_step h.additive h.comparand }

theorem reads_upto (fuel : Nat) : ∀ m ≤ fuel, Reads m := by
  induction fuel with
  | zero =>
    intro m hm
    obtain rfl : m = 0 := by omega
    exact reads_zero
  | succ f ih =>
    intro m hm
    rcases Nat.lt_or_eq_of_le hm with hlt | rfl
    · exact ih m (by omega)
    · exact Reads.succ ih

/-- The reader reads every level at every fuel. -/
theorem reads (fuel : Nat) : Reads fuel := reads_upto fuel fuel (Nat.le_refl fuel)

end Program.Parsing

end TraceSynth
