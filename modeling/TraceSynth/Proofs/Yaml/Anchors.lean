import TraceSynth.Input.Parse
import Mathlib.Data.List.Basic

/-!
# Anchored nodes lie within the document

The reader registers an anchor when its node begins and records the node when the node ends.
This module proves that every document it returns is well formed: each anchored node is a node
of the document's tree, and each alias of the tree names a recorded node. Following aliases
therefore never leaves the nodes of the tree, and a tree has as many nodes as its size.

The argument is one invariant of the reader's runs (`Records`): from one state to the next, the
nodes recorded before stay as they were, and each node recorded since lies within one of the
nodes the run returns. Every function of the grammar keeps it (`reader_builds`, by induction
on the fuel), and the root of the document gathers all of them.

Equality of nodes is decided structurally (`Node.beq`), so a document the reader returns can be
compared with a given one by evaluation.

## Main results

* `Node.length_subterms`: a tree has as many nodes as its size;
* `Document.parse_wellFormed`: a document the reader returns is well formed.
-/

namespace TraceSynth.Yaml

namespace Node

mutual

/-- The nodes of a tree: the node itself, then the nodes of its items, or of its keys and
values, in order. -/
def subterms : Node → List Node
  | .scalar tag text plain line => [.scalar tag text plain line]
  | .alias name id line => [.alias name id line]
  | .sequence tag items line => .sequence tag items line :: listSubterms items
  | .mapping tag entries line => .mapping tag entries line :: entriesSubterms entries

/-- The nodes of a list of trees. -/
def listSubterms : List Node → List Node
  | [] => []
  | n :: rest => subterms n ++ listSubterms rest

/-- The nodes of a list of pairs of trees. -/
def entriesSubterms : List (Node × Node) → List Node
  | [] => []
  | (k, v) :: rest => subterms k ++ subterms v ++ entriesSubterms rest

end

mutual

/-- A tree has as many nodes as its size. -/
theorem length_subterms : ∀ n : Node, n.subterms.length = n.size
  | .scalar .. | .alias .. => rfl
  | .sequence _ items _ => by
    simp only [subterms, size, List.length_cons, length_listSubterms items]
    omega
  | .mapping _ entries _ => by
    simp only [subterms, size, List.length_cons, length_entriesSubterms entries]
    omega

theorem length_listSubterms : ∀ items : List Node, (listSubterms items).length = listSize items
  | [] => rfl
  | n :: rest => by
    simp only [listSubterms, listSize, List.length_append, length_subterms n,
      length_listSubterms rest]

theorem length_entriesSubterms :
    ∀ entries : List (Node × Node), (entriesSubterms entries).length = entriesSize entries
  | [] => rfl
  | (k, v) :: rest => by
    simp only [entriesSubterms, entriesSize, List.length_append, length_subterms k,
      length_subterms v, length_entriesSubterms rest]

end

@[simp] theorem mem_subterms_self (n : Node) : n ∈ n.subterms := by
  cases n <;> simp [subterms]

theorem mem_listSubterms {x : Node} :
    ∀ {items : List Node}, x ∈ listSubterms items ↔ ∃ i ∈ items, x ∈ i.subterms
  | [] => by simp [listSubterms]
  | n :: rest => by simp [listSubterms, mem_listSubterms]

theorem mem_entriesSubterms {x : Node} :
    ∀ {entries : List (Node × Node)},
      x ∈ entriesSubterms entries ↔ ∃ e ∈ entries, x ∈ e.1.subterms ∨ x ∈ e.2.subterms
  | [] => by simp [entriesSubterms]
  | (k, v) :: rest => by simp [entriesSubterms, mem_entriesSubterms, or_assoc]

@[simp] theorem mem_sequence_subterms {x : Node} {tag : String} {items : List Node}
    {line : Nat} :
    x ∈ (Node.sequence tag items line).subterms ↔
      x = .sequence tag items line ∨ ∃ i ∈ items, x ∈ i.subterms := by
  simp [subterms, mem_listSubterms]

@[simp] theorem mem_mapping_subterms {x : Node} {tag : String} {entries : List (Node × Node)}
    {line : Nat} :
    x ∈ (Node.mapping tag entries line).subterms ↔
      x = .mapping tag entries line ∨ ∃ e ∈ entries, x ∈ e.1.subterms ∨ x ∈ e.2.subterms := by
  simp [subterms, mem_entriesSubterms]

@[simp] theorem mem_scalar_subterms {x : Node} {tag text : String} {plain : Bool} {line : Nat} :
    x ∈ (Node.scalar tag text plain line).subterms ↔ x = .scalar tag text plain line := by
  simp [subterms]

@[simp] theorem mem_alias_subterms {x : Node} {name : String} {id line : Nat} :
    x ∈ (Node.alias name id line).subterms ↔ x = .alias name id line := by
  simp [subterms]

mutual

/-- A node of a node of a tree is a node of the tree. -/
theorem subterms_trans {x m : Node} : ∀ {n : Node}, x ∈ m.subterms → m ∈ n.subterms →
    x ∈ n.subterms
  | .scalar .., hx, hm | .alias .., hx, hm => by
    simp only [mem_scalar_subterms, mem_alias_subterms] at hm
    subst hm
    exact hx
  | .sequence tag items line, hx, hm => by
    simp only [subterms, List.mem_cons] at hm ⊢
    rcases hm with rfl | hm
    · simpa only [subterms, List.mem_cons] using hx
    · exact .inr (listSubterms_trans hx hm)
  | .mapping tag entries line, hx, hm => by
    simp only [subterms, List.mem_cons] at hm ⊢
    rcases hm with rfl | hm
    · simpa only [subterms, List.mem_cons] using hx
    · exact .inr (entriesSubterms_trans hx hm)

theorem listSubterms_trans {x m : Node} : ∀ {items : List Node}, x ∈ m.subterms →
    m ∈ listSubterms items → x ∈ listSubterms items
  | [], _, hm => by simp [listSubterms] at hm
  | n :: rest, hx, hm => by
    simp only [listSubterms, List.mem_append] at hm ⊢
    rcases hm with hm | hm
    · exact .inl (subterms_trans hx hm)
    · exact .inr (listSubterms_trans hx hm)

theorem entriesSubterms_trans {x m : Node} : ∀ {entries : List (Node × Node)}, x ∈ m.subterms →
    m ∈ entriesSubterms entries → x ∈ entriesSubterms entries
  | [], _, hm => by simp [entriesSubterms] at hm
  | (k, v) :: rest, hx, hm => by
    simp only [entriesSubterms, List.mem_append] at hm ⊢
    rcases hm with (hm | hm) | hm
    · exact .inl (.inl (subterms_trans hx hm))
    · exact .inl (.inr (subterms_trans hx hm))
    · exact .inr (entriesSubterms_trans hx hm)

end

/-- The nodes of a list of pairs, each key before its value. -/
def pairNodes (entries : List (Node × Node)) : List Node := entries.flatMap fun e => [e.1, e.2]

@[simp] theorem pairNodes_nil : pairNodes [] = [] := rfl

@[simp] theorem pairNodes_cons (e : Node × Node) (rest : List (Node × Node)) :
    pairNodes (e :: rest) = e.1 :: e.2 :: pairNodes rest := rfl

theorem mem_pairNodes {x : Node} {entries : List (Node × Node)} :
    x ∈ pairNodes entries ↔ ∃ e ∈ entries, x = e.1 ∨ x = e.2 := by
  simp [pairNodes]

/-! ### Deciding equality of nodes -/

mutual

/-- Structural equality of nodes. -/
def beq : Node → Node → Bool
  | .scalar t x p l, .scalar t' x' p' l' => t == t' && x == x' && p == p' && l == l'
  | .sequence t items l, .sequence t' items' l' => t == t' && listBeq items items' && l == l'
  | .mapping t entries l, .mapping t' entries' l' =>
    t == t' && entriesBeq entries entries' && l == l'
  | .alias n i l, .alias n' i' l' => n == n' && i == i' && l == l'
  | _, _ => false

/-- Structural equality of lists of nodes. -/
def listBeq : List Node → List Node → Bool
  | [], [] => true
  | a :: as, b :: bs => beq a b && listBeq as bs
  | _, _ => false

/-- Structural equality of lists of pairs of nodes. -/
def entriesBeq : List (Node × Node) → List (Node × Node) → Bool
  | [], [] => true
  | (k, v) :: es, (k', v') :: es' => beq k k' && beq v v' && entriesBeq es es'
  | _, _ => false

end

mutual

theorem eq_of_beq {a b : Node} (h : beq a b = true) : a = b := by
  cases a <;> cases b <;> simp only [beq, Bool.and_eq_true, beq_iff_eq, Bool.false_eq_true] at h
  case scalar.scalar =>
    obtain ⟨⟨⟨rfl, rfl⟩, rfl⟩, rfl⟩ := h
    rfl
  case sequence.sequence =>
    obtain ⟨⟨rfl, h⟩, rfl⟩ := h
    rw [eq_of_listBeq h]
  case mapping.mapping =>
    obtain ⟨⟨rfl, h⟩, rfl⟩ := h
    rw [eq_of_entriesBeq h]
  case alias.alias =>
    obtain ⟨⟨rfl, rfl⟩, rfl⟩ := h
    rfl

theorem eq_of_listBeq {as bs : List Node} (h : listBeq as bs = true) : as = bs := by
  cases as <;> cases bs <;> simp only [listBeq, Bool.and_eq_true, Bool.false_eq_true] at h
  case nil.nil => rfl
  case cons.cons => rw [eq_of_beq h.1, eq_of_listBeq h.2]

theorem eq_of_entriesBeq {es es' : List (Node × Node)} (h : entriesBeq es es' = true) :
    es = es' := by
  cases es <;> cases es' <;> simp only [entriesBeq, Bool.and_eq_true, Bool.false_eq_true] at h
  case nil.nil => rfl
  case cons.cons =>
    obtain ⟨⟨hk, hv⟩, h⟩ := h
    rw [Prod.ext (eq_of_beq hk) (eq_of_beq hv), eq_of_entriesBeq h]

end

mutual

theorem beq_self : ∀ a : Node, beq a a = true
  | .scalar .. | .alias .. => by simp [beq]
  | .sequence _ items _ => by simp [beq, listBeq_self items]
  | .mapping _ entries _ => by simp [beq, entriesBeq_self entries]

theorem listBeq_self : ∀ as : List Node, listBeq as as = true
  | [] => rfl
  | a :: as => by simp [listBeq, beq_self a, listBeq_self as]

theorem entriesBeq_self : ∀ es : List (Node × Node), entriesBeq es es = true
  | [] => rfl
  | (k, v) :: es => by simp [entriesBeq, beq_self k, beq_self v, entriesBeq_self es]

end

/-- Equality of nodes is decided by comparing them structurally, so a document the reader
returns can be compared by evaluation. -/
instance : DecidableEq Node := fun a b =>
  decidable_of_iff (beq a b = true) ⟨eq_of_beq, fun h => h ▸ beq_self a⟩

end Node

deriving instance DecidableEq for Document

/-- From the anchored nodes `A` to `A'` the reader recorded only nodes within `ns`: the nodes of
`A` stay as they were, each node recorded since is a node of one of `ns`, and every alias
within `ns` names one of `A'`. -/
structure Records (A A' : Array Node) (ns : List Node) : Prop where
  size_le : A.size ≤ A'.size
  keep : ∀ i, i < A.size → A'[i]? = A[i]?
  within : ∀ i a, A.size ≤ i → A'[i]? = some a → ∃ n ∈ ns, a ∈ n.subterms
  aliases : ∀ n ∈ ns, ∀ name id line, Node.alias name id line ∈ n.subterms → id < A'.size

namespace Records

variable {A B C : Array Node} {ns ms : List Node}

theorem nil (A : Array Node) : Records A A [] :=
  ⟨Nat.le_refl _, fun _ _ => rfl,
    fun _ _ h hi => absurd (Array.getElem?_eq_none h) (by simp [hi]),
    fun _ h => absurd h List.not_mem_nil⟩

theorem trans (h₁ : Records A B ns) (h₂ : Records B C ms) : Records A C (ns ++ ms) where
  size_le := Nat.le_trans h₁.size_le h₂.size_le
  keep i hi := (h₂.keep i (Nat.lt_of_lt_of_le hi h₁.size_le)).trans (h₁.keep i hi)
  within i a hi ha := by
    by_cases hB : i < B.size
    · obtain ⟨n, hn, hx⟩ := h₁.within i a hi ((h₂.keep i hB).symm.trans ha)
      exact ⟨n, List.mem_append_left _ hn, hx⟩
    · obtain ⟨n, hn, hx⟩ := h₂.within i a (Nat.le_of_not_lt hB) ha
      exact ⟨n, List.mem_append_right _ hn, hx⟩
  aliases n hn name id line hx := by
    rcases List.mem_append.1 hn with hn | hn
    · exact Nat.lt_of_lt_of_le (h₁.aliases n hn name id line hx) h₂.size_le
    · exact h₂.aliases n hn name id line hx

/-- A node without aliases records nothing. -/
theorem scalar (A : Array Node) (tag text : String) (plain : Bool) (line : Nat) :
    Records A A [.scalar tag text plain line] where
  size_le := Nat.le_refl _
  keep _ _ := rfl
  within _ _ h hi := absurd (Array.getElem?_eq_none h) (by simp [hi])
  aliases n hn name id line hx := by simp_all

/-- An alias to a recorded node records nothing. -/
theorem alias_node {name : String} {id line : Nat} (h : id < A.size) :
    Records A A [.alias name id line] where
  size_le := Nat.le_refl _
  keep _ _ := rfl
  within _ _ h hi := absurd (Array.getElem?_eq_none h) (by simp [hi])
  aliases n hn name' id' line' hx := by
    simp only [List.mem_singleton] at hn
    subst hn
    simp only [Node.mem_alias_subterms, Node.alias.injEq] at hx
    exact hx.2.1 ▸ h

/-- What the items of a sequence record, the sequence records. -/
theorem sequence {tag : String} {items : List Node} {line : Nat} (h : Records A B (items ++ ns)) :
    Records A B (.sequence tag items line :: ns) where
  size_le := h.size_le
  keep := h.keep
  within i a hi ha := by
    obtain ⟨n, hn, hx⟩ := h.within i a hi ha
    rcases List.mem_append.1 hn with hn | hn
    · exact ⟨_, List.mem_cons_self, Node.mem_sequence_subterms.2 (.inr ⟨n, hn, hx⟩)⟩
    · exact ⟨n, List.mem_cons_of_mem _ hn, hx⟩
  aliases m hm name id line' hx := by
    rcases List.mem_cons.1 hm with rfl | hm
    · rcases Node.mem_sequence_subterms.1 hx with hx | ⟨n, hn, hx⟩
      · cases hx
      · exact h.aliases n (List.mem_append_left _ hn) name id line' hx
    · exact h.aliases m (List.mem_append_right _ hm) name id line' hx

/-- What the keys and values of a mapping record, the mapping records. -/
theorem mapping {tag : String} {entries : List (Node × Node)} {line : Nat}
    (h : Records A B (Node.pairNodes entries ++ ns)) :
    Records A B (.mapping tag entries line :: ns) where
  size_le := h.size_le
  keep := h.keep
  within i a hi ha := by
    obtain ⟨n, hn, hx⟩ := h.within i a hi ha
    rcases List.mem_append.1 hn with hn | hn
    · obtain ⟨e, he, rfl | rfl⟩ := Node.mem_pairNodes.1 hn
      · exact ⟨_, List.mem_cons_self, Node.mem_mapping_subterms.2 (.inr ⟨e, he, .inl hx⟩)⟩
      · exact ⟨_, List.mem_cons_self, Node.mem_mapping_subterms.2 (.inr ⟨e, he, .inr hx⟩)⟩
    · exact ⟨n, List.mem_cons_of_mem _ hn, hx⟩
  aliases m hm name id line' hx := by
    have key {n : Node} (hn : n ∈ Node.pairNodes entries) :=
      h.aliases n (List.mem_append_left _ hn) name id line'
    rcases List.mem_cons.1 hm with rfl | hm
    · rcases Node.mem_mapping_subterms.1 hx with hx | ⟨e, he, hx | hx⟩
      · cases hx
      · exact key (Node.mem_pairNodes.2 ⟨e, he, .inl rfl⟩) hx
      · exact key (Node.mem_pairNodes.2 ⟨e, he, .inr rfl⟩) hx
    · exact h.aliases m (List.mem_append_right _ hm) name id line' hx

/-- A node whose anchor was reserved at the end of `A` is recorded in its place. -/
theorem close {p n : Node} (h : Records (A.push p) B [n]) :
    Records A (B.set! A.size n) [n] := by
  have hsize : A.size < B.size := by
    have := h.size_le
    simp only [Array.size_push] at this
    omega
  refine ⟨?_, fun i hi => ?_, fun i a hi ha => ?_, fun m hm name id line hx => ?_⟩
  · simp only [Array.set!_eq_setIfInBounds, Array.size_setIfInBounds]
    exact Nat.le_of_lt hsize
  · rw [Array.set!_eq_setIfInBounds, Array.getElem?_setIfInBounds_ne (Nat.ne_of_gt hi),
      h.keep i (by simp; omega), Array.getElem?_push, if_neg (Nat.ne_of_lt hi)]
  · rw [Array.set!_eq_setIfInBounds, Array.getElem?_setIfInBounds] at ha
    by_cases hi' : A.size = i
    · simp only [hi', if_true] at ha
      rw [← hi', if_pos hsize] at ha
      cases ha
      exact ⟨_, List.mem_singleton_self _, Node.mem_subterms_self _⟩
    · rw [if_neg hi'] at ha
      exact h.within i a (by simp; omega) ha
  · rw [Array.set!_eq_setIfInBounds, Array.size_setIfInBounds]
    exact h.aliases m hm name id line hx

end Records

namespace Reader

/-- The anchor table names only recorded nodes. -/
def Sound (r : Reader) : Prop := ∀ p ∈ r.anchors, p.2 < r.anchored.size

section Steps

variable {α β : Type} {r r' : Reader}

theorem bind_ok {m : ReadM α} {f : α → ReadM β} {b : β} (h : (m >>= f) r = .ok (b, r')) :
    ∃ a r₁, m r = .ok (a, r₁) ∧ f a r₁ = .ok (b, r') := by
  change (do let p ← m r; f p.1 p.2) = _ at h
  cases hm : m r with
  | error e => rw [hm] at h; cases h
  | ok p => rw [hm] at h; exact ⟨p.1, p.2, rfl, h⟩

theorem pure_ok {a b : α} (h : (pure a : ReadM α) r = .ok (b, r')) : b = a ∧ r' = r := by
  cases h
  exact ⟨rfl, rfl⟩

theorem failAt_ne_ok {c m : Mark} {problem : String} {a : α} :
    failAt c problem m r ≠ .ok (a, r') := by
  intro h
  cases h

theorem tooDeep_ne_ok {a : α} : (tooDeep : ReadM α) r ≠ .ok (a, r') := by
  intro h
  cases h

/-- A computation that leaves the anchor table and the anchored nodes as they were. -/
def Frame (m : ReadM α) : Prop :=
  ∀ r a r', m r = .ok (a, r') → r'.anchored = r.anchored ∧ r'.anchors = r.anchors

namespace Frame

theorem of_pure (a : α) : Frame (pure a : ReadM α) := by
  intro r b r' h
  obtain ⟨-, rfl⟩ := pure_ok h
  exact ⟨rfl, rfl⟩

theorem bind {m : ReadM α} {f : α → ReadM β} (hm : Frame m) (hf : ∀ a, Frame (f a)) :
    Frame (m >>= f) := by
  intro r b r' h
  obtain ⟨a, r₁, h₁, h₂⟩ := bind_ok h
  obtain ⟨ha₁, hn₁⟩ := hm r a r₁ h₁
  obtain ⟨ha₂, hn₂⟩ := hf a r₁ b r' h₂
  exact ⟨ha₂.trans ha₁, hn₂.trans hn₁⟩

theorem of_lex (m : LexM α) : Frame (lex m) := by
  intro r a r' h
  unfold lex at h
  change (do let p ← m r.lexer; pure (p.1, { r with lexer := p.2 })) = _ at h
  cases hm : m r.lexer with
  | error e => rw [hm] at h; cases h
  | ok p => rw [hm] at h; cases h; exact ⟨rfl, rfl⟩

theorem peek : Frame Reader.peek := of_lex _

theorem skip : Frame Reader.skip := of_lex _

theorem pushMark (m : Mark) : Frame (Reader.pushMark m) := by
  intro r a r' h
  cases h
  exact ⟨rfl, rfl⟩

theorem popMark : Frame Reader.popMark := by
  intro r a r' h
  unfold Reader.popMark at h
  obtain ⟨s, r₁, hget, h⟩ := bind_ok h
  cases hget
  cases hm : r.marks with
  | nil => rw [hm] at h; cases h; exact ⟨rfl, rfl⟩
  | cons m rest => rw [hm] at h; cases h; exact ⟨rfl, rfl⟩

theorem get : Frame (MonadState.get : ReadM Reader) := by
  intro r a r' h
  cases h
  exact ⟨rfl, rfl⟩

theorem failAt (c : Mark) (problem : String) (m : Mark) :
    Frame (Reader.failAt c problem m : ReadM α) :=
  fun _ _ _ h => absurd h failAt_ne_ok

theorem properties (t : Token) : Frame (Reader.properties t) := by
  unfold Reader.properties
  split
  · refine bind skip fun _ => bind peek fun t₂ => ?_
    split
    · exact bind skip fun _ => bind peek fun _ => of_pure _
    · exact of_pure _
  · refine bind skip fun _ => bind peek fun t₂ => ?_
    split
    · exact bind skip fun _ => bind peek fun _ => of_pure _
    · exact of_pure _
  · exact of_pure _

theorem tagText (start : Mark) (written : Option (String × String × Mark)) :
    Frame (Reader.tagText start written) := by
  unfold Reader.tagText
  split
  · exact of_pure _
  · split
    · exact of_pure _
    · refine bind get fun r => ?_
      split
      · split
        · exact failAt _ _ _
        · exact of_pure _
      · exact failAt _ _ _

theorem ite {c : Prop} [Decidable c] {x y : ReadM α} (hx : Frame x) (hy : Frame y) :
    Frame (if c then x else y) := by
  split
  · exact hx
  · exact hy

theorem tooDeep : Frame (Reader.tooDeep : ReadM α) :=
  fun _ _ _ h => absurd h tooDeep_ne_ok

theorem modify {f : Reader → Reader}
    (hf : ∀ r, (f r).anchored = r.anchored ∧ (f r).anchors = r.anchors) :
    Frame (MonadState.modifyGet fun r => ((), f r) : ReadM Unit) := by
  intro r a r' h
  cases h
  exact hf r

theorem documentEnd : Frame Reader.documentEnd := by
  unfold Reader.documentEnd
  exact bind peek fun _ => ite skip (of_pure _)

/-- Directives set tag handles only. -/
theorem directives (fuel : Nat) : ∀ versionSeen, Frame (Reader.directives fuel versionSeen) := by
  induction fuel with
  | zero => exact fun _ => tooDeep
  | succ fuel ih =>
    intro versionSeen
    rw [Reader.directives]
    refine bind peek fun t => ?_
    split
    · exact ite (failAt _ _ _) (ite (failAt _ _ _) (bind skip fun _ => ih _))
    · refine bind get fun _ => ite (failAt _ _ _) ?_
      exact bind (modify fun _ => ⟨rfl, rfl⟩) fun _ => bind skip fun _ => ih _
    · exact modify fun _ => ⟨rfl, rfl⟩

/-- A frame keeps the anchor table sound. -/
theorem sound {m : ReadM α} {a : α} (hm : Frame m) (h : m r = .ok (a, r')) (hs : r.Sound) :
    r'.Sound := by
  obtain ⟨ha, hn⟩ := hm r a r' h
  intro p hp
  rw [ha]
  exact hs p (hn ▸ hp)

end Frame

/-- Every successful run of `m` from a sound reader, returning `a` in `r'`, has `P A a r'`, where
`A` are the anchored nodes it started from. -/
def Runs (P : Array Node → α → Reader → Prop) (m : ReadM α) : Prop :=
  ∀ r a r', m r = .ok (a, r') → r.Sound → P r.anchored a r'

namespace Runs

variable {P : Array Node → β → Reader → Prop}

theorem frame_bind {m : ReadM α} {f : α → ReadM β} (hm : Frame m) (hf : ∀ a, Runs P (f a)) :
    Runs P (m >>= f) := by
  intro r b r' h hs
  obtain ⟨a, r₁, h₁, h₂⟩ := bind_ok h
  have := hf a r₁ b r' h₂ (hm.sound h₁ hs)
  rwa [(hm r a r₁ h₁).1] at this

theorem ite {c : Prop} [Decidable c] {x y : ReadM β} (hx : Runs P x) (hy : Runs P y) :
    Runs P (if c then x else y) := by
  split
  · exact hx
  · exact hy

theorem failAt (c : Mark) (problem : String) (m : Mark) : Runs P (Reader.failAt c problem m) :=
  fun _ _ _ h => absurd h failAt_ne_ok

theorem tooDeep : Runs P Reader.tooDeep :=
  fun _ _ _ h => absurd h tooDeep_ne_ok

end Runs

namespace Built

/-- The run ended sound, having recorded only nodes within the node `n` it returned. -/
def node (A : Array Node) (n : Node) (r' : Reader) : Prop :=
  r'.Sound ∧ Records A r'.anchored [n]

/-- The run ended sound, having extended the list `acc`, kept in reverse, by elements whose
nodes (`nodes`) hold all it recorded. -/
def list {β : Type} (nodes : β → List Node) (acc : List β) (A : Array Node) (l : List β)
    (r' : Reader) : Prop :=
  r'.Sound ∧ ∃ new, l = acc.reverse ++ new ∧ Records A r'.anchored (new.flatMap nodes)

/-- After the key of an element was read, the run ended sound, having extended the list `acc`,
kept in reverse, by the element `mk v` for a value `v` it read and by more elements, recording
only within `v` and the nodes of those elements. -/
def after {β : Type} (nodes : β → List Node) (mk : Node → β) (acc : List β) (A : Array Node)
    (l : List β) (r' : Reader) : Prop :=
  r'.Sound ∧ ∃ v new, l = acc.reverse ++ mk v :: new ∧
    Records A r'.anchored (v :: new.flatMap nodes)

/-- The run built a node and handed it to the join point `j`, which returned `x` in `r'`. -/
def into {γ : Type} (j : Node → ReadM γ) (A : Array Node) (x : γ) (r' : Reader) : Prop :=
  ∃ n r₁, node A n r₁ ∧ j n r₁ = .ok (x, r')

/-- The run ended sound, having recorded only nodes within the root it returned, if any. -/
def document (A : Array Node) (root : Option Node) (r' : Reader) : Prop :=
  r'.Sound ∧ Records A r'.anchored root.toList

end Built

/-- The nodes of an item of a sequence. -/
abbrev single (n : Node) : List Node := [n]

/-- The nodes of a pair of a mapping. -/
abbrev pair (e : Node × Node) : List Node := [e.1, e.2]

theorem openAnchor_none : openAnchor none r = .ok (none, r) := rfl

theorem openAnchor_some (name : String) :
    openAnchor (some name) r = .ok (some r.anchored.size,
      { r with anchored := r.anchored.push (.empty 0),
               anchors := (name, r.anchored.size) :: r.anchors }) := rfl

theorem closeAnchor_none (n : Node) : closeAnchor none n r = .ok (n, r) := rfl

theorem closeAnchor_some (i : Nat) (n : Node) :
    closeAnchor (some i) n r = .ok (n, { r with anchored := r.anchored.set! i n }) := rfl

/-- A scalar read from a token records nothing. -/
theorem records_scalarNode (A : Array Node) (tag text : String) (style : ScalarStyle)
    (line : Nat) : Records A A [scalarNode tag text style line] := by
  unfold scalarNode
  split
  · exact Records.scalar _ _ _ _ _
  · split
    · exact Records.scalar _ _ _ _ _
    · split <;> exact Records.scalar _ _ _ _ _

namespace Runs

theorem scalar_node (tag text : String) (plain : Bool) (line : Nat) :
    Runs Built.node (pure (Node.scalar tag text plain line)) := by
  intro r n r' h hs
  obtain ⟨rfl, rfl⟩ := pure_ok h
  exact ⟨hs, Records.scalar _ _ _ _ _⟩

theorem empty (line : Nat) : Runs Built.node (pure (Node.empty line)) :=
  scalar_node _ _ _ _

/-- A node `g a` built by `m` and handed to the join point `j`. -/
theorem into_bind {m : ReadM α} {g : α → Node} {j : Node → ReadM γ}
    (hm : Runs (fun A a r' => Built.node A (g a) r') m) :
    Runs (Built.into j) (m >>= fun a => j (g a)) := by
  intro r x r' h hs
  obtain ⟨a, r₁, h₁, h₂⟩ := bind_ok h
  exact ⟨g a, r₁, hm r a r₁ h₁ hs, h₂⟩

theorem into_node {m : ReadM Node} {j : Node → ReadM γ} (hm : Runs Built.node m) :
    Runs (Built.into j) (m >>= j) :=
  into_bind (g := id) hm

/-- A node without aliases handed to the join point `j` right away. -/
theorem into_leaf {n : Node} {j : Node → ReadM γ} (hn : ∀ A, Records A A [n]) :
    Runs (Built.into j) (j n) :=
  fun r _ _ h hs => ⟨n, r, ⟨hs, hn _⟩, h⟩

/-- An item built and handed to `j`, which goes on with it in the list. -/
theorem item_into {M : ReadM (List Node)} {j : Node → ReadM (List Node)} {acc : List Node}
    (hM : Runs (Built.into j) M) (hj : ∀ x, Runs (Built.list single (x :: acc)) (j x)) :
    Runs (Built.list single acc) M := by
  intro r l r' h hs
  obtain ⟨x, r₁, ⟨hs₁, hx⟩, hjx⟩ := hM r l r' h hs
  obtain ⟨hs', new, rfl, hnew⟩ := hj x r₁ l r' hjx hs₁
  exact ⟨hs', x :: new, by simp, hx.trans hnew⟩

/-- A key built and handed to `j`, which reads its value and goes on with the element `mk` makes
of the two; the element's nodes hold what the key and the value recorded. -/
theorem key_into {nodes : β → List Node} (mk : Node → Node → β) {M : ReadM (List β)}
    {j : Node → ReadM (List β)} {acc : List β} (hM : Runs (Built.into j) M)
    (hj : ∀ k, Runs (Built.after nodes (mk k) acc) (j k))
    (hmk : ∀ k v rest A B, Records A B (k :: v :: rest) → Records A B (nodes (mk k v) ++ rest)) :
    Runs (Built.list nodes acc) M := by
  intro r l r' h hs
  obtain ⟨k, r₁, ⟨hs₁, hk⟩, hjk⟩ := hM r l r' h hs
  obtain ⟨hs', v, new, rfl, hnew⟩ := hj k r₁ l r' hjk hs₁
  exact ⟨hs', mk k v :: new, rfl, hmk k v _ _ _ (hk.trans hnew)⟩

/-- The value of an element built and handed to `j`, which goes on with the element. -/
theorem value_into {nodes : β → List Node} (mk : Node → β) {M : ReadM (List β)}
    {j : Node → ReadM (List β)} {acc : List β} (hM : Runs (Built.into j) M)
    (hj : ∀ v, Runs (Built.list nodes (mk v :: acc)) (j v)) :
    Runs (Built.after nodes mk acc) M := by
  intro r l r' h hs
  obtain ⟨v, r₁, ⟨hs₁, hv⟩, hjv⟩ := hM r l r' h hs
  obtain ⟨hs', new, rfl, hnew⟩ := hj v r₁ l r' hjv hs₁
  exact ⟨hs', v, new, by simp, hv.trans hnew⟩

theorem done {nodes : β → List Node} {acc : List β} :
    Runs (Built.list nodes acc) (pure acc.reverse) := by
  intro r l r' h hs
  obtain ⟨rfl, rfl⟩ := pure_ok h
  exact ⟨hs, [], by simp, Records.nil _⟩

/-- The items a run reads make a sequence. -/
theorem sequence {m : ReadM (List Node)} {tag : String} {line : Nat}
    (hm : Runs (Built.list single []) m) :
    Runs (fun A items r' => Built.node A (.sequence tag items line) r') m := by
  intro r l r' h hs
  obtain ⟨hs', new, rfl, hnew⟩ := hm r l r' h hs
  refine ⟨hs', Records.sequence ?_⟩
  simpa only [List.reverse_nil, List.nil_append, List.flatMap_singleton', List.append_nil]
    using hnew

/-- The pairs a run reads make a mapping. -/
theorem mapping {m : ReadM (List (Node × Node))} {tag : String} {line : Nat}
    (hm : Runs (Built.list pair []) m) :
    Runs (fun A entries r' => Built.node A (.mapping tag entries line) r') m := by
  intro r l r' h hs
  obtain ⟨hs', new, rfl, hnew⟩ := hm r l r' h hs
  refine ⟨hs', Records.mapping ?_⟩
  rw [List.append_nil]
  exact hnew

/-- A node whose anchor is reserved before its content is read and recorded after. -/
theorem reserved {anchor : Option String} {k : Option Nat → ReadM Node}
    (hk : ∀ id, Runs (Built.into (closeAnchor id)) (k id)) :
    Runs Built.node (openAnchor anchor >>= k) := by
  intro r n r' h hs
  obtain ⟨id, r₁, hopen, hrest⟩ := bind_ok h
  cases anchor with
  | none =>
    rw [openAnchor_none] at hopen
    cases hopen
    obtain ⟨n₀, r₂, hn₀, hclose⟩ := hk none r n r' hrest hs
    rw [closeAnchor_none] at hclose
    cases hclose
    exact hn₀
  | some name =>
    rw [openAnchor_some] at hopen
    cases hopen
    have hs₁ : Reader.Sound
        { r with anchored := r.anchored.push (.empty 0),
                 anchors := (name, r.anchored.size) :: r.anchors } := by
      intro p hp
      simp only [List.mem_cons] at hp
      rcases hp with rfl | hp
      · simp
      · simpa using Nat.lt_succ_of_lt (hs p hp)
    obtain ⟨n₀, r₂, ⟨hs₂, hn₀⟩, hclose⟩ := hk _ _ n r' hrest hs₁
    rw [closeAnchor_some] at hclose
    cases hclose
    refine ⟨?_, hn₀.close⟩
    intro p hp
    simpa [Array.set!_eq_setIfInBounds] using hs₂ p hp

end Runs

/-- What the runs of the grammar's functions build, at one fuel. -/
structure Builds (fuel : Nat) : Prop where
  node : ∀ block indentless, Runs Built.node (Reader.node fuel block indentless)
  block : ∀ acc, Runs (Built.list single acc) (Reader.blockEntries fuel acc)
  indentless : ∀ acc, Runs (Built.list single acc) (Reader.indentlessEntries fuel acc)
  blockMapping : ∀ acc, Runs (Built.list pair acc) (Reader.blockMappingEntries fuel acc)
  flowSequence : ∀ first acc,
    Runs (Built.list single acc) (Reader.flowSequenceEntries fuel first acc)
  flowMapping : ∀ first acc, Runs (Built.list pair acc) (Reader.flowMappingEntries fuel first acc)

namespace Builds

variable {fuel : Nat}

theorem blockEntries_succ (ih : Builds fuel) (acc : List Node) :
    Runs (Built.list single acc) (Reader.blockEntries (fuel + 1) acc) := by
  rw [Reader.blockEntries]
  refine Runs.frame_bind Frame.peek fun t => ?_
  split
  · refine Runs.frame_bind Frame.skip fun _ => Runs.frame_bind Frame.peek fun next => ?_
    exact Runs.item_into (Runs.ite (Runs.into_node (Runs.empty _)) (Runs.into_node (ih.node _ _)))
      fun x => ih.block (x :: acc)
  · exact Runs.frame_bind Frame.popMark fun _ => Runs.frame_bind Frame.skip fun _ => Runs.done
  · exact Runs.frame_bind Frame.popMark fun _ => Runs.failAt _ _ _

theorem indentlessEntries_succ (ih : Builds fuel) (acc : List Node) :
    Runs (Built.list single acc) (Reader.indentlessEntries (fuel + 1) acc) := by
  rw [Reader.indentlessEntries]
  refine Runs.frame_bind Frame.peek fun t => Runs.ite ?_ Runs.done
  refine Runs.frame_bind Frame.skip fun _ => Runs.frame_bind Frame.peek fun next => ?_
  exact Runs.item_into (Runs.ite (Runs.into_node (Runs.empty _)) (Runs.into_node (ih.node _ _)))
    fun x => ih.indentless (x :: acc)

theorem blockMappingEntries_succ (ih : Builds fuel) (acc : List (Node × Node)) :
    Runs (Built.list pair acc) (Reader.blockMappingEntries (fuel + 1) acc) := by
  rw [Reader.blockMappingEntries]
  refine Runs.frame_bind Frame.peek fun t => ?_
  split
  · refine Runs.frame_bind Frame.skip fun _ => Runs.frame_bind Frame.peek fun next => ?_
    refine Runs.key_into Prod.mk
      (Runs.ite (Runs.into_node (Runs.empty _)) (Runs.into_node (ih.node _ _)))
      (fun k => ?_) (fun _ _ _ _ _ h => h)
    refine Runs.frame_bind Frame.peek fun t => Runs.value_into (Prod.mk k)
      (Runs.ite ?_ (Runs.into_node (Runs.empty _))) fun v => ih.blockMapping _
    exact Runs.frame_bind Frame.skip fun _ => Runs.frame_bind Frame.peek fun _ =>
      Runs.ite (Runs.into_node (Runs.empty _)) (Runs.into_node (ih.node _ _))
  · exact Runs.frame_bind Frame.popMark fun _ => Runs.frame_bind Frame.skip fun _ => Runs.done
  · exact Runs.frame_bind Frame.popMark fun _ => Runs.failAt _ _ _

theorem flowSequenceEntries_succ (ih : Builds fuel) (first : Bool) (acc : List Node) :
    Runs (Built.list single acc) (Reader.flowSequenceEntries (fuel + 1) first acc) := by
  rw [Reader.flowSequenceEntries]
  refine Runs.frame_bind Frame.peek fun t => Runs.ite
    (Runs.frame_bind Frame.popMark fun _ => Runs.frame_bind Frame.skip fun _ => Runs.done) ?_
  extract_lets value entry
  -- the entry after the first is read once its separator is; a `key: value` pair is a
  -- mapping of one entry
  have hentry : ∀ t, Runs (Built.list single acc) (entry t) := by
    intro t
    refine Runs.ite ?_ (Runs.ite
      (Runs.frame_bind Frame.popMark fun _ => Runs.frame_bind Frame.skip fun _ => Runs.done)
      (Runs.item_into (Runs.into_node (ih.node _ _)) fun x => ih.flowSequence _ _))
    refine Runs.frame_bind Frame.skip fun _ => Runs.frame_bind Frame.peek fun next => ?_
    refine Runs.key_into (fun k v => Node.mapping "!!map" [(k, v)] k.line)
      (Runs.ite (Runs.frame_bind Frame.skip fun _ => Runs.into_node (Runs.empty _))
        (Runs.into_node (ih.node _ _)))
      (fun k => ?_) (fun _ _ _ _ _ h => Records.mapping h)
    refine Runs.frame_bind Frame.peek fun t => Runs.value_into _
      (Runs.ite ?_ (Runs.into_node (Runs.empty _))) fun v => ih.flowSequence _ _
    exact Runs.frame_bind Frame.skip fun _ => Runs.frame_bind Frame.peek fun _ =>
      Runs.ite (Runs.into_node (Runs.empty _)) (Runs.into_node (ih.node _ _))
  exact Runs.ite (Runs.frame_bind (Frame.of_pure _) hentry)
    (Runs.ite (Runs.frame_bind Frame.skip fun _ => Runs.frame_bind Frame.peek hentry)
      (Runs.frame_bind Frame.popMark fun _ => Runs.frame_bind (Frame.failAt _ _ _) hentry))

theorem flowMappingEntries_succ (ih : Builds fuel) (first : Bool) (acc : List (Node × Node)) :
    Runs (Built.list pair acc) (Reader.flowMappingEntries (fuel + 1) first acc) := by
  rw [Reader.flowMappingEntries]
  refine Runs.frame_bind Frame.peek fun t => Runs.ite
    (Runs.frame_bind Frame.popMark fun _ => Runs.frame_bind Frame.skip fun _ => Runs.done) ?_
  extract_lets value entry
  -- a key written without `:` stands with the empty value
  have hentry : ∀ t, Runs (Built.list pair acc) (entry t) := by
    intro t
    refine Runs.ite ?_ (Runs.ite
      (Runs.frame_bind Frame.popMark fun _ => Runs.frame_bind Frame.skip fun _ => Runs.done)
      (Runs.key_into Prod.mk (Runs.into_node (ih.node _ _)) (fun k => ?_)
        (fun _ _ _ _ _ h => h)))
    · refine Runs.frame_bind Frame.skip fun _ => Runs.frame_bind Frame.peek fun next => ?_
      refine Runs.key_into Prod.mk
        (Runs.ite (Runs.into_node (Runs.empty _)) (Runs.into_node (ih.node _ _)))
        (fun k => ?_) (fun _ _ _ _ _ h => h)
      refine Runs.frame_bind Frame.peek fun t => Runs.value_into (Prod.mk k)
        (Runs.ite ?_ (Runs.into_node (Runs.empty _))) fun v => ih.flowMapping _ _
      exact Runs.frame_bind Frame.skip fun _ => Runs.frame_bind Frame.peek fun _ =>
        Runs.ite (Runs.into_node (Runs.empty _)) (Runs.into_node (ih.node _ _))
    · refine Runs.value_into (Prod.mk k) (j := fun v => Reader.flowMappingEntries fuel false
        ((k, v) :: acc)) (Runs.frame_bind Frame.peek fun t => ?_) fun v => ih.flowMapping _ _
      exact Runs.into_leaf fun A => Records.scalar A _ _ _ _
  exact Runs.ite (Runs.frame_bind (Frame.of_pure _) hentry)
    (Runs.ite (Runs.frame_bind Frame.skip fun _ => Runs.frame_bind Frame.peek hentry)
      (Runs.frame_bind Frame.popMark fun _ => Runs.frame_bind (Frame.failAt _ _ _) hentry))

theorem contentless (anchor : Option String) (tag : String) (start : Mark) (t : Token) :
    Runs Built.node (Reader.contentless anchor tag start t) := by
  unfold Reader.contentless
  exact Runs.ite (Runs.reserved fun _ => Runs.into_leaf fun A => records_scalarNode A _ _ _ _)
    (Runs.failAt _ _ _)

theorem node_succ (ih : Builds fuel) (block indentless : Bool) :
    Runs Built.node (Reader.node (fuel + 1) block indentless) := by
  rw [Reader.node]
  refine Runs.frame_bind Frame.peek fun t => ?_
  split
  next _ name _ =>
    -- an alias names the node of the latest anchor of its name
    refine Runs.frame_bind Frame.skip fun _ => ?_
    intro r n r' h hs
    obtain ⟨s, r₁, hget, h⟩ := bind_ok h
    cases hget
    cases hid : List.lookup name r.anchors with
    | some id =>
      rw [hid] at h
      obtain ⟨rfl, rfl⟩ := pure_ok h
      obtain ⟨l₁, l₂, hl, -⟩ := List.lookup_eq_some_iff.mp hid
      exact ⟨hs, Records.alias_node (hs (name, id) (by simp [hl]))⟩
    | none =>
      rw [hid] at h
      obtain ⟨_, _, _, h⟩ := bind_ok h
      cases h
  · refine Runs.frame_bind (Frame.properties t) fun ⟨anchor, written, t'⟩ => ?_
    refine Runs.frame_bind (Frame.tagText _ _) fun tag => ?_
    refine Runs.ite (Runs.reserved fun _ => Runs.into_bind (Runs.sequence (ih.indentless []))) ?_
    -- a collection reserves its anchor, opens its mark and reads its entries
    split
    · exact Runs.frame_bind Frame.skip fun _ =>
        Runs.reserved fun _ => Runs.into_leaf fun A => records_scalarNode A _ _ _ _
    · exact Runs.reserved fun _ => Runs.frame_bind (Frame.pushMark _) fun _ =>
        Runs.frame_bind Frame.skip fun _ => Runs.into_bind (Runs.sequence (ih.flowSequence _ _))
    · exact Runs.reserved fun _ => Runs.frame_bind (Frame.pushMark _) fun _ =>
        Runs.frame_bind Frame.skip fun _ => Runs.into_bind (Runs.mapping (ih.flowMapping _ _))
    · exact Runs.ite (Runs.reserved fun _ => Runs.frame_bind (Frame.pushMark _) fun _ =>
        Runs.frame_bind Frame.skip fun _ => Runs.into_bind (Runs.sequence (ih.block _)))
        (contentless _ _ _ _)
    · exact Runs.ite (Runs.reserved fun _ => Runs.frame_bind (Frame.pushMark _) fun _ =>
        Runs.frame_bind Frame.skip fun _ => Runs.into_bind (Runs.mapping (ih.blockMapping _)))
        (contentless _ _ _ _)
    · exact contentless _ _ _ _

end Builds

/-- Every function of the grammar builds what it returns, at every fuel. -/
theorem reader_builds (fuel : Nat) : Builds fuel := by
  induction fuel with
  | zero =>
    exact ⟨fun _ _ => Runs.tooDeep, fun _ => Runs.tooDeep, fun _ => Runs.tooDeep,
      fun _ => Runs.tooDeep, fun _ _ => Runs.tooDeep, fun _ _ => Runs.tooDeep⟩
  | succ fuel ih =>
    exact ⟨ih.node_succ, ih.blockEntries_succ, ih.indentlessEntries_succ,
      ih.blockMappingEntries_succ, ih.flowSequenceEntries_succ, ih.flowMappingEntries_succ⟩


/-- The root a run reads, once the document's end is consumed, is the document's. -/
theorem Runs.document_root {M : ReadM Node} (hM : Runs Built.node M) :
    Runs Built.document (M >>= fun root => documentEnd >>= fun _ => pure (some root)) := by
  intro r o r' h hs
  obtain ⟨n, r₁, h₁, h₂⟩ := bind_ok h
  obtain ⟨hs₁, hn⟩ := hM r n r₁ h₁ hs
  obtain ⟨_, r₂, hend, hpure⟩ := bind_ok h₂
  obtain ⟨rfl, rfl⟩ := pure_ok hpure
  refine ⟨Frame.documentEnd.sound hend hs₁, ?_⟩
  rw [(Frame.documentEnd r₁ _ _ hend).1]
  exact hn

/-- The document a run reads, if any, holds every node the run recorded. -/
theorem document_builds (fuel : Nat) : Runs Built.document (document fuel) := by
  unfold document
  refine Runs.frame_bind Frame.skip fun _ => Runs.frame_bind Frame.peek fun t => ?_
  split
  case h_1 =>
    intro r o r' h hs
    obtain ⟨rfl, rfl⟩ := pure_ok h
    exact ⟨hs, Records.nil _⟩
  case h_5 =>
    exact Runs.frame_bind (Frame.directives _ _) fun _ =>
      Runs.document_root ((reader_builds fuel).node _ _)
  -- a directive or `---` opens an explicit document, whose root may be empty
  all_goals
    refine Runs.frame_bind (Frame.directives _ _) fun _ => Runs.frame_bind Frame.peek fun _ => ?_
    extract_lets root rest
    have hrest : ∀ u, Runs Built.document (rest u) := fun _ =>
      Runs.frame_bind Frame.skip fun _ => Runs.frame_bind Frame.peek fun _ =>
        Runs.ite (Runs.document_root (Runs.empty _))
          (Runs.document_root ((reader_builds fuel).node _ _))
    exact Runs.ite (Runs.frame_bind (Frame.failAt _ _ _) hrest) (hrest ())

end Steps

end Reader

namespace Document

/-- A well-formed document: each anchored node is a node of its tree, and each alias of the tree
names an anchored node. -/
structure WellFormed (doc : Document) : Prop where
  anchored_mem : ∀ (j : Nat) (a : Node), doc.anchored[j]? = some a →
    ∃ root ∈ doc.root, a ∈ root.subterms
  alias_lt : ∀ root ∈ doc.root, ∀ name id line,
    Node.alias name id line ∈ root.subterms → id < doc.anchored.size

theorem wellFormed_of_records {root : Option Node} {B : Array Node}
    (h : Records #[] B root.toList) : WellFormed { root, anchored := B } where
  anchored_mem j a ha := by
    obtain ⟨n, hn, hsub⟩ := h.within j a (Nat.zero_le _) ha
    exact ⟨n, Option.mem_toList.mp hn, hsub⟩
  alias_lt n hn name id line hmem := h.aliases n (Option.mem_toList.mpr hn) name id line hmem

/-- Every document the reader returns is well formed. -/
theorem parse_wellFormed {text : String} {doc : Document} (h : parse text = .ok doc) :
    doc.WellFormed := by
  unfold parse at h
  extract_lets cs result read refused at h
  clear_value read refused
  generalize hresult : result = res at h
  split at h
  · simp at h
  · rcases res with p | ⟨root, r⟩
    · simp at h
    · obtain rfl := Except.ok.inj h
      have hr := Reader.document_builds _ _ _ _ hresult fun _ hp => by cases hp
      exact wellFormed_of_records hr.2

end Document

end TraceSynth.Yaml
