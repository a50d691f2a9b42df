import TraceSynth.Proofs.Yaml.Anchors
import Mathlib.Data.Finset.Card
import Mathlib.Logic.Relation

/-!
# Reading an input ends on documents without alias cycles

An input is read from a YAML document by a recursion over its node graph, in which an alias is
read again as a copy of its anchored node. Without a bound, that recursion never ends on a
document with an alias inside the node it names, such as `[&a [1, *a]]`. `Input.valueOf`
bounds the depth by one more than the number of nodes of the document and reports such an
alias instead.

The reading works on the node graph a YAML reader returns: a tree of nodes with the anchored
nodes beside it, in which an alias names an anchored node by number, possibly one of its own
ancestors. This module states the unbounded recursion over any such graph as relations, `Reads`
for a node and `ReadsInput` for a whole input, and proves that the bound changes nothing where
the recursion ends.

## Main definitions

* `Input.Finished`: a result that the depth bound did not cut short;
* `Input.Reads`, `Input.ReadsItems`, `Input.ReadsEntries`: reading a node, the items of a
  sequence and the entries of a mapping with no bound on the depth;
* `Input.ReadsInput`, `Input.ParseReads`: reading an input from a node graph, and from a text,
  with no bound on the depth;
* `Yaml.Document.Next`, `Yaml.Document.Acyclic`: the nodes a reading of a node reads right
  away, and graphs in which no node leads back to itself.

## Main results

* `Input.reads_of_valueOf` and `Input.Reads.valueOf_eq`: a bounded reading that is not cut
  short is the unbounded one, and an unbounded reading is every bounded one deep enough; so the
  unbounded reading has one result (`Input.ReadsInput.det`);
* `Yaml.Document.RefersBack.acyclic`: anchors that refer only back make no alias cycle;
* `Input.valueOf_finished`: on a graph without alias cycles, reading a node with more depth than
  the nodes it reaches is never cut short;
* `Input.ofDocument_reads`: on every well-formed graph without alias cycles, the unbounded
  reading ends, and ends with what `Input.ofDocument` returns; `Input.parse_reads` is the same
  for the graph of a text;
* `Input.not_readsInput_selfReference`: a graph whose first argument is an anchored sequence
  holding an alias to itself, as in `[&a [1, *a]]`, has no unbounded reading.
-/

namespace TraceSynth

namespace Yaml

namespace Node

mutual

/-- One more than the largest anchor number an alias of the tree names; zero without
aliases. -/
def aliasBound : Node → Nat
  | .scalar .. => 0
  | .alias _ id _ => id + 1
  | .sequence _ items _ => listAliasBound items
  | .mapping _ entries _ => entriesAliasBound entries

/-- The largest `aliasBound` of a list of trees. -/
def listAliasBound : List Node → Nat
  | [] => 0
  | n :: rest => max n.aliasBound (listAliasBound rest)

/-- The largest `aliasBound` of the keys and values of a list of pairs of trees. -/
def entriesAliasBound : List (Node × Node) → Nat
  | [] => 0
  | (k, v) :: rest => max (max k.aliasBound v.aliasBound) (entriesAliasBound rest)

end

variable {m : Node}

/-- An item names no later anchor and has no more nodes than the items together. -/
theorem le_of_mem_items : ∀ {items : List Node}, m ∈ items →
    m.aliasBound ≤ listAliasBound items ∧ m.size ≤ listSize items
  | n :: rest, hm => by
    have := @le_of_mem_items rest
    simp only [List.mem_cons] at hm
    simp only [listAliasBound, listSize]
    rcases hm with rfl | hm
    · omega
    · have := this hm
      omega

/-- A value names no later anchor and has no more nodes than the entries together. -/
theorem le_of_mem_entries {k : Node} : ∀ {entries : List (Node × Node)}, (k, m) ∈ entries →
    m.aliasBound ≤ entriesAliasBound entries ∧ m.size ≤ entriesSize entries
  | (k', v) :: rest, hm => by
    have := @le_of_mem_entries k rest
    simp only [List.mem_cons, Prod.mk.injEq] at hm
    simp only [entriesAliasBound, entriesSize]
    rcases hm with ⟨rfl, rfl⟩ | hm
    · omega
    · have := this hm
      omega

mutual

/-- A node of a tree names no anchor the tree does not. -/
theorem aliasBound_le_of_mem : ∀ {n : Node}, m ∈ n.subterms → m.aliasBound ≤ n.aliasBound
  | .scalar .., hm | .alias .., hm => by
    simp only [mem_scalar_subterms, mem_alias_subterms] at hm
    subst hm
    exact le_rfl
  | .sequence _ items _, hm => by
    simp only [subterms, List.mem_cons] at hm
    rcases hm with rfl | hm
    · exact le_rfl
    · simpa only [aliasBound] using listAliasBound_le_of_mem hm
  | .mapping _ entries _, hm => by
    simp only [subterms, List.mem_cons] at hm
    rcases hm with rfl | hm
    · exact le_rfl
    · simpa only [aliasBound] using entriesAliasBound_le_of_mem hm

theorem listAliasBound_le_of_mem :
    ∀ {items : List Node}, m ∈ listSubterms items → m.aliasBound ≤ listAliasBound items
  | [], hm => by simp [listSubterms] at hm
  | n :: rest, hm => by
    simp only [listSubterms, List.mem_append] at hm
    simp only [listAliasBound]
    rcases hm with hm | hm
    · exact (aliasBound_le_of_mem hm).trans (le_max_left _ _)
    · exact (listAliasBound_le_of_mem hm).trans (le_max_right _ _)

theorem entriesAliasBound_le_of_mem :
    ∀ {entries : List (Node × Node)}, m ∈ entriesSubterms entries →
      m.aliasBound ≤ entriesAliasBound entries
  | [], hm => by simp [entriesSubterms] at hm
  | (k, v) :: rest, hm => by
    simp only [entriesSubterms, List.mem_append] at hm
    simp only [entriesAliasBound]
    rcases hm with (hm | hm) | hm
    · exact (aliasBound_le_of_mem hm).trans ((le_max_left _ _).trans (le_max_left _ _))
    · exact (aliasBound_le_of_mem hm).trans ((le_max_right _ _).trans (le_max_left _ _))
    · exact (entriesAliasBound_le_of_mem hm).trans (le_max_right _ _)

end

end Node

namespace Document

/-- A node graph is well formed when its anchored nodes are nodes of its tree and its tree names
no anchor past them: two facts that a given graph settles by evaluation. -/
theorem wellFormed_of_aliasBound {doc : Document} {root : Node} (hroot : doc.root = some root)
    (hmem : ∀ a ∈ doc.anchored.toList, a ∈ root.subterms)
    (hbound : root.aliasBound ≤ doc.anchored.size) : doc.WellFormed where
  anchored_mem _ a ha := ⟨root, hroot, hmem a (Array.mem_toList_iff.mpr (Array.mem_of_getElem? ha))⟩
  alias_lt root' hroot' _ id _ hm := by
    rw [hroot, Option.mem_some_iff] at hroot'
    subst hroot'
    have := Node.aliasBound_le_of_mem hm
    simp only [Node.aliasBound] at this
    omega

/-- `doc.Next m n`: reading `n` reads `m` right away. `m` is an item of a sequence, a value of
a mapping (a key is read only for its text), or the anchored node an alias names. -/
inductive Next (doc : Document) : Node → Node → Prop
  | item {tag : String} {items : List Node} {line : Nat} {m : Node} :
      m ∈ items → doc.Next m (.sequence tag items line)
  | value {tag : String} {entries : List (Node × Node)} {line : Nat} {k m : Node} :
      (k, m) ∈ entries → doc.Next m (.mapping tag entries line)
  | target {name : String} {id line : Nat} {m : Node} :
      doc.anchored[id]? = some m → doc.Next m (.alias name id line)

/-- No node leads back to itself: reading a node never reads it again within. -/
def Acyclic (doc : Document) : Prop := ∀ n, ¬ Relation.TransGen doc.Next n n

/-- Every alias inside an anchored node names an anchor numbered before that node. -/
def RefersBack (doc : Document) : Prop :=
  ∀ i (hi : i < doc.anchored.size), doc.anchored[i].aliasBound ≤ i

instance (doc : Document) : Decidable doc.RefersBack := by
  unfold RefersBack
  infer_instance

/-- A step of reading lowers the anchors the node names, or keeps them and lowers its size. -/
theorem RefersBack.next {doc : Document} (h : doc.RefersBack) {m n : Node} (hmn : doc.Next m n) :
    m.aliasBound ≤ n.aliasBound ∧ (m.aliasBound < n.aliasBound ∨ m.size < n.size) := by
  cases hmn with
  | item hm =>
    have := Node.le_of_mem_items hm
    simp only [Node.aliasBound, Node.size]
    omega
  | value hm =>
    have := Node.le_of_mem_entries hm
    simp only [Node.aliasBound, Node.size]
    omega
  | target hm =>
    obtain ⟨hi, rfl⟩ := Array.getElem?_eq_some_iff.mp hm
    have := h _ hi
    simp only [Node.aliasBound]
    omega

/-- Anchors that refer only back make a document without alias cycles. -/
theorem RefersBack.acyclic {doc : Document} (h : doc.RefersBack) : doc.Acyclic := by
  -- along a path, the pair (aliases named, size) decreases lexicographically
  have hpath : ∀ {m n : Node}, Relation.TransGen doc.Next m n →
      m.aliasBound ≤ n.aliasBound ∧ (m.aliasBound < n.aliasBound ∨ m.size < n.size) := by
    intro m n hmn
    induction hmn with
    | single hmn => exact h.next hmn
    | tail _ hbc ih =>
      have := h.next hbc
      omega
  intro n hn
  have := hpath hn
  omega

/-- Reading a node of a well-formed document reads only nodes of its tree. -/
theorem WellFormed.next_mem {doc : Document} (hwf : doc.WellFormed) {root m n : Node}
    (hroot : doc.root = some root) (hn : n ∈ root.subterms) (hmn : doc.Next m n) :
    m ∈ root.subterms := by
  cases hmn with
  | item hm =>
    refine Node.subterms_trans ?_ hn
    simp only [Node.mem_sequence_subterms]
    exact .inr ⟨m, hm, Node.mem_subterms_self m⟩
  | value hm =>
    refine Node.subterms_trans ?_ hn
    simp only [Node.mem_mapping_subterms]
    exact .inr ⟨_, hm, .inr (Node.mem_subterms_self m)⟩
  | target hm =>
    obtain ⟨root', hroot', hm'⟩ := hwf.anchored_mem _ _ hm
    rw [hroot, Option.mem_some_iff] at hroot'
    subst hroot'
    exact hm'

open Classical in
/-- The nodes of the tree `root` that a reading of `n` goes on to read. -/
noncomputable def reached (doc : Document) (root n : Node) : Finset Node :=
  root.subterms.toFinset.filter fun m => Relation.TransGen doc.Next m n

section Reached

open Classical

variable {doc : Document} {root : Node}

theorem card_reached_le (n : Node) : (doc.reached root n).card ≤ root.size :=
  calc (doc.reached root n).card ≤ root.subterms.toFinset.card := Finset.card_filter_le _ _
    _ ≤ root.subterms.length := List.toFinset_card_le _
    _ = root.size := Node.length_subterms root

/-- Without cycles, a node reaches fewer nodes than the node that reads it. -/
theorem card_reached_lt (hwf : doc.WellFormed) (hacyclic : doc.Acyclic)
    (hroot : doc.root = some root) {m n : Node} (hn : n ∈ root.subterms) (hmn : doc.Next m n) :
    (doc.reached root m).card < (doc.reached root n).card := by
  have hsub : doc.reached root m ⊆ doc.reached root n := by
    intro x hx
    simp only [reached, Finset.mem_filter] at hx ⊢
    exact ⟨hx.1, hx.2.tail hmn⟩
  refine Finset.card_lt_card ((Finset.ssubset_iff_of_subset hsub).mpr ⟨m, ?_, ?_⟩)
  · simp only [reached, Finset.mem_filter, List.mem_toFinset]
    exact ⟨hwf.next_mem hroot hn hmn, .single hmn⟩
  · simp only [reached, Finset.mem_filter, not_and]
    exact fun _ => hacyclic m

end Reached

end Document

end Yaml

namespace Input

open Yaml

/-- A result that the depth bound did not cut short. -/
def Finished {α : Type} (r : Except InputError α) : Prop :=
  ∀ anchor, r ≠ .error (.selfContaining anchor)

namespace Finished

variable {α β : Type}

theorem ok (a : α) : Finished (.ok a : Except InputError α) := by
  intro _ h
  cases h

theorem error {e : InputError} (h : Finished (.error e : Except InputError α)) :
    Finished (.error e : Except InputError β) := by
  intro anchor he
  cases he
  exact h anchor rfl

theorem bind {x : Except InputError α} {f : α → Except InputError β} (hx : Finished x)
    (hf : ∀ a, Finished (f a)) : Finished (x >>= f) := by
  cases x with
  | error e => exact hx.error
  | ok a => exact hf a

theorem map {x : Except InputError α} (f : α → β) (hx : Finished x) : Finished (x.map f) := by
  cases x with
  | error e => exact hx.error
  | ok a => exact ok _

theorem of_map {x : Except InputError α} {f : α → β} (h : Finished (x.map f)) : Finished x := by
  cases x with
  | error e => exact h.error
  | ok a => exact ok a

theorem of_bind {x : Except InputError α} {f : α → Except InputError β}
    (h : Finished (x >>= f)) : Finished x := by
  cases x with
  | error e => exact h.error
  | ok a => exact ok a

/-- A fold whose every step finishes finishes. -/
theorem foldlM {f : β → α → Except InputError β} (l : List α) :
    ∀ (b : β), (∀ b, ∀ a ∈ l, Finished (f b a)) → Finished (l.foldlM f b) := by
  induction l with
  | nil => exact fun b _ => ok b
  | cons a l ih =>
    intro b hf
    rw [List.foldlM_cons]
    exact bind (hf b a List.mem_cons_self) fun b' =>
      ih b' fun b'' a' ha' => hf b'' a' (List.mem_cons_of_mem _ ha')

end Finished

/-- A scalar's value, or why its text does not fit its tag, is never a depth problem. -/
theorem scalarValue_finished (tag text : String) (plain : Bool) :
    Finished (scalarValue tag text plain) := by
  intro anchor h
  unfold scalarValue at h
  repeat' split at h
  all_goals cases h

theorem storeEntry_finished (obj : Value) (key : Node) (v : Value) (h : Heap) :
    Finished (storeEntry obj key v h) := by
  unfold storeEntry
  split
  · split
    · exact Finished.ok _
    · intro _ h
      cases h
  · exact Finished.ok _

/-! ## Reading with no bound on the depth -/

mutual

/-- `Reads doc h n r`: reading the node `n` of `doc` in the heap `h`, with no bound on the
depth, ends with `r`. An alias is read again as the node it names; a sequence reads its items in
order and is allocated after them; a mapping is allocated before its values and stores each
under its key's text; a scalar is its value. -/
inductive Reads (doc : Document) : Heap → Node → Except InputError (Value × Heap) → Prop
  | alias {h : Heap} {name : String} {id line : Nat} {n : Node}
      {r : Except InputError (Value × Heap)} :
      doc.anchored[id]? = some n → Reads doc h n r → Reads doc h (.alias name id line) r
  | sequence {h : Heap} {tag : String} {items : List Node} {line : Nat}
      {r : Except InputError (Array Value × Heap)} :
      ReadsItems doc h #[] items r →
      Reads doc h (.sequence tag items line) (r.map fun p => p.2.newArray p.1.toList)
  | mapping {h h₀ : Heap} {obj : Value} {tag : String} {entries : List (Node × Node)}
      {line : Nat} {r : Except InputError Heap} :
      h.newObject = (obj, h₀) → ReadsEntries doc obj h₀ entries r →
      Reads doc h (.mapping tag entries line) (r.map fun h' => (obj, h'))
  | scalar {h : Heap} {tag text : String} {plain : Bool} {line : Nat} :
      Reads doc h (.scalar tag text plain line) ((scalarValue tag text plain).map fun v => (v, h))

/-- `ReadsItems doc h vals items r`: reading `items` in order after the values `vals`, stopping
at the first error, ends with `r`. -/
inductive ReadsItems (doc : Document) :
    Heap → Array Value → List Node → Except InputError (Array Value × Heap) → Prop
  | nil {h : Heap} {vals : Array Value} : ReadsItems doc h vals [] (.ok (vals, h))
  | cons {h h' : Heap} {vals : Array Value} {n : Node} {items : List Node} {v : Value}
      {r : Except InputError (Array Value × Heap)} :
      Reads doc h n (.ok (v, h')) → ReadsItems doc h' (vals.push v) items r →
      ReadsItems doc h vals (n :: items) r
  | error {h : Heap} {vals : Array Value} {n : Node} {items : List Node} {e : InputError} :
      Reads doc h n (.error e) → ReadsItems doc h vals (n :: items) (.error e)

/-- `ReadsEntries doc obj h entries r`: reading the values of `entries` in order and storing
each in the object `obj` under its key's text, stopping at the first error, ends with `r`. -/
inductive ReadsEntries (doc : Document) :
    Value → Heap → List (Node × Node) → Except InputError Heap → Prop
  | nil {obj : Value} {h : Heap} : ReadsEntries doc obj h [] (.ok h)
  | cons {obj : Value} {h h₁ h₂ : Heap} {k v : Node} {entries : List (Node × Node)} {x : Value}
      {r : Except InputError Heap} :
      Reads doc h v (.ok (x, h₁)) → storeEntry obj k x h₁ = .ok h₂ →
      ReadsEntries doc obj h₂ entries r → ReadsEntries doc obj h ((k, v) :: entries) r
  | refused {obj : Value} {h h₁ : Heap} {k v : Node} {entries : List (Node × Node)} {x : Value}
      {e : InputError} :
      Reads doc h v (.ok (x, h₁)) → storeEntry obj k x h₁ = .error e →
      ReadsEntries doc obj h ((k, v) :: entries) (.error e)
  | error {obj : Value} {h : Heap} {k v : Node} {entries : List (Node × Node)} {e : InputError} :
      Reads doc h v (.error e) → ReadsEntries doc obj h ((k, v) :: entries) (.error e)

end

/-- `ReadsInput doc r`: reading an input from the node graph `doc`, with no bound on the depth,
ends with `r`. Each item of the top-level sequence is an argument, read as the items of a
sequence are. -/
inductive ReadsInput (doc : Document) : Except InputError Input → Prop
  | empty : doc.root = none → ReadsInput doc (.ok {})
  | notSequence {root : Node} : doc.root = some root →
      (∀ tag items line, root ≠ .sequence tag items line) →
      ReadsInput doc (.error (.notSequence root.tag))
  | sequence {tag : String} {items : List Node} {line : Nat}
      {r : Except InputError (Array Value × Heap)} :
      doc.root = some (.sequence tag items line) → ReadsItems doc {} #[] items r →
      ReadsInput doc (r.map fun p => { heap := p.2, args := p.1.toList })

/-- `ParseReads text r`: reading an input from `text`, with no bound on the depth, ends with `r`:
the text is no YAML, or the reading of its node graph ends with `r`. -/
inductive ParseReads (text : String) : Except InputError Input → Prop
  | malformed {p : Problem} : Document.parse text = .error p →
      ParseReads text (.error (.malformed p))
  | reads {doc : Document} {r : Except InputError Input} : Document.parse text = .ok doc →
      ReadsInput doc r → ParseReads text r

/-! ## A reading not cut short is the unbounded one -/

section Bounded

variable {doc : Document}

@[simp] theorem ok_bind {α β : Type} (a : α) (f : α → Except InputError β) :
    (Except.ok a >>= f) = f a := rfl

@[simp] theorem error_bind {α β : Type} (e : InputError) (f : α → Except InputError β) :
    (Except.error e >>= f) = .error e := rfl

theorem bind_pure_eq_map {α β : Type} (x : Except InputError α) (f : α → β) :
    (x >>= fun a => pure (f a)) = x.map f := by
  cases x <;> rfl

section Equations

variable {via : String} {fuel : Nat} {h : Heap} {tag : String} {line : Nat}

/-- A sequence is allocated after its items are read. -/
theorem valueOf_sequence {items : List Node} :
    valueOf doc via (fuel + 1) h (.sequence tag items line) =
      (items.foldlM (readItem (valueOf doc via fuel)) (#[], h)).map
        fun p => p.2.newArray p.1.toList := by
  rw [valueOf]
  cases items.foldlM (readItem (valueOf doc via fuel)) (#[], h) <;> rfl

/-- A mapping is allocated before its values are read and stored. -/
theorem valueOf_mapping {entries : List (Node × Node)} {obj : Value} {h₀ : Heap}
    (hobj : h.newObject = (obj, h₀)) :
    valueOf doc via (fuel + 1) h (.mapping tag entries line) =
      (entries.foldlM (readEntry (valueOf doc via fuel) obj) h₀).map fun h' => (obj, h') := by
  rw [valueOf, hobj]
  dsimp only
  cases entries.foldlM (readEntry (valueOf doc via fuel) obj) h₀ <;> rfl

theorem valueOf_scalar {text : String} {plain : Bool} :
    valueOf doc via (fuel + 1) h (.scalar tag text plain line) =
      (scalarValue tag text plain).map fun v => (v, h) := by
  rw [valueOf, bind_pure_eq_map]

end Equations

variable {read : Heap → Node → Except InputError (Value × Heap)}

theorem readItem_of_ok (acc : Array Value × Heap) {n : Node} {v : Value} {h' : Heap}
    (hn : read acc.2 n = .ok (v, h')) : readItem read acc n = .ok (acc.1.push v, h') := by
  unfold readItem
  rw [hn]
  rfl

theorem readItem_of_error (acc : Array Value × Heap) {n : Node} {e : InputError}
    (hn : read acc.2 n = .error e) : readItem read acc n = .error e := by
  unfold readItem
  rw [hn]
  rfl

theorem readEntry_of_ok (obj : Value) (h : Heap) {k v : Node} {x : Value} {h₁ : Heap}
    (hv : read h v = .ok (x, h₁)) : readEntry read obj h (k, v) = storeEntry obj k x h₁ := by
  unfold readEntry
  rw [hv]
  rfl

theorem readEntry_of_error (obj : Value) (h : Heap) {k v : Node} {e : InputError}
    (hv : read h v = .error e) : readEntry read obj h (k, v) = .error e := by
  unfold readEntry
  rw [hv]
  rfl

/-- The items of a sequence, read by a reader that is the unbounded one wherever it finishes. -/
theorem readsItems_of_foldlM (hread : ∀ h n r, read h n = r → Finished r → Reads doc h n r) :
    ∀ (items : List Node) (vals : Array Value) (h : Heap) r,
      items.foldlM (readItem read) (vals, h) = r → Finished r → ReadsItems doc h vals items r
  | [], vals, h, r, hr, _ => by
    rw [List.foldlM_nil] at hr
    subst hr
    exact .nil
  | n :: items, vals, h, r, hr, hf => by
    rw [List.foldlM_cons] at hr
    rcases hn : read h n with e | ⟨v, h'⟩
    · rw [readItem_of_error (vals, h) hn, error_bind] at hr
      subst hr
      exact .error (hread h n _ hn hf.error)
    · rw [readItem_of_ok (vals, h) hn, ok_bind] at hr
      exact .cons (hread h n _ hn (Finished.ok _)) (readsItems_of_foldlM hread items _ _ r hr hf)

/-- The entries of a mapping, read by a reader that is the unbounded one wherever it
finishes. -/
theorem readsEntries_of_foldlM (hread : ∀ h n r, read h n = r → Finished r → Reads doc h n r)
    (obj : Value) :
    ∀ (entries : List (Node × Node)) (h : Heap) r,
      entries.foldlM (readEntry read obj) h = r → Finished r → ReadsEntries doc obj h entries r
  | [], h, r, hr, _ => by
    rw [List.foldlM_nil] at hr
    subst hr
    exact .nil
  | (k, v) :: entries, h, r, hr, hf => by
    rw [List.foldlM_cons] at hr
    rcases hv : read h v with e | ⟨x, h₁⟩
    · rw [readEntry_of_error obj h hv, error_bind] at hr
      subst hr
      exact .error (hread h v _ hv hf.error)
    · rw [readEntry_of_ok obj h hv] at hr
      have hx := hread h v _ hv (Finished.ok _)
      rcases hs : storeEntry obj k x h₁ with e | h₂
      · rw [hs, error_bind] at hr
        subst hr
        exact .refused hx hs
      · rw [hs, ok_bind] at hr
        exact .cons hx hs (readsEntries_of_foldlM hread obj entries h₂ r hr hf)

/-- A bounded reading that the bound did not cut short is the unbounded reading. -/
theorem reads_of_valueOf :
    ∀ (fuel : Nat) (via : String) (h : Heap) (n : Node) r,
      valueOf doc via fuel h n = r → Finished r → Reads doc h n r
  -- with no depth left the reading is cut short, which `Finished r` excludes
  | 0, via, _, _, r, hv, hf => absurd hv.symm (hf via)
  | fuel + 1, _, h, .alias name id line, r, hv, hf => by
    rw [valueOf] at hv
    cases hid : doc.anchored[id]? with
    | none =>
      rw [hid] at hv
      exact absurd hv.symm (hf name)
    | some n =>
      rw [hid] at hv
      exact .alias hid (reads_of_valueOf fuel name h n r hv hf)
  | fuel + 1, via, h, .sequence tag items line, r, hv, hf => by
    rw [valueOf_sequence] at hv
    subst hv
    exact .sequence (readsItems_of_foldlM (reads_of_valueOf fuel via) items #[] h _ rfl hf.of_map)
  | fuel + 1, via, h, .mapping tag entries line, r, hv, hf => by
    rcases hobj : h.newObject with ⟨obj, h₀⟩
    rw [valueOf_mapping hobj] at hv
    subst hv
    exact .mapping hobj
      (readsEntries_of_foldlM (reads_of_valueOf fuel via) obj entries h₀ _ rfl hf.of_map)
  | fuel + 1, _, h, .scalar tag text plain line, r, hv, _ => by
    rw [valueOf_scalar] at hv
    subst hv
    exact .scalar

/-! ## An unbounded reading is every bounded one deep enough -/

mutual

/-- An unbounded reading is what every reading with enough depth returns. -/
theorem Reads.valueOf_eq {h : Heap} {n : Node} {r : Except InputError (Value × Heap)} :
    Reads doc h n r → ∃ F, ∀ fuel, F ≤ fuel → ∀ via, valueOf doc via fuel h n = r
  | .alias hid hn => by
    obtain ⟨F, hF⟩ := hn.valueOf_eq
    refine ⟨F + 1, fun fuel hle via => ?_⟩
    obtain ⟨f, rfl⟩ : ∃ f, fuel = f + 1 := ⟨fuel - 1, by omega⟩
    rw [valueOf, hid]
    exact hF f (by omega) _
  | .sequence hitems => by
    obtain ⟨F, hF⟩ := hitems.foldlM_eq
    refine ⟨F + 1, fun fuel hle via => ?_⟩
    obtain ⟨f, rfl⟩ : ∃ f, fuel = f + 1 := ⟨fuel - 1, by omega⟩
    rw [valueOf_sequence, hF f (by omega) via]
  | .mapping hobj hentries => by
    obtain ⟨F, hF⟩ := hentries.foldlM_eq
    refine ⟨F + 1, fun fuel hle via => ?_⟩
    obtain ⟨f, rfl⟩ : ∃ f, fuel = f + 1 := ⟨fuel - 1, by omega⟩
    rw [valueOf_mapping hobj, hF f (by omega) via]
  | .scalar => by
    refine ⟨1, fun fuel hle via => ?_⟩
    obtain ⟨f, rfl⟩ : ∃ f, fuel = f + 1 := ⟨fuel - 1, by omega⟩
    exact valueOf_scalar

/-- The items of a sequence, read without bound, are what every reading deep enough gives. -/
theorem ReadsItems.foldlM_eq {h : Heap} {vals : Array Value} {items : List Node}
    {r : Except InputError (Array Value × Heap)} :
    ReadsItems doc h vals items r →
      ∃ F, ∀ fuel, F ≤ fuel → ∀ via,
        items.foldlM (readItem (valueOf doc via fuel)) (vals, h) = r
  | .nil => ⟨0, fun _ _ _ => rfl⟩
  | .cons hn hrest => by
    obtain ⟨F₁, hF₁⟩ := hn.valueOf_eq
    obtain ⟨F₂, hF₂⟩ := hrest.foldlM_eq
    refine ⟨max F₁ F₂, fun fuel hle via => ?_⟩
    rw [List.foldlM_cons, readItem_of_ok (vals, h) (hF₁ fuel (by omega) via), ok_bind]
    exact hF₂ fuel (by omega) via
  | .error hn => by
    obtain ⟨F, hF⟩ := hn.valueOf_eq
    refine ⟨F, fun fuel hle via => ?_⟩
    rw [List.foldlM_cons, readItem_of_error (vals, h) (hF fuel hle via), error_bind]

/-- The entries of a mapping, read without bound, are what every reading deep enough gives. -/
theorem ReadsEntries.foldlM_eq {obj : Value} {h : Heap} {entries : List (Node × Node)}
    {r : Except InputError Heap} :
    ReadsEntries doc obj h entries r →
      ∃ F, ∀ fuel, F ≤ fuel → ∀ via,
        entries.foldlM (readEntry (valueOf doc via fuel) obj) h = r
  | .nil => ⟨0, fun _ _ _ => rfl⟩
  | .cons hv hs hrest => by
    obtain ⟨F₁, hF₁⟩ := hv.valueOf_eq
    obtain ⟨F₂, hF₂⟩ := hrest.foldlM_eq
    refine ⟨max F₁ F₂, fun fuel hle via => ?_⟩
    rw [List.foldlM_cons, readEntry_of_ok obj h (hF₁ fuel (by omega) via), hs, ok_bind]
    exact hF₂ fuel (by omega) via
  | .refused hv hs => by
    obtain ⟨F, hF⟩ := hv.valueOf_eq
    refine ⟨F, fun fuel hle via => ?_⟩
    rw [List.foldlM_cons, readEntry_of_ok obj h (hF fuel hle via), hs, error_bind]
  | .error hv => by
    obtain ⟨F, hF⟩ := hv.valueOf_eq
    refine ⟨F, fun fuel hle via => ?_⟩
    rw [List.foldlM_cons, readEntry_of_error obj h (hF fuel hle via), error_bind]

end

mutual

/-- An unbounded reading never ends in a depth problem. -/
theorem Reads.finished {h : Heap} {n : Node} {r : Except InputError (Value × Heap)} :
    Reads doc h n r → Finished r
  | .alias _ hn => hn.finished
  | .sequence hitems => hitems.finished.map _
  | .mapping _ hentries => hentries.finished.map _
  | .scalar => (scalarValue_finished _ _ _).map _

theorem ReadsItems.finished {h : Heap} {vals : Array Value} {items : List Node}
    {r : Except InputError (Array Value × Heap)} : ReadsItems doc h vals items r → Finished r
  | .nil => Finished.ok _
  | .cons _ hrest => hrest.finished
  | .error hn => hn.finished.error

theorem ReadsEntries.finished {obj : Value} {h : Heap} {entries : List (Node × Node)}
    {r : Except InputError Heap} : ReadsEntries doc obj h entries r → Finished r
  | .nil => Finished.ok _
  | .cons _ _ hrest => hrest.finished
  | .refused _ hs => hs ▸ storeEntry_finished _ _ _ _
  | .error hv => hv.finished.error

end

/-- A node whose bounded readings are all cut short has no unbounded reading. -/
theorem not_reads_of_cut {h : Heap} {n : Node}
    (hn : ∀ fuel via, ¬ Finished (valueOf doc via fuel h n))
    {r : Except InputError (Value × Heap)} : ¬ Reads doc h n r := by
  intro hr
  obtain ⟨F, hF⟩ := hr.valueOf_eq
  apply hn F ""
  rw [hF F (Nat.le_refl F) ""]
  exact hr.finished

/-- An unbounded reading ends with one result. -/
theorem Reads.det {h : Heap} {n : Node} {r r' : Except InputError (Value × Heap)}
    (hr : Reads doc h n r) (hr' : Reads doc h n r') : r = r' := by
  obtain ⟨F, hF⟩ := hr.valueOf_eq
  obtain ⟨F', hF'⟩ := hr'.valueOf_eq
  rw [← hF (max F F') (Nat.le_max_left _ _) "", hF' (max F F') (Nat.le_max_right _ _) ""]

theorem ReadsItems.det {h : Heap} {vals : Array Value} {items : List Node}
    {r r' : Except InputError (Array Value × Heap)} (hr : ReadsItems doc h vals items r)
    (hr' : ReadsItems doc h vals items r') : r = r' := by
  obtain ⟨F, hF⟩ := hr.foldlM_eq
  obtain ⟨F', hF'⟩ := hr'.foldlM_eq
  rw [← hF (max F F') (Nat.le_max_left _ _) "", hF' (max F F') (Nat.le_max_right _ _) ""]

end Bounded

/-- Reading an input from a node graph with no bound on the depth ends with one result. -/
theorem ReadsInput.det {doc : Document} {r r' : Except InputError Input} (h : ReadsInput doc r)
    (h' : ReadsInput doc r') : r = r' := by
  -- both readings start from the same root
  cases h with
  | empty hroot =>
    cases h' with
    | empty => rfl
    | notSequence hroot' _ | sequence hroot' _ => cases hroot.symm.trans hroot'
  | notSequence hroot hne =>
    cases h' with
    | empty hroot' => cases hroot.symm.trans hroot'
    | notSequence hroot' _ =>
      cases hroot.symm.trans hroot'
      rfl
    | sequence hroot' _ =>
      cases hroot.symm.trans hroot'
      exact absurd rfl (hne _ _ _)
  | sequence hroot hitems =>
    cases h' with
    | empty hroot' => cases hroot.symm.trans hroot'
    | notSequence hroot' hne =>
      cases hroot.symm.trans hroot'
      exact absurd rfl (hne _ _ _)
    | sequence hroot' hitems' =>
      cases hroot.symm.trans hroot'
      rw [hitems.det hitems']

/-- Reading an input from a text with no bound on the depth ends with one result. -/
theorem ParseReads.det {text : String} {r r' : Except InputError Input} (h : ParseReads text r)
    (h' : ParseReads text r') : r = r' := by
  -- both readings see the same document
  cases h with
  | malformed hp =>
    cases h' with
    | malformed hp' =>
      cases hp.symm.trans hp'
      rfl
    | reads hd _ => cases hp.symm.trans hd
  | reads hd hr =>
    cases h' with
    | malformed hp => cases hd.symm.trans hp
    | reads hd' hr' =>
      cases hd.symm.trans hd'
      exact hr.det hr'

/-! ## Without alias cycles the depth bound is never reached -/

section Depth

variable {doc : Document} {read : Heap → Node → Except InputError (Value × Heap)}

theorem readItem_finished (acc : Array Value × Heap) {n : Node} (hn : Finished (read acc.2 n)) :
    Finished (readItem read acc n) := by
  unfold readItem
  exact Finished.bind hn fun _ => Finished.ok _

theorem readEntry_finished (obj : Value) (h : Heap) {e : Node × Node}
    (he : Finished (read h e.2)) : Finished (readEntry read obj h e) := by
  unfold readEntry
  exact Finished.bind he fun _ => storeEntry_finished _ _ _ _

/-- On a well-formed document without alias cycles, reading a node of the tree with more depth
than the nodes it reaches is never cut short. -/
theorem valueOf_finished {root : Node} (hwf : doc.WellFormed) (hacyclic : doc.Acyclic)
    (hroot : doc.root = some root) :
    ∀ (fuel : Nat) (n : Node), n ∈ root.subterms → (doc.reached root n).card < fuel →
      ∀ via h, Finished (valueOf doc via fuel h n)
  | 0, _, _, hlt, _, _ => absurd hlt (Nat.not_lt_zero _)
  | fuel + 1, .alias name id line, hn, hlt, _, h => by
    -- a well-formed document has the node the alias names
    have hid := hwf.alias_lt root hroot name id line hn
    have hm := Array.getElem?_eq_getElem hid
    have hnext : doc.Next doc.anchored[id] (.alias name id line) := .target hm
    have := Document.card_reached_lt hwf hacyclic hroot hn hnext
    rw [valueOf, hm]
    exact valueOf_finished hwf hacyclic hroot fuel _ (hwf.next_mem hroot hn hnext) (by omega) _ h
  | fuel + 1, .sequence tag items line, hn, hlt, via, h => by
    rw [valueOf_sequence]
    refine (Finished.foldlM _ _ fun acc m hm => ?_).map _
    have hnext : doc.Next m (.sequence tag items line) := .item hm
    have := Document.card_reached_lt hwf hacyclic hroot hn hnext
    exact readItem_finished acc
      (valueOf_finished hwf hacyclic hroot fuel m (hwf.next_mem hroot hn hnext) (by omega) _ _)
  | fuel + 1, .mapping tag entries line, hn, hlt, via, h => by
    rcases hobj : h.newObject with ⟨obj, h₀⟩
    rw [valueOf_mapping hobj]
    refine (Finished.foldlM _ _ fun h' e he => ?_).map _
    have hnext : doc.Next e.2 (.mapping tag entries line) := .value he
    have := Document.card_reached_lt hwf hacyclic hroot hn hnext
    exact readEntry_finished _ h'
      (valueOf_finished hwf hacyclic hroot fuel e.2 (hwf.next_mem hroot hn hnext) (by omega) _ _)
  | fuel + 1, .scalar tag text plain line, _, _, _, h => by
    rw [valueOf_scalar]
    exact (scalarValue_finished _ _ _).map _

end Depth

/-! ## Reading an input -/

theorem readArg_of_ok {read : Heap → Node → Except InputError (Value × Heap)} (i : Input)
    {n : Node} {v : Value} {h : Heap} (hn : read i.heap n = .ok (v, h)) :
    readArg read i n = .ok { heap := h, args := i.args ++ [v] } := by
  unfold readArg
  rw [hn]
  rfl

theorem readArg_of_error {read : Heap → Node → Except InputError (Value × Heap)} (i : Input)
    {n : Node} {e : InputError} (hn : read i.heap n = .error e) : readArg read i n = .error e := by
  unfold readArg
  rw [hn]
  rfl

/-- The arguments of an input are read as the items of a sequence are. -/
theorem foldlM_readArg (read : Heap → Node → Except InputError (Value × Heap)) :
    ∀ (items : List Node) (i : Input), items.foldlM (readArg read) i =
      (items.foldlM (readItem read) (i.args.toArray, i.heap)).map
        fun p => { heap := p.2, args := p.1.toList }
  | [], i => by
    simp only [List.foldlM_nil]
    rfl
  | n :: items, i => by
    rw [List.foldlM_cons, List.foldlM_cons]
    rcases hn : read i.heap n with e | ⟨v, h⟩
    · rw [readArg_of_error i hn, readItem_of_error (i.args.toArray, i.heap) hn, error_bind,
        error_bind]
      rfl
    · rw [readArg_of_ok i hn, readItem_of_ok (i.args.toArray, i.heap) hn, ok_bind, ok_bind,
        foldlM_readArg read items]
      simp

/-- On a well-formed node graph without alias cycles, the unbounded reading ends with what
`ofDocument` returns. -/
theorem readsInput_ofDocument {doc : Document} (hwf : doc.WellFormed) (hacyclic : doc.Acyclic) :
    ReadsInput doc (ofDocument doc) := by
  unfold ofDocument
  rcases hroot : doc.root with _ | root
  · exact .empty hroot
  cases root
  case sequence tag items line =>
    dsimp only
    rw [foldlM_readArg]
    -- each argument is read with more depth than the nodes it reaches
    have hfinished : ∀ acc, ∀ m ∈ items, Finished (readItem (valueOf doc ""
        ((Node.sequence tag items line).size + 1)) acc m) := by
      intro acc m hm
      have : (doc.reached (.sequence tag items line) m).card ≤
          (Node.sequence tag items line).size := Document.card_reached_le m
      refine readItem_finished acc (valueOf_finished hwf hacyclic hroot _ m ?_ ?_ _ _)
      · simp only [Node.mem_sequence_subterms]
        exact .inr ⟨m, hm, Node.mem_subterms_self m⟩
      · omega
    exact .sequence hroot (readsItems_of_foldlM (reads_of_valueOf _ _) items _ _ _ rfl
      (Finished.foldlM _ _ hfinished))
  all_goals exact .notSequence hroot fun _ _ _ h => by cases h

/-- On every well-formed node graph, whose aliases name anchored nodes of the tree, ancestors
included, and that has no alias cycle, reading an input with no bound on the depth ends, and ends
exactly with what `ofDocument` returns. -/
theorem ofDocument_reads (doc : Document) (hwf : doc.WellFormed) (hacyclic : doc.Acyclic) :
    ReadsInput doc (ofDocument doc) ∧ ∀ r, ReadsInput doc r → r = ofDocument doc := by
  have hreads := readsInput_ofDocument hwf hacyclic
  exact ⟨hreads, fun r hr => hr.det hreads⟩

/-- The node graph of `[&a [1], &b [*a], *b]`: aliases nested two deep, each naming an anchor
closed before it, are read to the end. -/
theorem ofDocument_reads_nestedAliases :
    let g : Document :=
      { root := some (.sequence "!!seq" [.sequence "!!seq" [.scalar "!!int" "1" true 1] 1,
          .sequence "!!seq" [.alias "a" 0 1] 1, .alias "b" 1 1] 1),
        anchored := #[.sequence "!!seq" [.scalar "!!int" "1" true 1] 1,
          .sequence "!!seq" [.alias "a" 0 1] 1] }
    g.WellFormed ∧ g.Acyclic ∧ ReadsInput g (ofDocument g) ∧
      ∀ r, ReadsInput g r → r = ofDocument g := by
  intro g
  have hwf : g.WellFormed := Document.wellFormed_of_aliasBound rfl (by decide) (by decide)
  have hacyclic : g.Acyclic := Document.RefersBack.acyclic (by decide)
  exact ⟨hwf, hacyclic, ofDocument_reads g hwf hacyclic⟩

/-- On every text whose node graph has no alias cycle, reading an input with no bound on the
depth ends, and ends exactly with what `parse` returns. -/
theorem parse_reads (text : String)
    (hacyclic : ∀ doc, Document.parse text = .ok doc → doc.Acyclic) :
    ParseReads text (parse text) ∧ ∀ r, ParseReads text r → r = parse text := by
  have hparse : ParseReads text (parse text) := by
    unfold parse
    rcases hdoc : Document.parse text with p | doc
    · exact .malformed hdoc
    · exact .reads hdoc
        (readsInput_ofDocument (Document.parse_wellFormed hdoc) (hacyclic doc hdoc))
  exact ⟨hparse, fun r hr => hr.det hparse⟩

/-! ## An alias inside the node it names -/

theorem Finished.of_readItem {read : Heap → Node → Except InputError (Value × Heap)}
    {acc : Array Value × Heap} {n : Node} (h : Finished (readItem read acc n)) :
    Finished (read acc.2 n) := by
  unfold readItem at h
  exact h.of_bind

/-- A sequence anchored as `id` whose items are a scalar with a value and then an alias to `id`
is read again within itself at every depth, so no bounded reading of it finishes. -/
theorem valueOf_selfReference {doc : Document} {id : Nat} {tag t x name : String} {p : Bool}
    {l₀ l₁ l₂ : Nat} (hv : ∃ v, scalarValue t x p = .ok v)
    (hA : doc.anchored[id]? = some (.sequence tag [.scalar t x p l₀, .alias name id l₁] l₂)) :
    ∀ fuel via h, ¬ Finished
      (valueOf doc via fuel h (.sequence tag [.scalar t x p l₀, .alias name id l₁] l₂))
  | 0, via, _ => fun hf => hf via rfl
  | 1, via, _ => by
    intro hf
    rw [valueOf_sequence] at hf
    have hitems := hf.of_map
    rw [List.foldlM_cons] at hitems
    exact hitems.of_bind.of_readItem via rfl
  | fuel + 2, via, h => by
    intro hf
    obtain ⟨v, hv'⟩ := hv
    have hscalar : valueOf doc via (fuel + 1) h (.scalar t x p l₀) = .ok (v, h) := by
      rw [valueOf_scalar, hv']
      rfl
    rw [valueOf_sequence] at hf
    have hitems := hf.of_map
    rw [List.foldlM_cons, readItem_of_ok (#[], h) hscalar, ok_bind, List.foldlM_cons] at hitems
    -- the alias reads the sequence again, one level deeper
    have halias := hitems.of_bind.of_readItem
    rw [valueOf, hA] at halias
    exact valueOf_selfReference ⟨v, hv'⟩ hA fuel name _ halias

/-- A node graph whose first argument is a sequence anchored as `id` that holds a scalar with a
value and then an alias to `id` has no unbounded reading: the alias reads the sequence again
within itself. -/
theorem not_readsInput_selfReference {doc : Document} {id : Nat} {tag tag' t x name : String}
    {p : Bool} {l₀ l₁ l₂ line : Nat} {rest : List Node} (hv : ∃ v, scalarValue t x p = .ok v)
    (hA : doc.anchored[id]? = some (.sequence tag [.scalar t x p l₀, .alias name id l₁] l₂))
    (hroot : doc.root =
      some (.sequence tag' (.sequence tag [.scalar t x p l₀, .alias name id l₁] l₂ :: rest) line)) :
    ¬ ∃ r, ReadsInput doc r := by
  have hcut : ∀ h r, ¬ Reads doc h (.sequence tag [.scalar t x p l₀, .alias name id l₁] l₂) r :=
    fun h _ => not_reads_of_cut fun fuel via => valueOf_selfReference hv hA fuel via h
  rintro ⟨r, hr⟩
  cases hr with
  | empty hnone => cases hroot.symm.trans hnone
  | notSequence hroot' hne =>
    cases hroot.symm.trans hroot'
    exact hne _ _ _ rfl
  | sequence hroot' hitems =>
    cases hroot.symm.trans hroot'
    -- the first argument is the anchored sequence, whose reading never ends
    cases hitems with
    | cons hfirst _ => exact hcut _ _ hfirst
    | error hfirst => exact hcut _ _ hfirst

/-- The text `[&a [1, *a]]` gives a well-formed node graph whose anchored sequence holds an alias
to itself; reading it with no bound on the depth never ends, and the depth bound reports the
alias. -/
theorem ofDocument_selfReference_diverges :
    let a : Node := .sequence "!!seq" [.scalar "!!int" "1" true 1, .alias "a" 0 1] 1
    let g : Document := { root := some (.sequence "!!seq" [a] 1), anchored := #[a] }
    (Document.parse "[&a [1, *a]]").toOption = some g ∧ g.WellFormed ∧
      (¬ ∃ r, ReadsInput g r) ∧ ofDocument g = .error (.selfContaining "a") := by
  intro a g
  have hparse : (Document.parse "[&a [1, *a]]").toOption = some g := by
    decide +kernel
  exact ⟨hparse, Document.wellFormed_of_aliasBound rfl (by decide) (by decide),
    not_readsInput_selfReference ⟨_, rfl⟩ rfl rfl, rfl⟩

end Input

end TraceSynth
