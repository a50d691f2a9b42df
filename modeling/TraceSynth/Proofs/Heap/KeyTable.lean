import TraceSynth.Heap.Basic
import Mathlib.Data.List.Sort
import Mathlib.Data.List.Induction

/-!
# The key table of a heap object

An object keeps its own properties as a list of entries, one per key, in the order the keys were
first written; beside it, the list of its keys that are no array index (`order`) and, for an
array, its length. This module proves that the three stay consistent under every write and
deletion of an object a constructor built (`Obj.KeyTable`), and derives what `Obj.keys` lists:
the index keys ascending, written as numerals, then the other keys in the order they were
written, a key deleted and written again counting as new.

The index test `Value.arrayIndex` reads a key as a decimal number after an optional sign and
takes up to ten characters. So `+1` and `-0` are index keys that are not the numeral of their
index, and numerals up to `9999999999` are indices. Such a key is listed as the numeral of its
index, which is no key of the object, and an array written at such an index has a length that
`Obj.setLength` refuses.

## Main results

* `Value.arrayIndex_decimal`, `Value.eq_decimal_of_arrayIndex`: numerals below `10^10` are
  indices, and an unsigned index key is the numeral of its index;
* `Obj.set_cases`, `Obj.KeyTable.delete_eq`: a write truncates an array at a new length or writes
  one entry (`Obj.withEntry`), a deletion removes one (`Obj.withoutEntry`);
* `Obj.Built.keyTable`: every object built and then written and deleted keeps its key table;
* `Obj.keys_eq`, `Obj.KeyTable.keys_perm`: the keys are the indices ascending as numerals, then
  the order list, and list every stored key once when every index key is a numeral;
* `Obj.keys_withEntry_fresh`, `Obj.keys_withEntry_stored`, `Obj.keys_withoutEntry`: a new key that
  is no index is listed last, a written key keeps its place, a deleted one leaves the list;
* `Obj.Built.keys_listing`: all of it for an object built with numerals as index keys;
* `Obj.keys_list_sign_as_numeral`: `+1` is listed as `1`, and an array written at
  `9999999999` refuses its own length.
-/

namespace TraceSynth

/-- The decimal numeral of a natural number. -/
def decimal (n : Nat) : Bytes := Bytes.ofString (toString n)

section Numerals

/-- The byte of a digit character. -/
def digitByte (c : Char) : UInt8 := c.toNat.toUInt8

/-- The number that digit bytes write, most significant first, as `Value.arrayIndex` reads it. -/
def digitsValue (bs : List UInt8) : Nat := bs.foldl (fun acc c => acc * 10 + (c.toNat - 0x30)) 0

theorem toNat_lt_of_isDigit {c : Char} (h : c.isDigit = true) : c.toNat < 0x80 := by
  simp only [Char.isDigit, Bool.and_eq_true, decide_eq_true_eq] at h
  have : c.toNat ≤ '9'.toNat := h.2
  simp at this
  omega

theorem isDigit_digitByte {c : Char} (h : c.isDigit = true) : Reading.isDigit (digitByte c) = true := by
  simp only [Char.isDigit, Bool.and_eq_true, decide_eq_true_eq] at h
  have h0 : '0'.toNat ≤ c.toNat := h.1
  have h9 : c.toNat ≤ '9'.toNat := h.2
  simp at h0 h9
  simp only [Reading.isDigit, digitByte, Bool.and_eq_true, decide_eq_true_eq,
    UInt8.le_iff_toNat_le]
  simp
  omega

theorem digit_bounds {b : UInt8} (h : Reading.isDigit b = true) :
    0x30 ≤ b.toNat ∧ b.toNat - 0x30 < 10 := by
  simp only [Reading.isDigit, Bool.and_eq_true, decide_eq_true_eq] at h
  have h1 : (0x30 : UInt8).toNat ≤ b.toNat := UInt8.le_iff_toNat_le.mp h.1
  have h2 : b.toNat ≤ (0x39 : UInt8).toNat := UInt8.le_iff_toNat_le.mp h.2
  simp at h1 h2
  omega

theorem encode_of_lt {n : Nat} (h : n < 0x80) : Utf8.encode n = [n.toUInt8] := by
  simp [Utf8.encode, h]

/-- A numeral is written one byte a digit. -/
theorem decimal_toList (n : Nat) : (decimal n).toList = (Nat.toDigits 10 n).map digitByte := by
  rw [List.map_eq_flatMap]
  simp only [decimal, Bytes.ofString, Nat.toString_eq_ofList_toDigits, String.toList_ofList]
  apply List.flatMap_congr
  intro c hc
  exact encode_of_lt (toNat_lt_of_isDigit (Nat.isDigit_of_mem_toDigits (by decide) (by decide) hc))

theorem digitsValue_append (bs : List UInt8) (b : UInt8) :
    digitsValue (bs ++ [b]) = digitsValue bs * 10 + (b.toNat - 0x30) := by
  simp [digitsValue, List.foldl_append]

theorem foldl_digitByte (l : List Char) (hl : ∀ c ∈ l, c.isDigit = true) (acc : Nat) :
    (l.map digitByte).foldl (fun acc c => acc * 10 + (c.toNat - 0x30)) acc =
      Nat.ofDigitChars 10 l acc := by
  induction l generalizing acc with
  | nil => rfl
  | cons c l ih =>
    have hc : (digitByte c).toNat = c.toNat := by
      have := toNat_lt_of_isDigit (hl c (by simp))
      simp [digitByte]
      omega
    simp only [List.map_cons, List.foldl_cons, hc]
    rw [ih (fun d hd => hl d (by simp [hd]))]
    simp [Nat.ofDigitChars, Nat.mul_comm]

/-- A numeral reads back as its number. -/
theorem digitsValue_toDigits (n : Nat) : digitsValue ((Nat.toDigits 10 n).map digitByte) = n := by
  rw [digitsValue,
    foldl_digitByte _ (fun c hc => Nat.isDigit_of_mem_toDigits (by decide) (by decide) hc)]
  exact Nat.ofDigitChars_ten_toDigits

theorem digitByte_digitChar {d : Nat} (h : d < 10) : digitByte d.digitChar = (48 + d).toUInt8 := by
  simp [digitByte, Nat.toNat_digitChar_of_lt_ten h]

/-- Digits with no leading zero are the numeral of the number they write. -/
theorem toDigits_digitsValue {bs : List UInt8} (hne : bs ≠ [])
    (hd : ∀ b ∈ bs, Reading.isDigit b = true) (hz : bs = [0x30] ∨ bs.head? ≠ some 0x30) :
    (Nat.toDigits 10 (digitsValue bs)).map digitByte = bs := by
  -- peel the last digit: the digits before it write a positive number, or there are none
  induction bs using List.reverseRecOn with
  | nil => contradiction
  | append_singleton bs b ih =>
    obtain ⟨hb0, hb⟩ := digit_bounds (hd b (by simp))
    have hbyte : (48 + (b.toNat - 0x30)).toUInt8 = b := by
      apply UInt8.toNat_inj.mp
      simp
      omega
    rw [digitsValue_append]
    by_cases hbs : bs = []
    · subst hbs
      simp [digitsValue, Nat.toDigits_of_lt_base hb, digitByte_digitChar hb, hbyte]
    · have hz' : bs.head? ≠ some 0x30 := by
        obtain ⟨c, cs, rfl⟩ := List.exists_cons_of_ne_nil hbs
        rcases hz with h | h
        · simp at h
        · simpa using h
      have ih' := ih hbs (fun c hc => hd c (by simp [hc])) (Or.inr hz')
      have hm : 0 < digitsValue bs := by
        refine Nat.pos_of_ne_zero fun h0 => hz' ?_
        rw [h0, Nat.toDigits_zero] at ih'
        rw [← ih']
        rfl
      rw [Nat.mul_comm, ← Nat.toDigits_append_toDigits (by decide) hm hb, List.map_append, ih',
        Nat.toDigits_of_lt_base hb, List.map_singleton, digitByte_digitChar hb, hbyte]

/-- The numeral of a positive number does not start with `0`. -/
theorem head_toDigits_ne_zero {n : Nat} (hn : n ≠ 0) : (Nat.toDigits 10 n).head? ≠ some '0' := by
  induction n using Nat.strong_induction_on with
  | _ n ih =>
    rw [Nat.toDigits_eq_if (by decide)]
    split
    · simpa [Nat.digitChar_eq_zero] using hn
    · rename_i h
      have hq : n / 10 ≠ 0 := by omega
      obtain ⟨c, cs, hcs⟩ := List.exists_cons_of_ne_nil (Nat.toDigits_ne_nil (n := n / 10) (b := 10))
      have := ih (n / 10) (by omega) hq
      rw [hcs] at this ⊢
      simpa using this

theorem decimal_zero : decimal 0 = Bytes.ofString "0" := rfl

theorem eq_zero_of_digitByte {d : Char} (hd : d.isDigit = true) (h : digitByte d = 0x30) :
    d = '0' := by
  have hlt := toNat_lt_of_isDigit hd
  have h48 : (digitByte d).toNat = 48 := by rw [h]; rfl
  simp only [digitByte, UInt8.toNat_ofNat', Nat.toUInt8_eq] at h48
  apply Char.toNat_inj.mp
  simp
  omega

end Numerals

namespace Value

/-- Numerals below `10^10` are array indices, of the number they write. -/
theorem arrayIndex_decimal {n : Nat} (h : n < 10 ^ (10 : Nat)) : arrayIndex (decimal n) = some n := by
  obtain ⟨c, rest, hcr⟩ := List.exists_cons_of_ne_nil
    (List.map_eq_nil_iff.not.mpr (Nat.toDigits_ne_nil (n := n) (b := 10)))
  have hk : decimal n = ⟨c :: rest⟩ := by
    rw [← hcr, ← decimal_toList]
  have hdig : ∀ b ∈ c :: rest, Reading.isDigit b = true := by
    rw [← hcr]
    intro b hb
    obtain ⟨d, hd, rfl⟩ := List.mem_map.mp hb
    exact isDigit_digitByte (Nat.isDigit_of_mem_toDigits (by decide) (by decide) hd)
  obtain ⟨hc0, hc9⟩ := digit_bounds (hdig c (by simp))
  have hplus : c ≠ 0x2B := by
    intro hc
    subst hc
    simp at hc0
  have hminus : c ≠ 0x2D := by
    intro hc
    subst hc
    simp at hc0
  have hlen : rest.length < 10 := by
    have := (Nat.length_toDigits_le_iff (b := 10) (n := n) (k := 10) (by decide) (by decide)).mpr h
    rw [← List.length_map (f := digitByte), hcr, List.length_cons] at this
    omega
  -- a numeral other than `0` starts with another digit
  have hzero : c = 0x30 → (⟨c :: rest⟩ : Bytes) = Bytes.ofString "0" := by
    intro hc
    rcases Nat.eq_zero_or_pos n with rfl | hn
    · rw [← hk, decimal_zero]
    · have := head_toDigits_ne_zero (Nat.pos_iff_ne_zero.mp hn)
      obtain ⟨d, ds, hds⟩ := List.exists_cons_of_ne_nil (Nat.toDigits_ne_nil (n := n) (b := 10))
      rw [hds, List.map_cons, List.cons.injEq] at hcr
      rw [hds] at this
      have hd := Nat.isDigit_of_mem_toDigits (b := 10) (n := n) (by decide) (by decide)
        (hds ▸ List.mem_cons_self)
      exact (this (by simp [eq_zero_of_digitByte hd (hcr.1.trans hc)])).elim
  have hval : digitsValue (c :: rest) = n := by
    rw [← hcr, digitsValue_toDigits]
  simp only [digitsValue] at hval
  rw [hk]
  simp [arrayIndex, hplus, hminus, hval, hdig]
  exact ⟨by omega, fun hne hc => hne (hzero hc), fun x hx => hdig x (List.mem_cons_of_mem c hx)⟩

/-- An index key that starts with no sign is the numeral of its index. -/
theorem eq_decimal_of_arrayIndex {k : Bytes} {n : Nat} (h : arrayIndex k = some n) :
    k = decimal n ∨ k.toList.head? = some 0x2B ∨ k.toList.head? = some 0x2D := by
  obtain ⟨bs⟩ := k
  cases bs with
  | nil => simp [arrayIndex] at h
  | cons c rest =>
    by_cases hp : c = 0x2B
    · simp [hp]
    by_cases hm : c = 0x2D
    · simp [hm]
    left
    simp only [arrayIndex] at h
    simp [hp, hm] at h
    obtain ⟨-, hz, hd, hv⟩ := h
    have hz' : c :: rest = [0x30] ∨ (c :: rest).head? ≠ some 0x30 := by
      by_cases hc : c = 0x30
      · left
        have := Classical.not_not.mp (mt hz (not_not.mpr hc))
        exact congrArg Bytes.toList this
      · right
        simpa using hc
    have hd' : ∀ b ∈ c :: rest, Reading.isDigit b = true := by
      intro b hb
      rcases List.mem_cons.mp hb with rfl | hb
      · exact hd.1
      · exact hd.2 b hb
    have hv' : digitsValue (c :: rest) = n := by simpa [digitsValue] using hv
    have := toDigits_digitsValue (List.cons_ne_nil c rest) hd' hz'
    rw [hv'] at this
    rw [← this, ← decimal_toList]

end Value

section Sorting

open Obj

theorem insertAscending_perm (n : Nat) (l : List Nat) : (insertAscending n l).Perm (n :: l) := by
  induction l with
  | nil => simp [insertAscending]
  | cons m rest ih =>
    unfold insertAscending
    split
    · exact List.Perm.refl _
    · exact (ih.cons m).trans (List.Perm.swap n m rest)

theorem insertAscending_pairwise (n : Nat) {l : List Nat} (h : l.Pairwise (· ≤ ·)) :
    (insertAscending n l).Pairwise (· ≤ ·) := by
  induction l with
  | nil => simp [insertAscending]
  | cons m rest ih =>
    rw [List.pairwise_cons] at h
    unfold insertAscending
    split
    · rename_i hnm
      refine List.pairwise_cons.2 ⟨?_, List.pairwise_cons.2 h⟩
      intro x hx
      rcases List.mem_cons.1 hx with rfl | hx
      · omega
      · have := h.1 x hx
        omega
    · rename_i hnm
      refine List.pairwise_cons.2 ⟨?_, ih h.2⟩
      intro x hx
      rcases List.mem_cons.1 ((insertAscending_perm n rest).subset hx) with rfl | hx
      · omega
      · exact h.1 x hx

/-- Inserting one number after another sorts them. -/
theorem foldl_insertAscending (l acc : List Nat) (h : acc.Pairwise (· ≤ ·)) :
    (l.foldl (fun acc i => insertAscending i acc) acc).Pairwise (· ≤ ·) ∧
      (l.foldl (fun acc i => insertAscending i acc) acc).Perm (acc ++ l) := by
  induction l generalizing acc with
  | nil => simpa using h
  | cons i rest ih =>
    obtain ⟨hs, hp⟩ := ih (insertAscending i acc) (insertAscending_pairwise i h)
    -- the new number goes somewhere into the sorted prefix, which holds it beside the others
    have hmid : (insertAscending i acc ++ rest).Perm (acc ++ i :: rest) :=
      ((insertAscending_perm i acc).append_right rest).trans List.perm_middle.symm
    exact ⟨hs, hp.trans hmid⟩

/-- The index part of the keys is the ascending sort of the indices. -/
theorem foldl_insertAscending_eq_mergeSort (l : List Nat) :
    l.foldl (fun acc i => insertAscending i acc) [] = l.mergeSort := by
  obtain ⟨hs, hp⟩ := foldl_insertAscending l [] List.Pairwise.nil
  exact List.Perm.eq_of_pairwise' hs (List.pairwise_mergeSort' (· ≤ ·) l)
    (hp.trans (List.mergeSort_perm l _).symm)

end Sorting

namespace Obj

/-- The stored keys, in the order of the entries. -/
def storedKeys (o : Obj) : List Bytes := o.props.map Prod.fst

/-- Whether a key is no array index. -/
def nonIndex (k : Bytes) : Bool := (Value.arrayIndex k).isNone

/-- How the entries, the order list and the length of an object agree. -/
structure KeyTable (o : Obj) : Prop where
  /-- Each key has one entry. -/
  nodup : o.storedKeys.Nodup
  /-- The order list holds the keys that are no index, in the order of the entries. -/
  order_eq : o.order = o.storedKeys.filter nonIndex
  /-- An array has no `length` entry: its length is kept apart. -/
  length_unstored : o.isArray = true → lengthKey ∉ o.storedKeys
  /-- Every index key of an array is below its length. -/
  index_lt : o.isArray = true → ∀ k ∈ o.storedKeys, ∀ i, Value.arrayIndex k = some i → i < o.length

/-- Whether a key that reads as an index is the numeral of that index: `+1`, `-0` and `01` are
not. -/
def canonicalKey (k : Bytes) : Bool := (Value.arrayIndex k).all fun n => k == decimal n

theorem canonicalKey_iff {k : Bytes} :
    canonicalKey k = true ↔ ∀ n, Value.arrayIndex k = some n → k = decimal n := by
  cases h : Value.arrayIndex k <;> simp [canonicalKey, h]

/-- Objects a constructor allocates, then changed by writes that succeeded, each of a key that
`ok` admits, and by deletions. An array starts with at most `10^10` elements, so that every
element's key is an index. -/
inductive Built (ok : Bytes → Bool) : Obj → Prop
  | object : Built ok { kind := .plain }
  | array (elems : List Value) (h : elems.length ≤ 10 ^ (10 : Nat)) : Built ok (ofElems elems)
  | function (f : Native) : Built ok { kind := .function f }
  | set {o o' : Obj} {key : Bytes} {v : Value} :
      Built ok o → ok key = true → o.set key v = .ok o' → Built ok o'
  | delete {o : Obj} (key : Bytes) : Built ok o → Built ok (o.delete key).2

section Entries

variable {props : List (Bytes × Value)} {k k' : Bytes} {v : Value}

theorem any_key_iff : props.any (·.1 == k) = true ↔ k ∈ props.map Prod.fst := by
  simp only [List.any_eq_true, beq_iff_eq, List.mem_map]

/-- Writing an entry keeps the place of a stored key and appends a new one. -/
theorem keys_store :
    (store props k v).map Prod.fst =
      if k ∈ props.map Prod.fst then props.map Prod.fst else props.map Prod.fst ++ [k] := by
  unfold store
  by_cases hk : k ∈ props.map Prod.fst
  · rw [if_pos (any_key_iff.mpr hk), if_pos hk, List.map_map]
    apply List.map_congr_left
    intro p _
    by_cases hp : p.1 = k <;> simp [hp]
  · rw [if_neg (mt any_key_iff.mp hk), if_neg hk]
    simp

/-- Rewriting the entries of one key leaves the search for any key where it was. -/
theorem find?_map_replace (k' : Bytes) :
    (props.map fun p => if p.1 == k then (k, v) else p).find? (·.1 == k') =
      (props.find? (·.1 == k')).map fun p => if p.1 == k then (k, v) else p := by
  rw [List.find?_map]
  congr 2
  funext q
  by_cases hq : q.1 = k
  · simp [hq]
  · simp [hq]

theorem find?_key_isSome : (props.find? (·.1 == k)).isSome ↔ k ∈ props.map Prod.fst := by
  simp only [List.find?_isSome, beq_iff_eq, List.mem_map]

/-- A written key reads back the value written. -/
theorem find?_store_self : ((store props k v).find? (·.1 == k)).map (·.2) = some v := by
  unfold store
  split
  · rename_i h
    rw [find?_map_replace, Option.map_map]
    obtain ⟨q, hq⟩ := Option.isSome_iff_exists.mp (find?_key_isSome.mpr (any_key_iff.mp h))
    have hqk : q.1 = k := by simpa using List.find?_some hq
    simp [hq, hqk]
  · rename_i h
    have hnone : props.find? (·.1 == k) = none := by
      cases hf : props.find? (·.1 == k) with
      | none => rfl
      | some q => exact absurd (any_key_iff.mpr (find?_key_isSome.mp (by simp [hf]))) h
    simp [List.find?_append, hnone]

/-- Writing one key leaves what another reads. -/
theorem find?_store_ne (hne : k' ≠ k) :
    ((store props k v).find? (·.1 == k')).map (·.2) = (props.find? (·.1 == k')).map (·.2) := by
  unfold store
  split
  · rw [find?_map_replace, Option.map_map]
    cases hf : props.find? (·.1 == k') with
    | none => rfl
    | some q =>
      have hqk : q.1 = k' := by simpa using List.find?_some hf
      have : q.1 ≠ k := hqk ▸ hne
      simp [this]
  · rw [List.find?_append]
    cases hf : props.find? (·.1 == k') with
    | some q => rfl
    | none => simp [Ne.symm hne]

end Entries

theorem lookup_isSome_iff {o : Obj} {k : Bytes} : (o.lookup k).isSome ↔ k ∈ o.storedKeys := by
  simp only [lookup, Option.isSome_map, storedKeys]
  exact find?_key_isSome

theorem lookup_isNone_iff {o : Obj} {k : Bytes} : (o.lookup k).isNone ↔ k ∉ o.storedKeys := by
  rw [← lookup_isSome_iff]
  cases o.lookup k <;> simp

/-- The object a write leaves when the key is no array's `length`: the entry is written, a new key
that is no index goes to the end of the order list, and an array grows past an index key. -/
def withEntry (o : Obj) (k : Bytes) (v : Value) : Obj :=
  { o with
    props := store o.props k v
    order := if (o.lookup k).isNone && nonIndex k then o.order ++ [k] else o.order
    length := if o.isArray then max o.length (((Value.arrayIndex k).map (· + 1)).getD 0)
      else o.length }

/-- The object a length write leaves: the index keys from the new length on are gone. -/
def truncate (o : Obj) (n : Nat) : Obj :=
  { o with
    props := o.props.filter fun p => ((Value.arrayIndex p.1).map fun i => decide (i < n)).getD true
    length := n }

theorem set_eq_withEntry {o : Obj} {k : Bytes} (v : Value) (hl : o.isArray = true → k ≠ lengthKey) :
    o.set k v = .ok (o.withEntry k v) := by
  have hl' : (o.isArray && k == lengthKey) = false := by
    cases ha : o.isArray
    · rfl
    · simpa using hl ha
  unfold set withEntry
  rw [if_neg (by simp [hl'])]
  cases ha : o.isArray <;> cases hi : Value.arrayIndex k <;> simp [nonIndex, hi]

theorem setLength_eq_truncate {o o' : Obj} {v : Value} (h : o.setLength v = .ok o') :
    ∃ n, o' = o.truncate n := by
  unfold setLength at h
  dsimp only at h
  split at h
  · cases h
  · refine ⟨v.toNumber.toUInt64.toNat, (Except.ok.inj h).symm.trans ?_⟩
    unfold truncate
    congr 2
    funext p
    cases Value.arrayIndex p.1 <;> rfl

/-- A successful write either truncates an array at a new length or writes an entry. -/
theorem set_cases {o o' : Obj} {k : Bytes} {v : Value} (h : o.set k v = .ok o') :
    (o.isArray = true ∧ k = lengthKey ∧ ∃ n, o' = o.truncate n) ∨
    ((o.isArray = true → k ≠ lengthKey) ∧ o' = o.withEntry k v) := by
  by_cases hl : o.isArray = true ∧ k = lengthKey
  · have : o.set k v = o.setLength v := by simp [set, hl.1, hl.2]
    exact .inl ⟨hl.1, hl.2, setLength_eq_truncate (this ▸ h)⟩
  · have hl' : o.isArray = true → k ≠ lengthKey := fun ha hk => hl ⟨ha, hk⟩
    rw [set_eq_withEntry v hl'] at h
    exact .inr ⟨hl', (Except.ok.inj h).symm⟩

/-- The object a deletion leaves when it removes an entry. -/
def withoutEntry (o : Obj) (k : Bytes) : Obj :=
  { o with props := o.props.filter (·.1 != k), order := o.order.erase k }

/-- A deletion leaves the object as it is, or removes the entry of a key other than an array's
`length`. -/
theorem delete_cases (o : Obj) (k : Bytes) :
    (o.delete k).2 = o ∨ ((o.isArray = true → k ≠ lengthKey) ∧ (o.delete k).2 = o.withoutEntry k) := by
  unfold delete
  by_cases hl : o.isArray = true ∧ k = lengthKey
  · exact .inl (by simp [hl.1, hl.2])
  · have hl' : (o.isArray && k == lengthKey) = false := by
      cases ha : o.isArray
      · rfl
      · simpa [ha] using hl
    rw [if_neg (by simp [hl'])]
    split
    · exact .inl rfl
    · exact .inr ⟨fun ha hk => hl ⟨ha, hk⟩, rfl⟩

section Forms

variable {o : Obj} {k k' : Bytes} {v : Value} {n : Nat}

@[simp] theorem isArray_withEntry : (o.withEntry k v).isArray = o.isArray := rfl
@[simp] theorem isArray_truncate : (o.truncate n).isArray = o.isArray := rfl
@[simp] theorem isArray_withoutEntry : (o.withoutEntry k).isArray = o.isArray := rfl

/-- A written key keeps its place among the stored keys, and a new one comes last. -/
theorem storedKeys_withEntry :
    (o.withEntry k v).storedKeys =
      if k ∈ o.storedKeys then o.storedKeys else o.storedKeys ++ [k] :=
  keys_store

theorem storedKeys_truncate : (o.truncate n).storedKeys.Sublist o.storedKeys :=
  (List.filter_sublist).map _

theorem storedKeys_withoutEntry : (o.withoutEntry k).storedKeys = o.storedKeys.filter (· != k) := by
  simp only [withoutEntry, storedKeys, List.filter_map]
  rfl

theorem lookup_withEntry_self : (o.withEntry k v).lookup k = some v := find?_store_self

theorem lookup_withEntry_ne (h : k' ≠ k) : (o.withEntry k v).lookup k' = o.lookup k' :=
  find?_store_ne h

theorem get_withEntry_self (hl : o.isArray = true → k ≠ lengthKey) : (o.withEntry k v).get k = v := by
  simp only [get, isArray_withEntry, lookup_withEntry_self]
  split
  · rename_i h
    simp only [Bool.and_eq_true, beq_iff_eq] at h
    exact absurd h.2 (hl h.1)
  · rfl

theorem lookup_withoutEntry (k' : Bytes) :
    (o.withoutEntry k).lookup k' = if k' = k then none else o.lookup k' := by
  unfold lookup withoutEntry
  rw [List.find?_filter]
  split
  · -- no entry passes both tests
    rename_i h
    subst h
    simp
  · rename_i h
    congr 2
    funext p
    by_cases hp : p.1 = k' <;> simp [hp, h]

/-- A length write keeps the entries of the keys that are no index or below the new length. -/
theorem lookup_truncate (k' : Bytes) :
    (o.truncate n).lookup k' =
      if ((Value.arrayIndex k').map fun i => decide (i < n)).getD true then o.lookup k' else none := by
  unfold lookup truncate
  rw [List.find?_filter]
  split
  · rename_i h
    congr 2
    funext p
    by_cases hp : p.1 = k' <;> simp [hp, h]
  · rename_i h
    simp only [Option.map_eq_none_iff, List.find?_eq_none]
    intro p _
    by_cases hp : p.1 = k' <;> simp [hp, h]

theorem length_le_withEntry : o.length ≤ (o.withEntry k v).length := by
  simp only [withEntry]
  split
  · exact Nat.le_max_left _ _
  · exact Nat.le_refl _

end Forms

/-- A fresh array's keys are the numerals of its positions. -/
theorem storedKeys_ofElems (elems : List Value) :
    (ofElems elems).storedKeys = (List.range' 0 elems.length).map decimal := by
  simp only [storedKeys, ofElems, List.map_map]
  rw [← List.zipIdx_map_snd 0 elems, List.map_map]
  rfl

theorem lengthKey_nonIndex : Value.arrayIndex lengthKey = none := by decide

theorem arrayIndex_position {len i : Nat} (h : len ≤ 10 ^ (10 : Nat)) (hi : i ∈ List.range' 0 len) :
    Value.arrayIndex (decimal i) = some i :=
  Value.arrayIndex_decimal (by have := (List.mem_range'_1.mp hi).2; omega)

namespace KeyTable

variable {o : Obj} {k : Bytes} {v : Value}

/-- Writing an entry keeps the key table of an object when the key is no array's `length`. -/
theorem withEntry (ht : o.KeyTable) (hl : o.isArray = true → k ≠ lengthKey) :
    (o.withEntry k v).KeyTable where
  nodup := by
    rw [storedKeys_withEntry]
    split
    · exact ht.nodup
    · rename_i hk
      exact List.nodup_append.mpr ⟨ht.nodup, List.nodup_singleton k,
        fun a ha b hb => by rw [List.mem_singleton.mp hb]; exact fun h => hk (h ▸ ha)⟩
  order_eq := by
    rw [storedKeys_withEntry]
    by_cases hk : k ∈ o.storedKeys
    · have : (o.lookup k).isNone = false := by simpa using lookup_isSome_iff.mpr hk
      simp [Obj.withEntry, this, hk, ht.order_eq]
    · have : (o.lookup k).isNone = true := lookup_isNone_iff.mpr hk
      cases hi : nonIndex k <;> simp [Obj.withEntry, this, hk, hi, ht.order_eq, List.filter_append]
  length_unstored ha := by
    rw [isArray_withEntry] at ha
    rw [storedKeys_withEntry]
    split
    · exact ht.length_unstored ha
    · simpa using ⟨ht.length_unstored ha, (hl ha).symm⟩
  index_lt ha k' hk' i hi := by
    rw [isArray_withEntry] at ha
    have hlen : (o.withEntry k v).length =
        max o.length (((Value.arrayIndex k).map (· + 1)).getD 0) := by
      simp [Obj.withEntry, ha]
    rw [hlen]
    rw [storedKeys_withEntry] at hk'
    -- a stored key was below the old length; the written one is below its successor
    have hmem : k' ∈ o.storedKeys ∨ k' = k := by
      split at hk'
      · exact .inl hk'
      · simpa using hk'
    rcases hmem with hk' | rfl
    · exact Nat.lt_of_lt_of_le (ht.index_lt ha k' hk' i hi) (Nat.le_max_left _ _)
    · simp [hi]

/-- A length write keeps the key table: it removes only index keys, and those at or past the new
length. -/
theorem truncate (ht : o.KeyTable) (n : Nat) : (o.truncate n).KeyTable where
  nodup := ht.nodup.sublist storedKeys_truncate
  order_eq := by
    -- the entries that survive are those of the keys that are no index, and the rest
    show o.order = ((o.props.filter _).map Prod.fst).filter nonIndex
    rw [ht.order_eq, storedKeys, List.filter_map, List.filter_map, List.filter_filter]
    congr 1
    apply List.filter_congr
    intro p _
    cases hi : Value.arrayIndex p.1 <;> simp [nonIndex, hi]
  length_unstored ha := fun h => ht.length_unstored ha (storedKeys_truncate.subset h)
  index_lt ha k' hk' i hi := by
    obtain ⟨p, hp, rfl⟩ := List.mem_map.mp hk'
    have := (List.mem_filter.mp hp).2
    simpa [hi, Obj.truncate] using this

/-- Removing an entry keeps the key table. -/
theorem withoutEntry (ht : o.KeyTable) (k : Bytes) : (o.withoutEntry k).KeyTable where
  nodup := by
    rw [storedKeys_withoutEntry]
    exact ht.nodup.sublist List.filter_sublist
  order_eq := by
    -- with every key once, erasing a key filters it out
    show o.order.erase k = _
    rw [storedKeys_withoutEntry, ht.order_eq, (ht.nodup.sublist List.filter_sublist).erase_eq_filter,
      List.filter_filter, List.filter_filter]
    congr 1
    funext x
    exact Bool.and_comm _ _
  length_unstored ha := by
    rw [storedKeys_withoutEntry]
    exact fun h => ht.length_unstored ha (List.mem_filter.mp h).1
  index_lt ha k' hk' i hi := by
    rw [storedKeys_withoutEntry] at hk'
    exact ht.index_lt ha k' (List.mem_filter.mp hk').1 i hi

/-- A fresh plain object or function has no entries. -/
theorem of_props_nil (h : o.props = []) (ho : o.order = []) : o.KeyTable where
  nodup := by simp [storedKeys, h]
  order_eq := by simp [storedKeys, h, ho]
  length_unstored _ := by simp [storedKeys, h]
  index_lt _ := by simp [storedKeys, h]

/-- A fresh array with fewer than `10^10` elements has its key table: its keys are indices, each
the numeral of a position below the length. -/
theorem ofElems (elems : List Value) (h : elems.length ≤ 10 ^ (10 : Nat)) : (Obj.ofElems elems).KeyTable where
  nodup := by
    rw [storedKeys_ofElems]
    refine List.Nodup.map_on (fun a ha b hb hab => ?_) List.nodup_range'
    have ha' := arrayIndex_position h ha
    rw [hab, arrayIndex_position h hb] at ha'
    exact (Option.some.inj ha').symm
  order_eq := by
    rw [storedKeys_ofElems]
    refine (List.filter_eq_nil_iff.mpr fun k hk => ?_).symm
    obtain ⟨i, hi, rfl⟩ := List.mem_map.mp hk
    simp [nonIndex, arrayIndex_position h hi]
  length_unstored _ := by
    rw [storedKeys_ofElems]
    intro hk
    obtain ⟨i, hi, hik⟩ := List.mem_map.mp hk
    have := arrayIndex_position h hi
    rw [hik, lengthKey_nonIndex] at this
    cases this
  index_lt _ k hk i hi := by
    rw [storedKeys_ofElems] at hk
    obtain ⟨j, hj, rfl⟩ := List.mem_map.mp hk
    rw [arrayIndex_position h hj] at hi
    cases hi
    simpa [Obj.ofElems] using (List.mem_range'_1.mp hj).2

end KeyTable

section Keys

variable {o : Obj} {k : Bytes} {v : Value}

/-- The keys are the indices of the stored keys, ascending and written as numerals, then the
order list. -/
theorem keys_eq (o : Obj) :
    o.keys = (o.storedKeys.filterMap Value.arrayIndex).mergeSort.map decimal ++ o.order := by
  simp only [keys, storedKeys, List.filterMap_map]
  rw [foldl_insertAscending_eq_mergeSort]
  rfl

/-- Where every index key is the numeral of its index, the numerals of the indices are the index
keys. -/
theorem map_decimal_filterMap {l : List Bytes} (hc : ∀ k ∈ l, canonicalKey k = true) :
    (l.filterMap Value.arrayIndex).map decimal = l.filter fun k => !nonIndex k := by
  induction l with
  | nil => rfl
  | cons k rest ih =>
    have hrest := ih fun k' hk' => hc k' (List.mem_cons_of_mem k hk')
    cases hi : Value.arrayIndex k with
    | none => simp [hi, nonIndex, hrest]
    | some n =>
      have hk := canonicalKey_iff.mp (hc k List.mem_cons_self) n hi
      simp [hi, nonIndex, hrest, ← hk]

/-- Writing a new key that is no index lists it last. -/
theorem keys_withEntry_fresh (hk : k ∉ o.storedKeys) (hn : nonIndex k = true) :
    (o.withEntry k v).keys = o.keys ++ [k] := by
  have hnone : (o.lookup k).isNone = true := lookup_isNone_iff.mpr hk
  have hi : Value.arrayIndex k = none := by simpa [nonIndex] using hn
  rw [keys_eq, keys_eq, storedKeys_withEntry, if_neg hk, List.filterMap_append]
  simp [Obj.withEntry, hnone, hn, hi]

/-- Writing a stored key keeps the keys. -/
theorem keys_withEntry_stored (hk : k ∈ o.storedKeys) : (o.withEntry k v).keys = o.keys := by
  have hsome : (o.lookup k).isNone = false := by simpa using lookup_isSome_iff.mpr hk
  rw [keys_eq, keys_eq, storedKeys_withEntry, if_pos hk]
  simp [Obj.withEntry, hsome]

theorem filterMap_filter_ne (hn : nonIndex k = true) (l : List Bytes) :
    (l.filter (· != k)).filterMap Value.arrayIndex = l.filterMap Value.arrayIndex := by
  have hi : Value.arrayIndex k = none := by simpa [nonIndex] using hn
  induction l with
  | nil => rfl
  | cons a rest ih =>
    by_cases ha : a = k
    · subst ha
      simp [hi, ih]
    · simp [ha, List.filterMap_cons, ih]

/-- Deleting a key that is no index takes it out of the keys. -/
theorem keys_withoutEntry (hc : ∀ k ∈ o.storedKeys, canonicalKey k = true) (hn : nonIndex k = true) :
    (o.withoutEntry k).keys = o.keys.erase k := by
  -- the numerals listed are stored keys with an index, which `k` has not
  have hk : k ∉ (o.storedKeys.filterMap Value.arrayIndex).mergeSort.map decimal := by
    intro hmem
    obtain ⟨n, hn', rfl⟩ := List.mem_map.mp hmem
    obtain ⟨k₀, hk₀, hi⟩ := List.mem_filterMap.mp (List.mem_mergeSort.mp hn')
    have := canonicalKey_iff.mp (hc k₀ hk₀) n hi
    simp [nonIndex, ← this, hi] at hn
  rw [keys_eq, keys_eq, storedKeys_withoutEntry, filterMap_filter_ne hn, List.erase_append,
    if_neg hk]
  rfl

end Keys

namespace KeyTable

variable {o : Obj} {k : Bytes}

/-- With every index key a numeral, the keys list the stored keys. -/
theorem keys_perm (ht : o.KeyTable) (hc : ∀ k ∈ o.storedKeys, canonicalKey k = true) :
    o.keys.Perm o.storedKeys := by
  rw [keys_eq, ht.order_eq]
  have hidx : ((o.storedKeys.filterMap Value.arrayIndex).mergeSort.map decimal).Perm
      (o.storedKeys.filter fun k => !nonIndex k) := by
    rw [← map_decimal_filterMap hc]
    exact (List.mergeSort_perm _ _).map decimal
  exact (hidx.append_right _).trans
    (List.perm_append_comm.trans (List.filter_append_perm nonIndex o.storedKeys))

section Canonical

variable (ht : o.KeyTable) (hc : ∀ k ∈ o.storedKeys, canonicalKey k = true)
include ht hc

theorem keys_nodup : o.keys.Nodup := (ht.keys_perm hc).nodup_iff.mpr ht.nodup

theorem mem_keys : k ∈ o.keys ↔ (o.lookup k).isSome :=
  (ht.keys_perm hc).mem_iff.trans lookup_isSome_iff.symm

/-- The indices of the stored keys, as the keys list them, are strictly ascending. -/
theorem indices_ascending : (o.storedKeys.filterMap Value.arrayIndex).mergeSort.Pairwise (· < ·) := by
  have hnd : ((o.storedKeys.filterMap Value.arrayIndex).mergeSort.map decimal).Nodup := by
    have := ht.keys_nodup hc
    rw [keys_eq] at this
    exact this.of_append_left
  exact ((List.pairwise_mergeSort' (· ≤ ·) _).and (hnd.of_map decimal)).imp
    fun h => Nat.lt_of_le_of_ne h.1 h.2

end Canonical

/-- Removing the entry of a key that has none leaves the object as it is. -/
theorem withoutEntry_of_not_mem (ht : o.KeyTable) (hk : k ∉ o.storedKeys) : o.withoutEntry k = o := by
  have hprops : o.props.filter (·.1 != k) = o.props := by
    refine List.filter_eq_self.mpr fun p hp => ?_
    have : p.1 ≠ k := fun h => hk (h ▸ List.mem_map_of_mem hp)
    simpa using this
  have horder : o.order.erase k = o.order := by
    refine List.erase_of_not_mem fun h => hk ?_
    rw [ht.order_eq] at h
    exact (List.mem_filter.mp h).1
  simp only [Obj.withoutEntry, hprops, horder]

/-- A deletion of a key other than an array's `length` removes its entry, if it has one. -/
theorem delete_eq (ht : o.KeyTable) (hl : o.isArray = true → k ≠ lengthKey) :
    (o.delete k).2 = o.withoutEntry k := by
  have hl' : (o.isArray && k == lengthKey) = false := by
    cases ha : o.isArray
    · rfl
    · simpa [ha] using hl ha
  unfold delete
  rw [if_neg (by simp [hl'])]
  split
  · rename_i hn
    exact (ht.withoutEntry_of_not_mem (lookup_isNone_iff.mp (by simp [hn]))).symm
  · rfl

end KeyTable

namespace Built

variable {ok : Bytes → Bool} {o : Obj}

/-- Every object built keeps its key table. -/
theorem keyTable (hb : Built ok o) : o.KeyTable := by
  induction hb with
  | object => exact KeyTable.of_props_nil rfl rfl
  | array elems h => exact KeyTable.ofElems elems h
  | function f => exact KeyTable.of_props_nil rfl rfl
  | set _ _ hs ih =>
    rcases set_cases hs with ⟨-, -, n, rfl⟩ | ⟨hl, rfl⟩
    · exact ih.truncate n
    · exact ih.withEntry hl
  | delete key _ ih =>
    rcases delete_cases _ key with h | ⟨-, h⟩ <;> rw [h]
    · exact ih
    · exact ih.withoutEntry key

/-- Every key of an object built by writes of keys that `ok` admits is admitted, or the numeral of
a position of the array it started as. -/
theorem storedKeys_ok (hb : Built ok o) :
    ∀ k ∈ o.storedKeys, ok k = true ∨ ∃ i < 10 ^ (10 : Nat), k = decimal i := by
  induction hb with
  | object => simp [storedKeys]
  | array elems h =>
    rw [storedKeys_ofElems]
    intro k hk
    obtain ⟨i, hi, rfl⟩ := List.mem_map.mp hk
    exact .inr ⟨i, by have := (List.mem_range'_1.mp hi).2; omega, rfl⟩
  | function f => simp [storedKeys]
  | set _ hk hs ih =>
    rcases set_cases hs with ⟨-, -, n, rfl⟩ | ⟨-, rfl⟩
    · exact fun k h => ih k (storedKeys_truncate.subset h)
    · rw [storedKeys_withEntry]
      intro k' hk'
      split at hk'
      · exact ih k' hk'
      · rcases List.mem_append.mp hk' with h | h
        · exact ih k' h
        · exact .inl (List.mem_singleton.mp h ▸ hk)
  | delete key _ ih =>
    rcases delete_cases _ key with h | ⟨-, h⟩ <;> rw [h]
    · exact ih
    · rw [storedKeys_withoutEntry]
      exact fun k hk => ih k (List.mem_filter.mp hk).1

/-- Written only at keys that are the numerals of their indices, an object's stored keys are. -/
theorem canonical (hb : Built canonicalKey o) : ∀ k ∈ o.storedKeys, canonicalKey k = true := by
  intro k hk
  rcases hb.storedKeys_ok k hk with h | ⟨i, hi, rfl⟩
  · exact h
  · exact canonicalKey_iff.mpr fun n hn => by
      rw [Value.arrayIndex_decimal hi] at hn
      cases hn
      rfl

/-- The keys of an object built by writes of keys that are the numerals of their indices, if
any: every stored key once, the indices ascending as numerals and then the other keys in the order
they were written; a write reads back, leaves the other entries and lists a new key that is no
index last, a deletion takes a key out; an array's index keys stay below its length, which only a
length write lowers, and a length write drops the indices at or past the new length. -/
theorem keys_listing (hb : Built canonicalKey o) :
    o.keys.Nodup ∧ (∀ k, k ∈ o.keys ↔ (o.lookup k).isSome) ∧
    (o.storedKeys.filterMap Value.arrayIndex).mergeSort.Pairwise (· < ·) ∧
    o.keys = (o.storedKeys.filterMap Value.arrayIndex).mergeSort.map decimal ++ o.order ∧
    (∀ k ∈ o.order, nonIndex k = true) ∧
    (∀ k v o', o.set k v = .ok o' → (o.isArray = true → k ≠ lengthKey) →
      o'.get k = v ∧ (∀ k', k' ≠ k → o'.lookup k' = o.lookup k') ∧ o.length ≤ o'.length ∧
      ((o.lookup k).isSome → o'.keys = o.keys) ∧
      ((o.lookup k).isNone → nonIndex k = true → o'.keys = o.keys ++ [k])) ∧
    (∀ k, nonIndex k = true →
      (o.delete k).2.keys = o.keys.erase k ∧ (o.delete k).2.lookup k = none) ∧
    (∀ k, (o.delete k).2.length = o.length) ∧
    (o.isArray = true → ∀ k ∈ o.keys, ∀ i, Value.arrayIndex k = some i → i < o.length) ∧
    (∀ v o', o.isArray = true → o.set lengthKey v = .ok o' → ∀ k, o'.lookup k =
      if ((Value.arrayIndex k).map fun i => decide (i < o'.length)).getD true then o.lookup k
      else none) ∧
    (∀ k ∈ o.keys, ∀ n, Value.arrayIndex k = some n → k = decimal n) := by
  have ht := hb.keyTable
  have hc := hb.canonical
  have hkeys : ∀ k ∈ o.keys, k ∈ o.storedKeys := fun k hk => (ht.keys_perm hc).subset hk
  refine ⟨ht.keys_nodup hc, fun k => ht.mem_keys hc, ht.indices_ascending hc, keys_eq o,
    fun k hk => (List.mem_filter.mp (ht.order_eq ▸ hk)).2, ?write, ?delete, ?deleteLength,
    fun ha k hk => ht.index_lt ha k (hkeys k hk), ?lengthWrite,
    fun k hk => canonicalKey_iff.mp (hc k (hkeys k hk))⟩
  case write =>
    intro k v o' hs hl
    rw [set_eq_withEntry v hl, Except.ok.injEq] at hs
    subst hs
    exact ⟨get_withEntry_self hl, fun k' hk' => lookup_withEntry_ne hk', length_le_withEntry,
      fun hk => keys_withEntry_stored (lookup_isSome_iff.mp hk),
      fun hk hn => keys_withEntry_fresh (lookup_isNone_iff.mp hk) hn⟩
  case delete =>
    intro k hn
    by_cases hl : o.isArray = true ∧ k = lengthKey
    · -- an array's `length` is no entry, so there is nothing to take out
      have hd : (o.delete k).2 = o := by simp [Obj.delete, hl.1, hl.2]
      have hk : k ∉ o.storedKeys := hl.2 ▸ ht.length_unstored hl.1
      rw [hd, List.erase_of_not_mem (fun h => hk (hkeys k h))]
      exact ⟨rfl, Option.isNone_iff_eq_none.mp (lookup_isNone_iff.mpr hk)⟩
    · rw [ht.delete_eq fun ha hk => hl ⟨ha, hk⟩, lookup_withoutEntry, if_pos rfl]
      exact ⟨keys_withoutEntry hc hn, rfl⟩
  case deleteLength =>
    intro k
    rcases delete_cases o k with h | ⟨-, h⟩ <;> rw [h]
    rfl
  case lengthWrite =>
    intro v o' ha hs
    rcases set_cases hs with ⟨-, -, n, rfl⟩ | ⟨hl, -⟩
    · exact lookup_truncate
    · exact absurd rfl (hl ha)

/-- An array of two elements, then written at `x`, lists each key once. -/
theorem keys_listing_pair_then_name :
    Built canonicalKey ((ofElems [.null, .null]).withEntry (Bytes.ofString "x") .null) ∧
      ((ofElems [.null, .null]).withEntry (Bytes.ofString "x") .null).keys.Nodup := by
  have hb : Built canonicalKey ((ofElems [.null, .null]).withEntry (Bytes.ofString "x") .null) :=
    .set (.array _ (by decide)) (by decide) (set_eq_withEntry _ (by decide))
  exact ⟨hb, (keys_listing hb).1⟩

end Built

/-- The index test reads `+1` as the index `1`, and `9999999999` as an index: written at `+1`, an
object lists the key `1`, which reads nothing, and an array written at `9999999999` refuses its own
length back. -/
theorem keys_list_sign_as_numeral :
    Value.arrayIndex (Bytes.ofString "+1") = some 1 ∧
    (∃ o', ({ kind := .plain } : Obj).set (Bytes.ofString "+1") .null = .ok o' ∧
      o'.keys = [Bytes.ofString "1"] ∧ o'.lookup (Bytes.ofString "1") = none) ∧
    (∃ o', (ofElems []).set (Bytes.ofString "9999999999") .null = .ok o' ∧
      (o'.set lengthKey (Value.nat o'.length)).toBool = false) := by
  refine ⟨by decide, ⟨_, set_eq_withEntry _ (by decide), by decide, by decide⟩,
    ⟨_, set_eq_withEntry _ (by decide), by decide⟩⟩

end Obj

end TraceSynth
