import TraceSynth.Inference.Proposal
import Mathlib.Computability.RegularExpressions

/-!
# Reading a proposal's pattern

A proposal's pattern is matched as a regular expression anchored at both ends. Its dialect
here is the part of the usual one that patterns use: letters standing for themselves, groups,
alternation with `|` and repetition with one `*` after an atom. `Regex.read` reads a pattern
into a `RegularExpression Char` by recursive descent, with an empty alternative or an empty
group allowed, and a second `*` after an atom refused.

Every tag is a letter, so the pattern of `Proposal.make` reads as `pre · (alternatives)∗ · post`,
where the alternatives of a round are `shared ++ then` and, with a conditional, `shared ++ else`
(`Proposal.make_round`).

## Main definitions

* `Regex.read`: the regular expression a pattern denotes, if it is well formed;
* `Proposal.Matches`: a trace's skeleton is in the language of the proposal's pattern.

## Main results

* `Proposal.matches_iff`: a skeleton matches a proposal's pattern exactly when it is the
  proposal's fixed prefix, then a word of rounds, then its fixed suffix.
-/

namespace TraceSynth

namespace Regex

/-- Whether a character stands for itself: all but grouping, alternation and repetition. -/
def literal (c : Char) : Bool := !(c == '(' || c == ')' || c == '|' || c == '*')

/-- An atom followed by `*` is repeated; a second `*` is refused, as the dialect refuses nested
repetition. -/
def repetition (r : RegularExpression Char) :
    List Char → Option (RegularExpression Char × List Char)
  | '*' :: '*' :: _ => none
  | '*' :: s => some (r.star, s)
  | s => some (r, s)

mutual

/-- Alternatives separated by `|`, read up to an unmatched `)` or the end of the text. -/
def alternation : Nat → List Char → Option (RegularExpression Char × List Char)
  | 0, _ => none
  | fuel + 1, s =>
    match sequence fuel 1 s with
    | some (r, '|' :: rest) =>
      match alternation fuel rest with
      | some (r', rest') => some (r + r', rest')
      | none => none
    | res => res

/-- Atoms in a row, each maybe repeated, concatenated after those already read into `acc`; a
`)` or a `|` ends the row. -/
def sequence : Nat → RegularExpression Char → List Char →
    Option (RegularExpression Char × List Char)
  | 0, _, _ => none
  | _ + 1, acc, [] => some (acc, [])
  | fuel + 1, acc, c :: s =>
    if c == ')' || c == '|' then some (acc, c :: s)
    else if c == '(' then
      match alternation fuel s with
      | some (r, ')' :: rest) =>
        match repetition r rest with
        | some (r', rest') => sequence fuel (acc * r') rest'
        | none => none
      | _ => none
    else if c == '*' then none
    else
      match repetition (.char c) s with
      | some (r', rest') => sequence fuel (acc * r') rest'
      | none => none

end

/-- The regular expression a whole pattern denotes, if it is well formed: alternatives read to
the end, with no `)` left over. Each call consumes fuel and each row step a character, so the
pattern's length and one more is enough. -/
def read (s : String) : Option (RegularExpression Char) :=
  match alternation (s.length + 1) s.toList with
  | some (r, []) => some r
  | _ => none

/-- The letters of `ls` concatenated after `acc`, as `sequence` reads them. -/
def word (acc : RegularExpression Char) (ls : List Char) : RegularExpression Char :=
  ls.foldl (fun r c => r * .char c) acc

/-- A text of letters only. -/
def Letters (ls : List Char) : Prop := ∀ c ∈ ls, literal c = true

theorem mem_word {acc : RegularExpression Char} {ls x : List Char} :
    x ∈ (word acc ls).matches' ↔ ∃ u ∈ acc.matches', u ++ ls = x := by
  induction ls generalizing acc with
  | nil => simp [word]
  | cons c ls ih =>
    rw [word, List.foldl_cons, ← word, ih]
    constructor
    · rintro ⟨u, hu, rfl⟩
      rw [RegularExpression.matches'_mul, Language.mem_mul] at hu
      obtain ⟨a, ha, b, hb, rfl⟩ := hu
      obtain rfl : b = [c] := hb
      exact ⟨a, ha, by simp⟩
    · rintro ⟨a, ha, rfl⟩
      refine ⟨a ++ [c], ?_, by simp⟩
      rw [RegularExpression.matches'_mul, RegularExpression.matches'_char]
      exact Language.append_mem_mul ha (Set.mem_singleton _)

/-- A word read from nothing before it matches itself only. -/
theorem mem_word_one {ls x : List Char} : x ∈ (word 1 ls).matches' ↔ x = ls := by
  rw [mem_word]
  simp [eq_comm]

theorem repetition_of_head {r : RegularExpression Char} {s : List Char}
    (h : s.head? ≠ some '*') : repetition r s = some (r, s) := by
  unfold repetition
  split <;> simp_all

/-- Letters are read one by one, each with a unit of fuel. -/
theorem sequence_word {ls : List Char} (hls : Letters ls) {rest : List Char}
    (hrest : rest.head? ≠ some '*') (fuel : Nat) (acc : RegularExpression Char) :
    sequence (fuel + ls.length) acc (ls ++ rest) = sequence fuel (word acc ls) rest := by
  induction ls generalizing acc with
  | nil => rfl
  | cons c ls ih =>
    have hc : literal c = true := hls c (List.mem_cons_self ..)
    -- the next character is a letter of `ls` or the head of `rest`: not a star
    have hnext : (ls ++ rest).head? ≠ some '*' := by
      cases ls with
      | nil => simpa using hrest
      | cons c' ls =>
        have hc' : literal c' = true := hls c' (by simp)
        intro h
        simp only [List.cons_append, List.head?_cons, Option.some.injEq] at h
        subst h
        simp [literal] at hc'
    have hstep : sequence (fuel + ls.length + 1) acc (c :: (ls ++ rest)) =
        sequence (fuel + ls.length) (acc * .char c) (ls ++ rest) := by
      simp only [literal, Bool.not_eq_true', Bool.or_eq_false_iff, beq_eq_false_iff_ne] at hc
      simp [sequence, hc.1.1.1, hc.1.1.2, hc.1.2, hc.2, repetition_of_head hnext]
    rw [List.length_cons, ← Nat.add_assoc, List.cons_append, hstep,
      ih (fun c hc => hls c (List.mem_cons_of_mem _ hc))]
    rfl

/-- A row of letters to the end of the text. -/
theorem sequence_word_end {ls : List Char} (hls : Letters ls) (fuel : Nat)
    (acc : RegularExpression Char) :
    sequence (fuel + 1 + ls.length) acc ls = some (word acc ls, []) := by
  have hrow : sequence (fuel + 1 + ls.length) acc (ls ++ []) =
      sequence (fuel + 1) (word acc ls) [] := sequence_word hls (by simp) (fuel + 1) acc
  rw [List.append_nil] at hrow
  rw [hrow]
  rfl

theorem sequence_stop {fuel : Nat} {acc : RegularExpression Char} {c : Char} {s : List Char}
    (hc : c = ')' ∨ c = '|') : sequence (fuel + 1) acc (c :: s) = some (acc, c :: s) := by
  rcases hc with rfl | rfl <;> simp [sequence]

/-- A row of letters up to a `)` or a `|`, with fuel to spare. -/
theorem sequence_word_stop {ls : List Char} (hls : Letters ls) {c : Char} (hc : c = ')' ∨ c = '|')
    {s : List Char} {fuel : Nat} (hfuel : ls.length < fuel) (acc : RegularExpression Char) :
    sequence fuel acc (ls ++ c :: s) = some (word acc ls, c :: s) := by
  obtain ⟨k, rfl⟩ : ∃ k, fuel = k + 1 + ls.length := ⟨fuel - ls.length - 1, by omega⟩
  rw [sequence_word hls (by rcases hc with rfl | rfl <;> simp), sequence_stop hc]

theorem sequence_group {fuel : Nat} {acc r r' : RegularExpression Char} {s rest rest' : List Char}
    (hinner : alternation fuel s = some (r, ')' :: rest))
    (hrep : repetition r rest = some (r', rest')) :
    sequence (fuel + 1) acc ('(' :: s) = sequence fuel (acc * r') rest' := by
  simp [sequence, hinner, hrep]

theorem alternation_last {fuel : Nat} {s rest : List Char} {r : RegularExpression Char}
    (hseq : sequence fuel 1 s = some (r, rest)) (hrest : rest.head? ≠ some '|') :
    alternation (fuel + 1) s = some (r, rest) := by
  rw [alternation, hseq]
  split
  · rename_i h
    cases h
    simp at hrest
  · rfl

theorem alternation_bar {fuel : Nat} {s rest rest' : List Char} {r r' : RegularExpression Char}
    (hseq : sequence fuel 1 s = some (r, '|' :: rest))
    (halt : alternation fuel rest = some (r', rest')) :
    alternation (fuel + 1) s = some (r + r', rest') := by
  rw [alternation, hseq]
  simp [halt]

/-- One alternative of letters, closed by a `)`. -/
theorem alternation_word {ls : List Char} (hls : Letters ls) (rest : List Char) (fuel : Nat)
    (hfuel : ls.length + 2 ≤ fuel) :
    alternation fuel (ls ++ ')' :: rest) = some (word 1 ls, ')' :: rest) := by
  obtain ⟨k, rfl⟩ : ∃ k, fuel = k + 1 := ⟨fuel - 1, by omega⟩
  exact alternation_last (sequence_word_stop hls (.inl rfl) (by omega) 1) (by simp)

/-- Two alternatives of letters, closed by a `)`. -/
theorem alternation_choice {th el : List Char} (hth : Letters th) (hel : Letters el)
    (rest : List Char) (fuel : Nat) (hfuel : th.length + el.length + 3 ≤ fuel) :
    alternation fuel (th ++ '|' :: (el ++ ')' :: rest)) =
      some (word 1 th + word 1 el, ')' :: rest) := by
  obtain ⟨k, rfl⟩ : ∃ k, fuel = k + 1 := ⟨fuel - 1, by omega⟩
  exact alternation_bar (sequence_word_stop hth (.inr rfl) (by omega) 1)
    (alternation_word hel rest k (by omega))

/-- A shared block of letters, then a group of two alternatives, closed by a `)`. -/
theorem alternation_shared {sh th el : List Char} (hsh : Letters sh) (hth : Letters th)
    (hel : Letters el) (rest : List Char) (fuel : Nat)
    (hfuel : sh.length + th.length + el.length + 5 ≤ fuel) :
    alternation fuel (sh ++ '(' :: (th ++ '|' :: (el ++ ')' :: ')' :: rest))) =
      some (word 1 sh * (word 1 th + word 1 el), ')' :: rest) := by
  obtain ⟨k, rfl⟩ : ∃ k, fuel = k + 3 + sh.length := ⟨fuel - 3 - sh.length, by omega⟩
  have hinner := alternation_choice hth hel (')' :: rest) (k + 1) (by omega)
  have hrow : sequence (k + 2 + sh.length) 1
      (sh ++ '(' :: (th ++ '|' :: (el ++ ')' :: ')' :: rest))) =
        some (word 1 sh * (word 1 th + word 1 el), ')' :: rest) := by
    rw [sequence_word hsh (by simp), sequence_group hinner (repetition_of_head (by simp)),
      sequence_stop (.inl rfl)]
  rw [show k + 3 + sh.length = k + 2 + sh.length + 1 by omega]
  exact alternation_last hrow (by simp)

/-- A whole pattern `pre(round)*post`, with letters around the group. -/
theorem read_loop {s : String} {pre post body : List Char}
    (hs : s.toList = pre ++ '(' :: (body ++ ')' :: '*' :: post)) (hpre : Letters pre)
    (hpost : Letters post) {round : RegularExpression Char}
    (hround : ∀ rest, alternation (body.length + 2 + post.length) (body ++ ')' :: rest) =
      some (round, ')' :: rest)) :
    read s = some (word (word 1 pre * round.star) post) := by
  have hrep : repetition round ('*' :: post) = some (round.star, post) := by
    cases post with
    | nil => rfl
    | cons c post =>
      have hc : literal c = true := hpost c (List.mem_cons_self ..)
      have hc' : c ≠ '*' := by
        intro h
        subst h
        simp [literal] at hc
      simp [repetition, hc']
  have hrow : sequence (pre.length + 1 + body.length + 2 + post.length) 1
      (pre ++ '(' :: (body ++ ')' :: '*' :: post)) =
        some (word (word 1 pre * round.star) post, []) := by
    rw [show pre.length + 1 + body.length + 2 + post.length =
        body.length + 2 + post.length + 1 + pre.length by omega,
      sequence_word hpre (by simp), sequence_group (hround ('*' :: post)) hrep,
      show body.length + 2 + post.length = body.length + 1 + 1 + post.length by omega,
      sequence_word_end hpost]
  unfold read
  rw [← String.length_toList, hs,
    show (pre ++ '(' :: (body ++ ')' :: '*' :: post)).length + 1 =
      pre.length + 1 + body.length + 2 + post.length + 1 by simp; omega,
    alternation_last hrow (by simp)]

example : ((read "g(s|a)*d").map fun r => r.rmatch "gsasd".toList) = some true := by
  decide

example : (read "g(s|a)**d").isNone = true := by
  decide

theorem Letters.append {l₁ l₂ : List Char} (h₁ : Letters l₁) (h₂ : Letters l₂) :
    Letters (l₁ ++ l₂) := by
  intro c hc
  rcases List.mem_append.1 hc with hc | hc
  · exact h₁ c hc
  · exact h₂ c hc

/-- Every tag of a skeleton is a letter. -/
theorem letters_tags (t : Trace) : Letters t.tags.toList := by
  intro c hc
  simp only [Trace.tags, List.toList_toArray, List.mem_map] at hc
  obtain ⟨e, -, rfl⟩ := hc
  cases e.kind <;> rfl

theorem letters_extract (t : Trace) (a b : Nat) : Letters (t.tags.extract a b).toList := by
  intro c hc
  rw [Array.toList_extract, List.extract_eq_take_drop] at hc
  exact letters_tags t c (List.mem_of_mem_drop (List.mem_of_mem_take hc))

theorem letters_sliceTags (t : Trace) (a n : Nat) : Letters (sliceTags t.tags a n) :=
  letters_extract t a (a + n)

end Regex

namespace Proposal

open Regex

/-- A trace's skeleton is in the language of the proposal's pattern, read as a whole. -/
def Matches (p : Proposal) (t : Trace) : Prop :=
  ∃ r, read p.pattern = some r ∧ t.tags.toList ∈ r.matches'

instance (p : Proposal) (t : Trace) : Decidable (p.Matches t) :=
  decidable_of_iff ((read p.pattern).any fun r => r.rmatch t.tags.toList) (by
    unfold Matches
    cases read p.pattern <;> simp [RegularExpression.rmatch_iff_matches'])

section Make

variable {p : Proposal} {source : Trace} {start length shared thenPos thenLen elsePos elseLen : Nat}
  {branches : Bool}

@[simp] theorem make_source :
    (make source start length shared thenPos thenLen elsePos elseLen branches).source = source :=
  rfl

@[simp] theorem make_start :
    (make source start length shared thenPos thenLen elsePos elseLen branches).start = start :=
  rfl

@[simp] theorem make_branches :
    (make source start length shared thenPos thenLen elsePos elseLen branches).branches =
      branches :=
  rfl

@[simp] theorem make_preTags :
    (make source start length shared thenPos thenLen elsePos elseLen branches).preTags =
      sliceTags source.tags 0 start :=
  rfl

@[simp] theorem make_sharedTags :
    (make source start length shared thenPos thenLen elsePos elseLen branches).sharedTags =
      sliceTags source.tags start shared :=
  rfl

@[simp] theorem make_thenTags :
    (make source start length shared thenPos thenLen elsePos elseLen branches).thenTags =
      sliceTags source.tags thenPos thenLen :=
  rfl

@[simp] theorem make_elseTags :
    (make source start length shared thenPos thenLen elsePos elseLen branches).elseTags =
      if branches then sliceTags source.tags elsePos elseLen else [] :=
  rfl

@[simp] theorem make_postTags :
    (make source start length shared thenPos thenLen elsePos elseLen branches).postTags =
      (source.tags.extract (start + length) source.tags.size).toList :=
  rfl

theorem make_pattern :
    (make source start length shared thenPos thenLen elsePos elseLen branches).pattern =
      String.ofList (sliceTags source.tags 0 start) ++ "(" ++
        (if !branches then
          String.ofList (sliceTags source.tags start shared ++ sliceTags source.tags thenPos thenLen)
        else if shared > 0 then
          String.ofList (sliceTags source.tags start shared) ++ "(" ++
            String.ofList (sliceTags source.tags thenPos thenLen) ++ "|" ++
            String.ofList (if branches then sliceTags source.tags elsePos elseLen else []) ++ ")"
        else
          String.ofList (sliceTags source.tags thenPos thenLen) ++ "|" ++
            String.ofList (if branches then sliceTags source.tags elsePos elseLen else [])) ++
        ")*" ++
        String.ofList (source.tags.extract (start + length) source.tags.size).toList :=
  rfl

/-- The pattern of a proposal spells its fixed prefix, a group for one round, a star and the
fixed suffix; the round reads as the alternatives of `Proposal.alternatives`. -/
theorem make_round
    (hp : p = make source start length shared thenPos thenLen elsePos elseLen branches) :
    ∃ body round, p.pattern.toList = p.preTags ++ '(' :: (body ++ ')' :: '*' :: p.postTags) ∧
      (∀ rest, alternation (body.length + 2 + p.postTags.length) (body ++ ')' :: rest) =
        some (round, ')' :: rest)) ∧
      ∀ x, x ∈ round.matches' ↔ x ∈ p.alternatives := by
  subst hp
  have hsh := letters_sliceTags source start shared
  have hth := letters_sliceTags source thenPos thenLen
  have hel := letters_sliceTags source elsePos elseLen
  simp only [make_pattern, make_preTags, make_postTags, alternatives, make_sharedTags,
    make_thenTags, make_elseTags, make_branches]
  cases branches with
  | false =>
    -- a plain loop: one alternative, the shared block and the then block as one word
    refine ⟨sliceTags source.tags start shared ++ sliceTags source.tags thenPos thenLen,
      word 1 (sliceTags source.tags start shared ++ sliceTags source.tags thenPos thenLen),
      by simp [String.toList_append], fun rest => alternation_word (hsh.append hth) rest _
        (Nat.le_add_right _ _), fun x => ?_⟩
    simp [mem_word_one]
  | true =>
    by_cases hshared : shared > 0
    · -- the shared block, then a group choosing between the two blocks
      refine ⟨sliceTags source.tags start shared ++ '(' :: (sliceTags source.tags thenPos thenLen
          ++ '|' :: (sliceTags source.tags elsePos elseLen ++ [')'])),
        word 1 (sliceTags source.tags start shared) *
          (word 1 (sliceTags source.tags thenPos thenLen) +
            word 1 (sliceTags source.tags elsePos elseLen)),
        by simp [String.toList_append, hshared], fun rest => ?_, fun x => ?_⟩
      · have hfuel := alternation_shared hsh hth hel rest
          ((sliceTags source.tags start shared ++ '(' ::
            (sliceTags source.tags thenPos thenLen ++ '|' ::
              (sliceTags source.tags elsePos elseLen ++ [')']))).length + 2 +
            (source.tags.extract (start + length) source.tags.size).toList.length)
          (by simp only [List.length_append, List.length_cons, List.length_nil]; omega)
        simpa only [List.append_assoc, List.cons_append, List.singleton_append, List.nil_append]
          using hfuel
      · simp only [RegularExpression.matches'_mul, RegularExpression.matches'_add,
          Language.mem_mul, Language.mem_add, mem_word_one]
        simp [eq_comm]
    · -- nothing shared: the two blocks side by side
      have hnone : sliceTags source.tags start shared = [] := by
        simp [sliceTags, show shared = 0 by omega]
      refine ⟨sliceTags source.tags thenPos thenLen ++ '|' :: sliceTags source.tags elsePos elseLen,
        word 1 (sliceTags source.tags thenPos thenLen) +
          word 1 (sliceTags source.tags elsePos elseLen),
        by simp [String.toList_append, hshared], fun rest => ?_, fun x => ?_⟩
      · have hfuel := alternation_choice hth hel rest
          ((sliceTags source.tags thenPos thenLen ++ '|' ::
            sliceTags source.tags elsePos elseLen).length + 2 +
            (source.tags.extract (start + length) source.tags.size).toList.length)
          (by simp only [List.length_append, List.length_cons]; omega)
        simpa only [List.append_assoc, List.cons_append] using hfuel
      · simp only [RegularExpression.matches'_add, Language.mem_add, mem_word_one]
        simp [hnone]

/-- A skeleton matches the pattern of `Proposal.make` exactly when it is the fixed prefix, then
rounds each one of the alternatives, then the fixed suffix. -/
theorem matches_iff
    (hp : p = make source start length shared thenPos thenLen elsePos elseLen branches)
    (t : Trace) : p.Matches t ↔ ∃ blocks : List (List Char),
      (∀ b ∈ blocks, b ∈ p.alternatives) ∧
        t.tags.toList = p.preTags ++ blocks.flatten ++ p.postTags := by
  obtain ⟨body, round, hpat, hround, hmem⟩ := make_round hp
  have hpre : Letters p.preTags := hp ▸ letters_sliceTags source 0 start
  have hpost : Letters p.postTags := hp ▸ letters_extract source (start + length) source.tags.size
  simp only [Matches, read_loop hpat hpre hpost hround, Option.some.injEq, exists_eq_left']
  rw [mem_word]
  simp only [RegularExpression.matches'_mul, Language.mem_mul, mem_word_one,
    RegularExpression.matches'_star, Language.mem_kstar]
  constructor
  · rintro ⟨u, ⟨a, rfl, b, ⟨blocks, rfl, hblocks⟩, rfl⟩, hsk⟩
    exact ⟨blocks, fun x hx => (hmem x).1 (hblocks x hx), by rw [← hsk]⟩
  · rintro ⟨blocks, hblocks, hsk⟩
    exact ⟨_, ⟨_, rfl, blocks.flatten, ⟨blocks, rfl, fun x hx => (hmem x).2 (hblocks x hx)⟩, rfl⟩,
      hsk.symm⟩

end Make

end Proposal

end TraceSynth
