import TraceSynth.Proofs.Decimal.Literal

/-!
# Strings read as numbers, against ECMAScript

A string's number (`Value.stringToNumber`) trims white space, reads the empty text as 0, reads
`Infinity`, `+Infinity` and `-Infinity` as the infinities, and hands any other text to the float
reader (`Reading.float`), NaN when the reader refuses it. ECMAScript's `StringToNumber`
(ECMA-262, section 7.1.4.1.1) trims its white space and line terminators, reads the empty text
as 0, and reads a `StrNumericLiteral`: `Infinity` with an optional sign, a decimal literal with
an optional sign, a fraction and an exponent (`StrDecimalLiteral`), or a binary, octal or
hexadecimal integer without sign (`NonDecimalIntegerLiteral`); a decimal literal's value is
rounded to the nearest Number, a tie going to the even significand, and is an infinity past the
largest finite one.

On ASCII strings the two trim the same six bytes, and the reader takes every decimal literal
of the grammar apart into the integer of its digits and a power of ten
(`Ecma.DecimalLiteral.literal_bytes`), which it rounds as ECMAScript does. So the two agree on
the empty text, the three spellings of `Infinity` and every decimal literal whose value is zero
or rounds to a finite nonzero number (`Value.toNumber_agrees_ecma`). They differ on integers
with a radix prefix, which the reader refuses (`0x10` is NaN, where ECMAScript reads 16), on
decimal literals past the largest finite number (NaN, where ECMAScript gives an infinity), and
on the texts only the reader accepts (`inf`, `nan`, `0x1p4`, `1_000`).

## Main results

* `Ecma.DecimalLiteral.float_bytes`: the float reader rounds a decimal literal's value;
* `Value.toNumber_agrees_ecma`: where a primitive's number is ECMAScript's;
* `Value.toNumber_radix_and_range`: the texts `0x10` and `1e400` are NaN, and `inf` is an
  infinity.
-/

namespace TraceSynth

open Reading

namespace Ecma

/-- The ASCII bytes ECMAScript trims from a numeric string: the white space tab, vertical tab,
form feed and space, and the line terminators line feed and carriage return. -/
def isSpaceByte (b : UInt8) : Bool := (0x09 ≤ b && b ≤ 0x0D) || b == 0x20

/-- The bytes of an optional sign: `some true` is a minus. -/
def signBytes : Option Bool → List UInt8
  | none => []
  | some false => [0x2B]
  | some true => [0x2D]

/-- A decimal literal of ECMAScript's string numeric grammar (a `StrDecimalLiteral` other than
`Infinity`): an optional sign; whole digits and, after a point, fraction digits, with at least
one digit in all; and optionally an exponent mark (`E` when the flag is set, else `e`), an
optional sign and digits. Exponents are taken below 100000. -/
structure DecimalLiteral where
  sign : Option Bool
  whole : List Nat
  frac : Option (List Nat)
  exp : Option (Bool × Option Bool × List Nat)
  whole_lt : ∀ d ∈ whole, d < 10
  frac_lt : ∀ d ∈ frac.getD [], d < 10
  has_digit : whole ≠ [] ∨ frac.getD [] ≠ []
  exp_ok : ∀ upper s ex, exp = some (upper, s, ex) →
    ex ≠ [] ∧ (∀ d ∈ ex, d < 10) ∧ Digits.number ex < 100000

namespace DecimalLiteral

/-- The bytes of an exponent part. -/
def expBytes : Option (Bool × Option Bool × List Nat) → List UInt8
  | none => []
  | some (upper, s, ex) => (if upper then 0x45 else 0x65) :: (signBytes s ++ digitBytes ex)

/-- The bytes of the literal after its sign. -/
def unsignedBytes (t : DecimalLiteral) : List UInt8 :=
  digitBytes t.whole ++ pointBytes t.frac ++ expBytes t.exp

/-- The bytes of the literal. -/
def bytes (t : DecimalLiteral) : List UInt8 := signBytes t.sign ++ t.unsignedBytes

/-- Whether the literal has a minus sign. -/
def negative (t : DecimalLiteral) : Bool := t.sign == some true

/-- The digits of the literal as one integer. -/
def mantissa (t : DecimalLiteral) : Nat := Digits.number (t.whole ++ t.frac.getD [])

/-- The power of ten the integer of the digits is scaled by. -/
def exponent (t : DecimalLiteral) : Int :=
  (match t.exp with
    | none => 0
    | some (_, s, ex) => if s == some true then -(Digits.number ex : Int) else Digits.number ex) -
    (t.frac.getD []).length

/-- The value of the literal without its sign, ECMAScript's mathematical value. -/
def value (t : DecimalLiteral) : ℚ := t.mantissa * 10 ^ t.exponent

/-- The bytes a decimal literal is made of: a sign, a point, an exponent mark of either case, or
a digit. -/
def LiteralByte (x : UInt8) : Prop :=
  x.toNat = 0x2B ∨ x.toNat = 0x2D ∨ x.toNat = 0x2E ∨ x.toNat = 0x45 ∨ x.toNat = 0x65 ∨
    (0x30 ≤ x.toNat ∧ x.toNat ≤ 0x39)

theorem literalByte_of_digit {ds : List Nat} (h : ∀ d ∈ ds, d < 10) {x : UInt8}
    (hx : x ∈ digitBytes ds) : LiteralByte x := by
  obtain ⟨d, hd, rfl⟩ := List.mem_map.1 hx
  have hd10 := h d hd
  have := toNat_digitByte hd10
  unfold LiteralByte
  omega

theorem literalByte_of_sign {s : Option Bool} {x : UInt8} (hx : x ∈ signBytes s) :
    LiteralByte x := by
  unfold LiteralByte
  rcases s with _ | _ | _ <;> simp [signBytes] at hx <;> subst hx <;> decide

theorem unsignedBytes_literalByte (t : DecimalLiteral) : ∀ x ∈ t.unsignedBytes, LiteralByte x := by
  intro x hx
  simp only [unsignedBytes, List.mem_append] at hx
  rcases hx with (hx | hx) | hx
  · exact literalByte_of_digit t.whole_lt hx
  · cases hf : t.frac with
    | none => simp [hf, pointBytes] at hx
    | some fr =>
      rw [hf, pointBytes, List.mem_cons] at hx
      rcases hx with rfl | hx
      · unfold LiteralByte
        decide
      · exact literalByte_of_digit (by simpa [hf] using t.frac_lt) hx
  · cases he : t.exp with
    | none => simp [he, expBytes] at hx
    | some p =>
      obtain ⟨upper, s, ex⟩ := p
      obtain ⟨-, hlt, -⟩ := t.exp_ok upper s ex he
      rw [he, expBytes, List.mem_cons, List.mem_append] at hx
      rcases hx with rfl | hx | hx
      · unfold LiteralByte
        cases upper <;> decide
      · exact literalByte_of_sign hx
      · exact literalByte_of_digit hlt hx

theorem bytes_literalByte (t : DecimalLiteral) : ∀ x ∈ t.bytes, LiteralByte x := by
  intro x hx
  rw [bytes, List.mem_append] at hx
  rcases hx with hx | hx
  · exact literalByte_of_sign hx
  · exact t.unsignedBytes_literalByte x hx

/-- The unsigned literal starts with a digit or a point. -/
theorem unsignedBytes_head (t : DecimalLiteral) :
    ∃ u us, t.unsignedBytes = u :: us ∧ (u.toNat = 0x2E ∨ (0x30 ≤ u.toNat ∧ u.toNat ≤ 0x39)) := by
  cases hw : t.whole with
  | cons d ds =>
    have hd10 := t.whole_lt d (by simp [hw])
    have hd := toNat_digitByte hd10
    refine ⟨(48 + d).toUInt8, digitBytes ds ++ pointBytes t.frac ++ expBytes t.exp, ?_,
      .inr (by omega)⟩
    rw [unsignedBytes, hw, digitBytes_cons, List.cons_append, List.cons_append]
  | nil =>
    cases hf : t.frac with
    | none =>
      have := t.has_digit
      simp [hw, hf] at this
    | some fr =>
      refine ⟨0x2E, digitBytes fr ++ expBytes t.exp, ?_, .inl rfl⟩
      rw [unsignedBytes, hw, hf, pointBytes]
      rfl

/-- The first byte after the sign, a digit or a point, is no sign and no first letter of
`infinity` or `nan`. -/
theorem headByte_beq {u k : UInt8} (hu : u.toNat = 0x2E ∨ (0x30 ≤ u.toNat ∧ u.toNat ≤ 0x39))
    (hk : k.toNat = 0x2B ∨ k.toNat = 0x2D ∨ k.toNat = 0x69 ∨ k.toNat = 0x6E) : (u == k) = false := by
  rw [beq_eq_false_iff_ne, ne_eq, UInt8.ext_iff]
  omega

theorem mantissaDigits_expBytes (e : Option (Bool × Option Bool × List Nat)) (m : Nat) (frac : Int)
    (dot any us : Bool) :
    mantissaDigits false (expBytes e) m frac dot any us = (m, frac, any, us, expBytes e) := by
  rcases e with _ | ⟨upper, s, ex⟩
  · rfl
  · cases upper <;> rfl

/-- The reader's digits of an unsigned literal: the integer of its digits, the count of fraction
digits, that some digit was read, and the exponent part left over. -/
theorem mantissaDigits_unsigned (t : DecimalLiteral) :
    mantissaDigits false t.unsignedBytes 0 0 false false false =
      (t.mantissa, ((t.frac.getD []).length : Int), true, false, expBytes t.exp) := by
  rw [unsignedBytes, List.append_assoc, mantissaDigits_digitBytes t.whole_lt]
  simp only [Nat.zero_mul, Nat.zero_add, Bool.false_eq_true, if_false, Bool.false_or]
  cases hf : t.frac with
  | none =>
    have hw : t.whole ≠ [] := by simpa [hf] using t.has_digit
    simp [pointBytes, mantissaDigits_expBytes, mantissa, hf, hw]
  | some fr =>
    have hfr : ∀ d ∈ fr, d < 10 := by simpa [hf] using t.frac_lt
    have hany : (!t.whole.isEmpty || !fr.isEmpty) = true := by
      rcases t.has_digit with h | h
      · simp [h]
      · rw [hf, Option.getD_some] at h
        simp [h]
    rw [pointBytes, List.cons_append, DecimalText.mantissaDigits_point, mantissaDigits_digitBytes hfr,
      mantissaDigits_expBytes]
    simp only [mantissa, hf, Option.getD_some, Prod.mk.injEq, hany, and_true]
    exact ⟨(Digits.number_append _ _).symm, by simp⟩

/-- No byte of a decimal literal is the `x` of a hexadecimal prefix, in either case. -/
theorem lower_ne_x {x : UInt8} (hx : LiteralByte x) : (lower x == 0x78) = false := by
  unfold LiteralByte at hx
  rw [beq_eq_false_iff_ne, ne_eq, UInt8.ext_iff]
  unfold lower
  split
  · rename_i hcase
    simp only [Bool.and_eq_true, decide_eq_true_eq, UInt8.le_iff_toNat_le] at hcase
    rw [UInt8.toNat_add]
    simp only [UInt8.toNat_ofNat] at hcase ⊢
    omega
  · simp only [UInt8.toNat_ofNat]
    omega

/-- The float reader takes a decimal literal apart into its sign, the integer of its digits and
the power of ten that scales it, reading every byte. -/
theorem literal_bytes (t : DecimalLiteral) :
    literal t.bytes = some ⟨t.negative, t.mantissa, t.exponent, 10, t.bytes.length⟩ := by
  obtain ⟨u, us, hu, hu0⟩ := t.unsignedBytes_head
  have hplus : (u == 0x2B) = false := headByte_beq hu0 (by decide)
  have hminus : (u == 0x2D) = false := headByte_beq hu0 (by decide)
  have hx : ∀ x ∈ us, (lower x == 0x78) = false := fun x hx =>
    lower_ne_x (t.unsignedBytes_literalByte x (by rw [hu]; exact List.mem_cons_of_mem _ hx))
  have hdigits := t.mantissaDigits_unsigned
  have hsigns : ((0x2D : UInt8) == 0x2B) = false := by decide
  unfold literal
  -- the sign, if any, is read first
  rcases hs : t.sign with _ | _ | _
  all_goals
    simp only [bytes, hs, signBytes, hu, List.nil_append, List.cons_append, hplus, hminus, hsigns,
      Bool.false_eq_true, if_false, if_true, beq_self_eq_true]
  -- the second byte after the sign is no `x`: the literal is decimal
  all_goals
    split
    case' h_1 _ _ x _ _ heq =>
      have hx' : (lower x == 0x78) = false := by
        simp only [List.cons.injEq] at heq
        exact hx x (by rw [heq.2]; simp)
      simp only [hx', Bool.and_false, Bool.false_eq_true, if_false]
    all_goals
      rw [← hu, hdigits]
  all_goals
    simp only [Bool.not_true, Bool.false_eq_true, if_false]
    rcases hexp : t.exp with _ | ⟨upper, sg, ex⟩
    · simp [expBytes, exponent, negative, hs, hexp]
    · -- an exponent mark, its sign, and the exponent's digits, read to the end
      obtain ⟨hne, hlt, hsmall⟩ := t.exp_ok upper sg ex hexp
      obtain ⟨d, ds, rfl⟩ := List.exists_cons_of_ne_nil hne
      have hd := hlt d (by simp)
      have hexpd := exponentDigits_digitBytes hlt 0 false (by simpa using hsmall)
      rw [Nat.zero_mul, Nat.zero_add, digitBytes_cons] at hexpd
      have hfirst : isDigit (48 + d).toUInt8 = true := isDigit_of_lt_ten hd
      have hlowerE : lower (if upper then 0x45 else 0x65) = 0x65 := by cases upper <;> decide
      have hplusD := digitByte_beq hd (k := 0x2B) (by decide)
      have hminusD := digitByte_beq hd (k := 0x2D) (by decide)
      rcases sg with _ | _ | _
      all_goals
        simp only [expBytes, hlowerE, signBytes, digitBytes_cons, List.nil_append,
          List.cons_append, beq_self_eq_true, hplusD, hminusD, hsigns, hfirst, hexpd,
          Bool.false_eq_true, if_false, if_true, Bool.or_false, Bool.false_and,
          List.length_nil, Nat.sub_zero, Option.some.injEq]
      all_goals
        simp [Literal.mk.injEq, negative, exponent, hs, hexp]
        omega

/-- A decimal literal is no infinity or NaN to the float reader: after its sign comes a digit
or a point. -/
theorem special_bytes (t : DecimalLiteral) : special t.bytes = none := by
  obtain ⟨u, us, hu, hu0⟩ := t.unsignedBytes_head
  have hlower : lower u = u := by
    unfold lower
    rw [if_neg]
    simp only [Bool.and_eq_true, decide_eq_true_eq, UInt8.le_iff_toNat_le, UInt8.toNat_ofNat]
    omega
  have hne : ∀ k : UInt8, k.toNat = 0x2B ∨ k.toNat = 0x2D ∨ k.toNat = 0x69 ∨ k.toNat = 0x6E →
      (u == k) = false := fun _ hk => headByte_beq hu0 hk
  have hprefix : commonPrefixIgnoringCase (u :: us) "infinity".toList = 0 := by
    rw [show "infinity".toList = 'i' :: "nfinity".toList from rfl, commonPrefixIgnoringCase,
      hlower, hne (Char.toNat 'i').toUInt8 (by decide), if_neg Bool.false_ne_true]
  rcases hs : t.sign with _ | _ | _
  all_goals
    simp only [special, bytes, hs, signBytes, hu, List.nil_append, List.cons_append, hlower,
      hne 0x2B (by decide), hne 0x2D (by decide), hne 0x69 (by decide), hne 0x6E (by decide),
      hprefix, Bool.or_self, Bool.false_eq_true, if_false, if_true, beq_self_eq_true,
      Bool.true_or, Bool.or_true]
  -- after a sign, no letter of `infinity` is read
  all_goals rfl

/-- A decimal literal reads as the binary64 number nearest its value, with its sign, unless that
overflows. -/
theorem float_bytes (t : DecimalLiteral) :
    float t.bytes =
      let q := decimalQuotient t.mantissa t.exponent
      if (Binary64.round t.negative q.1 q.2).2 then .error .range
      else .ok (Binary64.round t.negative q.1 q.2).1 := by
  simp only [float, special_bytes, literal_bytes, bne_self_eq_false, Bool.false_eq_true, if_false,
    decimalQuotient]
  split <;> rfl

end DecimalLiteral

end Ecma

namespace Value

/-- An ASCII byte read as a character. -/
def asciiPiece (b : UInt8) : Piece := .char (Char.ofNat b.toNat)

theorem pieces_ascii : ∀ l : List UInt8, (∀ b ∈ l, b.toNat < 0x80) →
    Utf8.pieces l = l.map asciiPiece
  | [], _ => by simp [Utf8.pieces]
  | b :: rest, h => by
    have hb : b < 0x80 := by
      rw [UInt8.lt_iff_toNat_lt]
      exact h b (by simp)
    -- an ASCII byte decodes alone, consuming no continuation bytes
    have hfirst : Utf8.decodeFirst b rest = some (Char.ofNat b.toNat, 0) := by
      unfold Utf8.decodeFirst
      rw [if_pos hb]
    rw [Utf8.pieces.eq_def]
    simp only [hfirst, List.drop_zero, pieces_ascii rest fun x hx => h x (by simp [hx]),
      List.map_cons]
    rfl

theorem piecesBytes_ascii (l : List UInt8) (h : ∀ b ∈ l, b.toNat < 0x80) :
    piecesBytes (l.map asciiPiece) = l := by
  induction l with
  | nil => rfl
  | cons b rest ih =>
    rw [List.map_cons, piecesBytes, List.flatMap_cons, ← piecesBytes,
      ih fun x hx => h x (by simp [hx])]
    simp only [asciiPiece, Utf8.encode_one (h b (by simp)), List.singleton_append]

theorem isSpacePiece_ascii {b : UInt8} (h : b.toNat < 0x80) :
    isSpacePiece (asciiPiece b) = Ecma.isSpaceByte b := by
  have hc : (Char.ofNat b.toNat).toNat = b.toNat := Utf8.toNat_ofNat_of_lt (.inl (by omega))
  rw [Bool.eq_iff_iff]
  simp only [isSpacePiece, asciiPiece, hc, Unicode.isSpace, Ecma.isSpaceByte, Bool.or_eq_true,
    Bool.and_eq_true, decide_eq_true_eq, beq_iff_eq, UInt8.le_iff_toNat_le, UInt8.ext_iff]
  simp only [UInt8.toNat_ofNat]
  omega

theorem toNat_lt_of_isSpaceByte {b : UInt8} (h : Ecma.isSpaceByte b = true) : b.toNat < 0x80 := by
  simp only [Ecma.isSpaceByte, Bool.or_eq_true, Bool.and_eq_true, decide_eq_true_eq, beq_iff_eq,
    UInt8.le_iff_toNat_le, UInt8.ext_iff] at h
  simp only [UInt8.toNat_ofNat] at h
  omega

/-- White space read as characters is dropped by a trim. -/
theorem dropWhile_spaces {w : List UInt8} (hw : ∀ x ∈ w, Ecma.isSpaceByte x = true)
    (rest : List Piece) :
    (w.map asciiPiece ++ rest).dropWhile isSpacePiece = rest.dropWhile isSpacePiece := by
  refine List.dropWhile_append_of_pos fun p hp => ?_
  obtain ⟨x, hx, rfl⟩ := List.mem_map.1 hp
  rw [isSpacePiece_ascii (toNat_lt_of_isSpaceByte (hw x hx))]
  exact hw x hx

/-- Trimming white space around an ASCII text with no white space in it gives the text. -/
theorem trimSpace_around {pre body post : List UInt8}
    (hpre : ∀ x ∈ pre, Ecma.isSpaceByte x = true) (hpost : ∀ x ∈ post, Ecma.isSpaceByte x = true)
    (hbody : ∀ x ∈ body, x.toNat < 0x80 ∧ Ecma.isSpaceByte x = false) (hne : body ≠ []) :
    trimSpace ⟨pre ++ body ++ post⟩ = ⟨body⟩ := by
  have hascii : ∀ x ∈ pre ++ body ++ post, x.toNat < 0x80 :=
    List.forall_mem_append.2 ⟨List.forall_mem_append.2
      ⟨fun x hx => toNat_lt_of_isSpaceByte (hpre x hx), fun x hx => (hbody x hx).1⟩,
      fun x hx => toNat_lt_of_isSpaceByte (hpost x hx)⟩
  have hkeep : ∀ x ∈ body, isSpacePiece (asciiPiece x) = false := fun x hx => by
    rw [isSpacePiece_ascii (hbody x hx).1]
    exact (hbody x hx).2
  -- the leading spaces go, and the text's first byte stays
  obtain ⟨b, bs, rfl⟩ := List.exists_cons_of_ne_nil hne
  have hfront : ((pre ++ b :: bs ++ post).map asciiPiece).dropWhile isSpacePiece =
      (b :: bs).map asciiPiece ++ post.map asciiPiece := by
    rw [List.map_append, List.map_append, List.append_assoc, dropWhile_spaces hpre,
      List.map_cons, List.cons_append, List.dropWhile_cons_of_neg (by simp [hkeep b (by simp)])]
  -- the trailing spaces go, and the text's last byte stays
  obtain ⟨c, cs, hrev⟩ := List.exists_cons_of_ne_nil (List.reverse_ne_nil_iff.2 hne)
  have hback : (((b :: bs).map asciiPiece ++ post.map asciiPiece).reverse.dropWhile
      isSpacePiece).reverse = (b :: bs).map asciiPiece := by
    have hc : c ∈ b :: bs := List.mem_reverse.1 (by rw [hrev]; simp)
    rw [List.reverse_append, ← List.map_reverse, dropWhile_spaces (fun x hx => hpost x
      (List.mem_reverse.1 hx)), ← List.map_reverse, hrev, List.map_cons,
      List.dropWhile_cons_of_neg (by simp [hkeep c hc]), ← List.map_cons, ← hrev,
      List.map_reverse, List.reverse_reverse]
  unfold trimSpace
  simp only [Bytes.pieces, pieces_ascii _ hascii, hfront, hback,
    piecesBytes_ascii _ fun x hx => (hbody x hx).1]

/-- Trimming a string of white space leaves nothing. -/
theorem trimSpace_spaces {w : List UInt8} (hw : ∀ x ∈ w, Ecma.isSpaceByte x = true) :
    trimSpace ⟨w⟩ = Bytes.empty := by
  have hdrop := dropWhile_spaces hw []
  rw [List.append_nil] at hdrop
  unfold trimSpace
  simp only [Bytes.pieces, pieces_ascii _ fun x hx => toNat_lt_of_isSpaceByte (hw x hx), hdrop]
  rfl

/-- A string of white space is the number 0. -/
theorem stringToNumber_spaces {w : List UInt8} (hw : ∀ x ∈ w, Ecma.isSpaceByte x = true) :
    stringToNumber ⟨w⟩ = 0 := by
  rw [stringToNumber, trimSpace_spaces hw]
  rfl

/-- `Infinity` with an optional sign, in white space, is the infinity of that sign. -/
theorem stringToNumber_infinity {pre post : List UInt8}
    (hpre : ∀ x ∈ pre, Ecma.isSpaceByte x = true) (hpost : ∀ x ∈ post, Ecma.isSpaceByte x = true)
    (sign : Option Bool) :
    stringToNumber ⟨pre ++ (Ecma.signBytes sign ++ (Bytes.ofString "Infinity").toList) ++ post⟩ =
      Binary64.infinity (sign == some true) := by
  have hbody : ∀ x ∈ Ecma.signBytes sign ++ (Bytes.ofString "Infinity").toList,
      x.toNat < 0x80 ∧ Ecma.isSpaceByte x = false := by
    rcases sign with _ | _ | _ <;> decide +kernel
  rw [stringToNumber,
    trimSpace_around hpre hpost hbody (by rcases sign with _ | _ | _ <;> decide +kernel)]
  rcases sign with _ | _ | _ <;> rfl

/-- The bytes of a decimal literal are no white space and no `I`. -/
theorem literalByte_ne {x : UInt8} (hx : Ecma.DecimalLiteral.LiteralByte x) :
    x.toNat < 0x80 ∧ Ecma.isSpaceByte x = false ∧ x ≠ 0x49 := by
  unfold Ecma.DecimalLiteral.LiteralByte at hx
  refine ⟨by omega, ?_, fun h => ?_⟩
  · simp only [Ecma.isSpaceByte, Bool.or_eq_false_iff, Bool.and_eq_false_iff, decide_eq_false_iff_not,
      UInt8.le_iff_toNat_le, beq_eq_false_iff_ne, ne_eq, UInt8.ext_iff, UInt8.toNat_ofNat]
    omega
  · rw [UInt8.ext_iff] at h
    simp only [UInt8.toNat_ofNat] at h
    omega

/-- A decimal literal in white space is read by the float reader, NaN when its value overflows. -/
theorem stringToNumber_literal {pre post : List UInt8}
    (hpre : ∀ x ∈ pre, Ecma.isSpaceByte x = true) (hpost : ∀ x ∈ post, Ecma.isSpaceByte x = true)
    (t : Ecma.DecimalLiteral) :
    stringToNumber ⟨pre ++ t.bytes ++ post⟩ =
      let q := decimalQuotient t.mantissa t.exponent
      if (Binary64.round t.negative q.1 q.2).2 then 0.0 / 0.0
      else (Binary64.round t.negative q.1 q.2).1 := by
  -- the literal has no white space and is not empty, so the trim returns it whole
  have hbytes := fun x hx => literalByte_ne (t.bytes_literalByte x hx)
  obtain ⟨u, us, hu, -⟩ := t.unsignedBytes_head
  have hne : t.bytes ≠ [] := by simp [Ecma.DecimalLiteral.bytes, hu]
  -- the literal is none of the texts read before the float reader
  have hother : ∀ w : String, (0x49 : UInt8) ∈ (Bytes.ofString w).toList →
      ((⟨t.bytes⟩ : Bytes) == Bytes.ofString w) = false := by
    intro w hw
    rw [beq_eq_false_iff_ne]
    intro heq
    rw [← heq] at hw
    exact (hbytes _ hw).2.2 rfl
  have hempty : ((⟨t.bytes⟩ : Bytes) == Bytes.empty) = false := by
    rw [beq_eq_false_iff_ne]
    intro heq
    exact hne (congrArg Bytes.toList heq)
  rw [stringToNumber, trimSpace_around hpre hpost (fun x hx => ⟨(hbytes x hx).1, (hbytes x hx).2.1⟩)
    hne]
  simp only [hempty, hother "Infinity" (by decide), hother "+Infinity" (by decide),
    hother "-Infinity" (by decide), Bool.or_self, Bool.false_eq_true, if_false,
    Ecma.DecimalLiteral.float_bytes]
  cases (Binary64.round t.negative (decimalQuotient t.mantissa t.exponent).1
    (decimalQuotient t.mantissa t.exponent).2).2 <;> rfl

section Literal

variable {pre post : List UInt8} (hpre : ∀ x ∈ pre, Ecma.isSpaceByte x = true)
  (hpost : ∀ x ∈ post, Ecma.isSpaceByte x = true)
include hpre hpost

/-- A literal of value zero reads as the zero of its sign. -/
theorem stringToNumber_literal_zero (t : Ecma.DecimalLiteral) (h0 : t.mantissa = 0) :
    (stringToNumber ⟨pre ++ t.bytes ++ post⟩).toModel.unpack =
      .zero (Binary64.signOf t.negative) := by
  have hq : (decimalQuotient t.mantissa t.exponent).1 = 0 := by
    unfold decimalQuotient
    split <;> simp [h0]
  rw [stringToNumber_literal hpre hpost t]
  -- rounding a zero numerator packs the zero fields with the sign, and never overflows
  simp only [Binary64.round, hq, beq_self_eq_true, Bool.true_or, if_true, Bool.false_eq_true,
    if_false]
  rw [Binary64.unpack_ofFields _ (by decide) (by decide),
    Binary64.unpack_packComponents_fields _ (by decide) (by decide)]
  rfl

/-- A literal whose value rounds to the finite nonzero float `m · 2^e` reads as that float, with
the literal's sign. -/
theorem stringToNumber_literal_rounds (t : Ecma.DecimalLiteral) {m : Nat} {e : Int} (hm : 0 < m)
    (hr : Unpacked.Rounded m e) (he : e ≤ 971) (hq : Binary64.RoundsTo m e t.value) :
    (stringToNumber ⟨pre ++ t.bytes ++ post⟩).toModel.unpack =
      .finite (Binary64.signOf t.negative) m e hm := by
  have hdiv := decimalQuotient_div t.mantissa t.exponent
  -- the value is positive, so the integer of the quotient is
  have hpos : 0 < t.value := by
    have hlo := hq.bounds.1
    have hm1 : (1 : ℚ) ≤ m := by exact_mod_cast hm
    have h2 : (0 : ℚ) < 2 ^ e := by positivity
    nlinarith
  have hnum : 0 < (decimalQuotient t.mantissa t.exponent).1 := by
    refine Nat.pos_of_ne_zero fun h0 => ?_
    rw [h0, Nat.cast_zero, zero_div] at hdiv
    exact hpos.ne' (by rw [Ecma.DecimalLiteral.value]; exact hdiv.symm)
  have hden : 0 < (decimalQuotient t.mantissa t.exponent).2 := by
    unfold decimalQuotient
    split <;> positivity
  obtain ⟨hover, hunpack⟩ := Binary64.round_of_roundsTo t.negative hm hr he hnum hden
    (by rw [hdiv]; exact hq)
  rw [stringToNumber_literal hpre hpost t]
  simp only [hover, Bool.false_eq_true, if_false]
  exact hunpack

end Literal

/-- A primitive's number is ECMAScript's `ToNumber` of it: NaN for undefined, 0 for null, 0 or 1
for the booleans, and a number itself. For an ASCII string of white space around nothing, around
`Infinity` with an optional sign, or around a decimal literal, it is 0, the infinity of that
sign, and the literal's value rounded to the nearest float with the literal's sign, whenever that
value is zero or rounds to a finite nonzero float. -/
theorem toNumber_agrees_ecma (pre post : List UInt8) (hpre : ∀ x ∈ pre, Ecma.isSpaceByte x = true)
    (hpost : ∀ x ∈ post, Ecma.isSpaceByte x = true) :
    isNaN Value.undefined.toNumber = true ∧ Value.null.toNumber = 0 ∧
      (∀ b : Bool, (Value.bool b).toNumber = if b then 1 else 0) ∧
      (∀ n : Float, (Value.number n).toNumber = n) ∧
      (Value.string ⟨pre ++ post⟩).toNumber = 0 ∧
      (∀ sign : Option Bool,
        (Value.string ⟨pre ++ (Ecma.signBytes sign ++ (Bytes.ofString "Infinity").toList) ++
          post⟩).toNumber = Binary64.infinity (sign == some true)) ∧
      ∀ t : Ecma.DecimalLiteral,
        (t.mantissa = 0 → (Value.string ⟨pre ++ t.bytes ++ post⟩).toNumber.toModel.unpack =
          .zero (Binary64.signOf t.negative)) ∧
        ∀ (m : Nat) (e : Int) (hm : 0 < m), Unpacked.Rounded m e → e ≤ 971 →
          Binary64.RoundsTo m e t.value →
          (Value.string ⟨pre ++ t.bytes ++ post⟩).toNumber.toModel.unpack =
            .finite (Binary64.signOf t.negative) m e hm := by
  have hspaces : ∀ x ∈ pre ++ post, Ecma.isSpaceByte x = true :=
    List.forall_mem_append.2 ⟨hpre, hpost⟩
  exact ⟨by decide +kernel, rfl, fun _ => rfl, fun _ => rfl, stringToNumber_spaces hspaces,
    stringToNumber_infinity hpre hpost, fun t => ⟨stringToNumber_literal_zero hpre hpost t,
      fun _ _ hm hr he hq => stringToNumber_literal_rounds hpre hpost t hm hr he hq⟩⟩

theorem toNumber_agrees_ecma_half :
    let t : Ecma.DecimalLiteral := ⟨none, [0], some [5], none, by decide, by decide, by decide,
      by simp⟩
    (∀ x ∈ [(0x20 : UInt8)], Ecma.isSpaceByte x = true) ∧
      (∀ x ∈ [(0x0A : UInt8)], Ecma.isSpaceByte x = true) ∧
      Unpacked.Rounded (2 ^ 52) (-53) ∧ Binary64.RoundsTo (2 ^ 52) (-53) t.value ∧
      (Value.string ⟨[0x20] ++ t.bytes ++ [0x0A]⟩).toNumber.toModel.unpack =
        .finite (Binary64.signOf t.negative) (2 ^ 52) (-53) (by positivity) := by
  intro t
  have hpre : ∀ x ∈ [(0x20 : UInt8)], Ecma.isSpaceByte x = true := by decide +kernel
  have hpost : ∀ x ∈ [(0x0A : UInt8)], Ecma.isSpaceByte x = true := by decide +kernel
  have hr : Unpacked.Rounded (2 ^ 52) (-53) := ⟨by decide, by decide, .inl Nat.log2_two_pow⟩
  have hv : t.value = 1 / 2 := by
    simp [t, Ecma.DecimalLiteral.value, Ecma.DecimalLiteral.mantissa,
      Ecma.DecimalLiteral.exponent, Digits.number]
    norm_num
  have hq : Binary64.RoundsTo (2 ^ 52) (-53) t.value := by
    rw [hv, Binary64.RoundsTo]
    norm_num
  exact ⟨hpre, hpost, hr, hq,
    ((toNumber_agrees_ecma [0x20] [0x0A] hpre hpost).2.2.2.2.2.2 t).2 _ _ _ hr (by norm_num) hq⟩

/-- Where the reading departs from ECMAScript's: a hexadecimal integer literal is NaN rather than
its value, a literal past the float range is NaN rather than an infinity, and `inf` is an infinity
rather than NaN. -/
theorem toNumber_radix_and_range :
    isNaN (Value.string (Bytes.ofString "0x10")).toNumber = true ∧
      isNaN (Value.string (Bytes.ofString "1e400")).toNumber = true ∧
      (Value.string (Bytes.ofString "inf")).toNumber.toBits = (Binary64.infinity false).toBits := by
  decide +kernel

end Value

end TraceSynth
