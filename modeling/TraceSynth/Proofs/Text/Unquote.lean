import Mathlib
import TraceSynth.Text.Quoted

/-!
# Quoted literals read back

`Quoted.quote` writes a byte string as a double-quoted literal, and `Quoted.unquote` reads a
literal back into bytes. Reading a written literal gives back the bytes it was written from
(`Quoted.unquote_quote`): this is how a program's string constants survive its text.

The bytes are split into units (`Bytes.pieces`): the characters of well-formed UTF-8 sequences,
and stray bytes. Each unit is written on its own and read back on its own.

* UTF-8: a character's encoding decodes to it, and a well-formed sequence is the encoding of
  the character it decodes to (`Utf8.decodeFirst_encode`, `Utf8.encode_of_decodeFirst`), so the
  units of a byte string spell it again (`Utf8.flatMap_pieces`).
* A written unit reads back as the bytes it stands for, whatever follows it
  (`Quoted.unquoteBody_written`): printable characters as themselves, the quote and the
  backslash after a backslash, and everything else through a letter, `\x`, `\u` or `\U` escape.
-/

namespace TraceSynth

namespace Utf8

/-- The bytes a unit stands for. -/
def pieceBytes : Piece → List UInt8
  | .char c => encode c.toNat
  | .stray b => [b]

theorem toNat_ofNat_of_lt {n : Nat} (h : n < 0xD800 ∨ (0xDFFF < n ∧ n < 0x110000)) :
    (Char.ofNat n).toNat = n := by
  rw [Char.toNat_ofNat, if_pos h]

theorem toUInt8_eq {n : Nat} {b : UInt8} (h : n = b.toNat) : n.toUInt8 = b := by
  subst h
  exact UInt8.ofNat_toNat

theorem within_iff {lo hi b : UInt8} :
    within lo hi b = true ↔ lo.toNat ≤ b.toNat ∧ b.toNat ≤ hi.toNat := by
  simp [within, UInt8.le_iff_toNat_le]

theorem encode_one {b0 : UInt8} (h0 : b0.toNat < 0x80) :
    encode (Char.ofNat b0.toNat).toNat = [b0] := by
  rw [toNat_ofNat_of_lt (.inl (by omega))]
  simp [encode, h0, toUInt8_eq rfl]

theorem encode_two {b0 b1 : UInt8} (h0 : 0xC2 ≤ b0.toNat ∧ b0.toNat ≤ 0xDF)
    (h1 : 0x80 ≤ b1.toNat ∧ b1.toNat ≤ 0xBF) :
    encode (Char.ofNat ((b0.toNat - 0xC0) * 0x40 + b1.toNat % 0x40)).toNat = [b0, b1] := by
  rw [toNat_ofNat_of_lt (.inl (by omega))]
  unfold encode
  rw [if_neg (by omega), if_pos (by omega), toUInt8_eq (b := b0) (by omega),
    toUInt8_eq (b := b1) (by omega)]

theorem encode_three {b0 b1 b2 : UInt8} (h0 : 0xE0 ≤ b0.toNat ∧ b0.toNat ≤ 0xEF)
    (h1 : 0x80 ≤ b1.toNat ∧ b1.toNat ≤ 0xBF) (h2 : 0x80 ≤ b2.toNat ∧ b2.toNat ≤ 0xBF)
    (hv : 0x800 ≤ (b0.toNat - 0xE0) * 0x1000 + b1.toNat % 0x40 * 0x40 + b2.toNat % 0x40 ∧
      ((b0.toNat - 0xE0) * 0x1000 + b1.toNat % 0x40 * 0x40 + b2.toNat % 0x40 < 0xD800 ∨
        0xDFFF < (b0.toNat - 0xE0) * 0x1000 + b1.toNat % 0x40 * 0x40 + b2.toNat % 0x40)) :
    encode (Char.ofNat ((b0.toNat - 0xE0) * 0x1000 + b1.toNat % 0x40 * 0x40 +
      b2.toNat % 0x40)).toNat = [b0, b1, b2] := by
  rw [toNat_ofNat_of_lt (by omega)]
  unfold encode
  rw [if_neg (by omega), if_neg (by omega), if_pos (by omega), toUInt8_eq (b := b0) (by omega),
    toUInt8_eq (b := b1) (by omega), toUInt8_eq (b := b2) (by omega)]

theorem encode_four {b0 b1 b2 b3 : UInt8} (h0 : 0xF0 ≤ b0.toNat ∧ b0.toNat ≤ 0xF4)
    (h1 : 0x80 ≤ b1.toNat ∧ b1.toNat ≤ 0xBF) (h2 : 0x80 ≤ b2.toNat ∧ b2.toNat ≤ 0xBF)
    (h3 : 0x80 ≤ b3.toNat ∧ b3.toNat ≤ 0xBF)
    (hv : 0x10000 ≤ (b0.toNat - 0xF0) * 0x40000 + b1.toNat % 0x40 * 0x1000 +
        b2.toNat % 0x40 * 0x40 + b3.toNat % 0x40 ∧
      (b0.toNat - 0xF0) * 0x40000 + b1.toNat % 0x40 * 0x1000 + b2.toNat % 0x40 * 0x40 +
        b3.toNat % 0x40 < 0x110000) :
    encode (Char.ofNat ((b0.toNat - 0xF0) * 0x40000 + b1.toNat % 0x40 * 0x1000 +
      b2.toNat % 0x40 * 0x40 + b3.toNat % 0x40)).toNat = [b0, b1, b2, b3] := by
  rw [toNat_ofNat_of_lt (.inr ⟨by omega, hv.2⟩)]
  unfold encode
  rw [if_neg (by omega), if_neg (by omega), if_neg (by omega), toUInt8_eq (b := b0) (by omega),
    toUInt8_eq (b := b1) (by omega), toUInt8_eq (b := b2) (by omega),
    toUInt8_eq (b := b3) (by omega)]

/-- A well-formed sequence is the encoding of the character it decodes to. -/
theorem encode_of_decodeFirst {b0 : UInt8} {rest : List UInt8} {c : Char} {n : Nat}
    (h : decodeFirst b0 rest = some (c, n)) : encode c.toNat = b0 :: rest.take n := by
  have hb0 := b0.toNat_lt
  unfold decodeFirst at h
  split at h
  · cases h
    exact encode_one (by assumption)
  split at h
  · rename_i hr
    simp only [Bool.and_eq_true, decide_eq_true_eq, UInt8.le_iff_toNat_le] at hr
    split at h
    · rename_i b1 tail
      split at h
      · rename_i hw
        cases h
        exact encode_two (by simpa using hr) (by simpa using within_iff.1 hw)
      · cases h
    · cases h
  split at h
  · rename_i hr
    simp only [Bool.and_eq_true, decide_eq_true_eq, UInt8.le_iff_toNat_le] at hr
    -- the range of the second byte keeps the code point at three bytes and off the surrogates
    generalize hlh : (if b0 = 224 then ((160 : UInt8), (191 : UInt8)) else if b0 = 237 then
      (128, 159) else (128, 191)) = lh at h
    obtain ⟨lo, hi⟩ := lh
    dsimp only at h
    split at h
    · rename_i b1 b2 tail
      split at h
      · rename_i hw
        cases h
        simp only [Bool.and_eq_true, within_iff] at hw
        obtain ⟨⟨hlo, hhi⟩, h2⟩ := hw
        have hrange : 0x80 ≤ lo.toNat ∧ hi.toNat ≤ 0xBF ∧ (b0.toNat = 224 → lo.toNat = 160) ∧
            (b0.toNat = 237 → hi.toNat = 159) := by
          by_cases ha : b0 = 224
          · rw [if_pos ha] at hlh
            cases hlh
            subst ha
            decide
          by_cases hb : b0 = 237
          · rw [if_neg ha, if_pos hb] at hlh
            cases hlh
            subst hb
            decide
          rw [if_neg ha, if_neg hb] at hlh
          cases hlh
          exact ⟨by decide, by decide, fun h => absurd (UInt8.toNat_inj.1 h) ha,
            fun h => absurd (UInt8.toNat_inj.1 h) hb⟩
        have hr' : 0xE0 ≤ b0.toNat ∧ b0.toNat ≤ 0xEF := by simpa using hr
        exact encode_three hr' ⟨by omega, by omega⟩ h2 ⟨by omega, by omega⟩
      · cases h
    · cases h
  split at h
  · rename_i hr
    simp only [Bool.and_eq_true, decide_eq_true_eq, UInt8.le_iff_toNat_le] at hr
    -- the range of the second byte keeps the code point at four bytes and below U+110000
    generalize hlh : (if b0 = 240 then ((144 : UInt8), (191 : UInt8)) else if b0 = 244 then
      (128, 143) else (128, 191)) = lh at h
    obtain ⟨lo, hi⟩ := lh
    dsimp only at h
    split at h
    · rename_i b1 b2 b3 tail
      split at h
      · rename_i hw
        cases h
        simp only [Bool.and_eq_true, within_iff] at hw
        obtain ⟨⟨⟨hlo, hhi⟩, h2⟩, h3⟩ := hw
        have hrange : 0x80 ≤ lo.toNat ∧ hi.toNat ≤ 0xBF ∧ (b0.toNat = 240 → lo.toNat = 144) ∧
            (b0.toNat = 244 → hi.toNat = 143) := by
          by_cases ha : b0 = 240
          · rw [if_pos ha] at hlh
            cases hlh
            subst ha
            decide
          by_cases hb : b0 = 244
          · rw [if_neg ha, if_pos hb] at hlh
            cases hlh
            subst hb
            decide
          rw [if_neg ha, if_neg hb] at hlh
          cases hlh
          exact ⟨by decide, by decide, fun h => absurd (UInt8.toNat_inj.1 h) ha,
            fun h => absurd (UInt8.toNat_inj.1 h) hb⟩
        have hr' : 0xF0 ≤ b0.toNat ∧ b0.toNat ≤ 0xF4 := by simpa using hr
        exact encode_four hr' ⟨by omega, by omega⟩ h2 h3 ⟨by omega, by omega⟩
      · cases h
    · cases h
  · cases h

/-- The units of a byte list spell it again. -/
theorem flatMap_pieces (l : List UInt8) : (pieces l).flatMap pieceBytes = l := by
  fun_induction pieces l with
  | case1 => rfl
  | case2 b rest c n hd ih =>
    rw [List.flatMap_cons, ih, pieceBytes, encode_of_decodeFirst hd, List.cons_append,
      List.take_append_drop]
  | case3 b rest hd ih =>
    rw [List.flatMap_cons, ih]
    rfl

theorem toNat_toUInt8 {n : Nat} (h : n < 256) : n.toUInt8.toNat = n := by
  simp [Nat.toUInt8, Nat.mod_eq_of_lt h]

theorem decodeFirst_two {b0 b1 : UInt8} (rest : List UInt8) (h0 : 0xC2 ≤ b0.toNat ∧ b0.toNat ≤ 0xDF)
    (h1 : 0x80 ≤ b1.toNat ∧ b1.toNat ≤ 0xBF) :
    decodeFirst b0 (b1 :: rest) =
      some (Char.ofNat ((b0.toNat - 0xC0) * 0x40 + b1.toNat % 0x40), 1) := by
  unfold decodeFirst
  rw [if_neg (by simp [UInt8.lt_iff_toNat_lt]; omega),
    if_pos (by simp [UInt8.le_iff_toNat_le]; omega)]
  dsimp only
  rw [if_pos (within_iff.2 (by simpa using h1))]
  rfl

theorem decodeFirst_three {b0 b1 b2 : UInt8} (rest : List UInt8)
    (h0 : 0xE0 ≤ b0.toNat ∧ b0.toNat ≤ 0xEF)
    (h1 : 0x80 ≤ b1.toNat ∧ b1.toNat ≤ 0xBF ∧ (b0.toNat = 0xE0 → 0xA0 ≤ b1.toNat) ∧
      (b0.toNat = 0xED → b1.toNat ≤ 0x9F))
    (h2 : 0x80 ≤ b2.toNat ∧ b2.toNat ≤ 0xBF) :
    decodeFirst b0 (b1 :: b2 :: rest) =
      some (Char.ofNat ((b0.toNat - 0xE0) * 0x1000 + b1.toNat % 0x40 * 0x40 + b2.toNat % 0x40),
        2) := by
  unfold decodeFirst
  rw [if_neg (by simp [UInt8.lt_iff_toNat_lt]; omega),
    if_neg (by simp [UInt8.le_iff_toNat_le]; omega),
    if_pos (by simp [UInt8.le_iff_toNat_le]; omega)]
  have hw2 : within 0x80 0xBF b2 = true := within_iff.2 (by simpa using h2)
  -- whichever range the first byte picks for the second, the second byte is in it
  generalize hlh : (if b0 = 224 then ((160 : UInt8), (191 : UInt8)) else if b0 = 237 then
    (128, 159) else (128, 191)) = lh
  obtain ⟨lo, hi⟩ := lh
  have hw1 : within lo hi b1 = true := by
    refine within_iff.2 ?_
    by_cases ha : b0 = 224
    · rw [if_pos ha] at hlh
      cases hlh
      subst ha
      simp at h1 ⊢
      omega
    by_cases hb : b0 = 237
    · rw [if_neg ha, if_pos hb] at hlh
      cases hlh
      subst hb
      simp at h1 ⊢
      omega
    rw [if_neg ha, if_neg hb] at hlh
    cases hlh
    simp at h1 ⊢
    omega
  dsimp only
  rw [if_pos (by rw [hw1, hw2]; rfl), low, low]

theorem decodeFirst_four {b0 b1 b2 b3 : UInt8} (rest : List UInt8)
    (h0 : 0xF0 ≤ b0.toNat ∧ b0.toNat ≤ 0xF4)
    (h1 : 0x80 ≤ b1.toNat ∧ b1.toNat ≤ 0xBF ∧ (b0.toNat = 0xF0 → 0x90 ≤ b1.toNat) ∧
      (b0.toNat = 0xF4 → b1.toNat ≤ 0x8F))
    (h2 : 0x80 ≤ b2.toNat ∧ b2.toNat ≤ 0xBF) (h3 : 0x80 ≤ b3.toNat ∧ b3.toNat ≤ 0xBF) :
    decodeFirst b0 (b1 :: b2 :: b3 :: rest) =
      some (Char.ofNat ((b0.toNat - 0xF0) * 0x40000 + b1.toNat % 0x40 * 0x1000 +
        b2.toNat % 0x40 * 0x40 + b3.toNat % 0x40), 3) := by
  unfold decodeFirst
  rw [if_neg (by simp [UInt8.lt_iff_toNat_lt]; omega),
    if_neg (by simp [UInt8.le_iff_toNat_le]; omega),
    if_neg (by simp [UInt8.le_iff_toNat_le]; omega),
    if_pos (by simp [UInt8.le_iff_toNat_le]; omega)]
  have hw2 : within 0x80 0xBF b2 = true := within_iff.2 (by simpa using h2)
  have hw3 : within 0x80 0xBF b3 = true := within_iff.2 (by simpa using h3)
  generalize hlh : (if b0 = 240 then ((144 : UInt8), (191 : UInt8)) else if b0 = 244 then
    (128, 143) else (128, 191)) = lh
  obtain ⟨lo, hi⟩ := lh
  have hw1 : within lo hi b1 = true := by
    refine within_iff.2 ?_
    by_cases ha : b0 = 240
    · rw [if_pos ha] at hlh
      cases hlh
      subst ha
      simp at h1 ⊢
      omega
    by_cases hb : b0 = 244
    · rw [if_neg ha, if_pos hb] at hlh
      cases hlh
      subst hb
      simp at h1 ⊢
      omega
    rw [if_neg ha, if_neg hb] at hlh
    cases hlh
    simp at h1 ⊢
    omega
  dsimp only
  rw [if_pos (by rw [hw1, hw2, hw3]; rfl), low, low, low]

theorem toNat_valid (c : Char) : c.toNat < 0xD800 ∨ (0xDFFF < c.toNat ∧ c.toNat < 0x110000) := by
  have h := c.valid
  rw [UInt32.isValidChar] at h
  exact h

/-- A character's encoding decodes to it, whatever follows. -/
theorem decodeFirst_encode (c : Char) (more : List UInt8) :
    ∃ b0 tail, encode c.toNat = b0 :: tail ∧
      decodeFirst b0 (tail ++ more) = some (c, tail.length) := by
  have hc := toNat_valid c
  have back : ∀ v, v = c.toNat → Char.ofNat v = c := fun v hv => by
    rw [hv, Char.ofNat_toNat]
  unfold encode
  by_cases h1 : c.toNat < 0x80
  · rw [if_pos h1]
    refine ⟨_, [], rfl, ?_⟩
    unfold decodeFirst
    rw [if_pos (by simp [UInt8.lt_iff_toNat_lt, toNat_toUInt8 (show c.toNat < 256 by omega), h1]),
      toNat_toUInt8 (by omega), back _ rfl]
    rfl
  by_cases h2 : c.toNat < 0x800
  · rw [if_neg h1, if_pos h2]
    refine ⟨_, _, rfl, ?_⟩
    rw [List.singleton_append, decodeFirst_two _ (by rw [toNat_toUInt8 (by omega)]; omega)
      (by rw [toNat_toUInt8 (by omega)]; omega), toNat_toUInt8 (by omega),
      toNat_toUInt8 (by omega), back _ (by omega)]
    rfl
  by_cases h3 : c.toNat < 0x10000
  · rw [if_neg h1, if_neg h2, if_pos h3]
    refine ⟨_, _, rfl, ?_⟩
    rw [List.cons_append, List.singleton_append, decodeFirst_three _
      (by rw [toNat_toUInt8 (by omega)]; omega)
      (by simp only [toNat_toUInt8 (show 0xE0 + c.toNat / 0x1000 < 256 by omega),
        toNat_toUInt8 (show 0x80 + c.toNat / 0x40 % 0x40 < 256 by omega)]; omega)
      (by rw [toNat_toUInt8 (by omega)]; omega), toNat_toUInt8 (by omega),
      toNat_toUInt8 (by omega), toNat_toUInt8 (by omega), back _ (by omega)]
    rfl
  · rw [if_neg h1, if_neg h2, if_neg h3]
    refine ⟨_, _, rfl, ?_⟩
    rw [List.cons_append, List.cons_append, List.singleton_append, decodeFirst_four _
      (by rw [toNat_toUInt8 (by omega)]; omega)
      (by simp only [toNat_toUInt8 (show 0xF0 + c.toNat / 0x40000 < 256 by omega),
        toNat_toUInt8 (show 0x80 + c.toNat / 0x1000 % 0x40 < 256 by omega)]; omega)
      (by rw [toNat_toUInt8 (by omega)]; omega) (by rw [toNat_toUInt8 (by omega)]; omega),
      toNat_toUInt8 (by omega), toNat_toUInt8 (by omega), toNat_toUInt8 (by omega),
      toNat_toUInt8 (by omega), back _ (by omega)]
    rfl

/-- A character's encoding starts with a byte below `0x80` exactly when the character is ASCII,
and then is that one byte. -/
theorem encode_ascii {n : Nat} (h : n < 0x80) : encode n = [n.toUInt8] := by
  rw [encode, if_pos h]

/-- The first byte of a character's encoding is below `0x80` only for an ASCII character. -/
theorem encode_head_ge {n : Nat} (h : 0x80 ≤ n) (hn : n < 0x110000) :
    ∃ b0 tail, encode n = b0 :: tail ∧ 0x80 ≤ b0.toNat := by
  unfold encode
  rw [if_neg (by omega)]
  by_cases h2 : n < 0x800
  · exact ⟨_, _, by rw [if_pos h2], by rw [toNat_toUInt8 (by omega)]; omega⟩
  by_cases h3 : n < 0x10000
  · exact ⟨_, _, by rw [if_neg h2, if_pos h3], by rw [toNat_toUInt8 (by omega)]; omega⟩
  · exact ⟨_, _, by rw [if_neg h2, if_neg h3], by rw [toNat_toUInt8 (by omega)]; omega⟩

end Utf8

namespace Quoted

open Utf8

/-- The bytes of written characters. -/
def charBytes (l : List Char) : List UInt8 := l.flatMap fun c => encode c.toNat

theorem charBytes_nil : charBytes [] = [] := rfl

theorem charBytes_cons (c : Char) (l : List Char) :
    charBytes (c :: l) = encode c.toNat ++ charBytes l := List.flatMap_cons

theorem charBytes_append (l l' : List Char) :
    charBytes (l ++ l') = charBytes l ++ charBytes l' := List.flatMap_append

theorem hexDigit_spec {d : Nat} (h : d < 16) :
    (Bytes.hexDigit d).toNat < 0x80 ∧ hexValue (Bytes.hexDigit d).toNat.toUInt8 = some d := by
  have hall : ∀ d : Fin 16, (Bytes.hexDigit d).toNat < 0x80 ∧
      hexValue (Bytes.hexDigit d).toNat.toUInt8 = some d := by decide
  exact hall ⟨d, h⟩

theorem hexDigits_succ (v n : Nat) :
    hexDigits v (n + 1) = Bytes.hexDigit (v / 16 ^ n % 16) :: hexDigits v n := by
  simp [hexDigits, List.range_succ]

/-- `n` written hexadecimal digits of `v` read back as `v` modulo `16^n`. -/
theorem hexRun_hexDigits (v n : Nat) (rest : List UInt8) (acc : Nat) :
    hexRun n (charBytes (hexDigits v n) ++ rest) acc = some (acc * 16 ^ n + v % 16 ^ n) := by
  induction n generalizing acc with
  | zero => simp only [hexRun, Nat.pow_zero, Nat.mul_one, Nat.mod_one, Nat.add_zero]
  | succ n ih =>
    obtain ⟨hascii, hval⟩ := hexDigit_spec (Nat.mod_lt (v / 16 ^ n) (by decide : 16 > 0))
    rw [hexDigits_succ, charBytes_cons, encode_ascii hascii, List.singleton_append,
      List.cons_append, hexRun, hval, Option.bind_some, ih, Nat.mod_pow_succ]
    congr 1
    ring

theorem length_charBytes_hexDigits (v n : Nat) : (charBytes (hexDigits v n)).length = n := by
  induction n with
  | zero => rfl
  | succ n ih =>
    obtain ⟨hascii, -⟩ := hexDigit_spec (Nat.mod_lt (v / 16 ^ n) (by decide : 16 > 0))
    rw [hexDigits_succ, charBytes_cons, encode_ascii hascii, List.singleton_append,
      List.length_cons, ih]

/-- A unit that is no quote and no line break adds its bytes to what the rest of the body
reads. -/
theorem unquoteBody_unit {b0 : UInt8} {bytes : List UInt8} (tail rest : List UInt8)
    (hq : b0 ≠ 0x22) (hnl : b0 ≠ 0x0A)
    (hu : unquoteUnit 0x22 b0 (tail ++ rest) = some (bytes, tail.length)) :
    unquoteBody 0x22 false (b0 :: (tail ++ rest)) =
      (unquoteBody 0x22 false rest).map (Prod.map (bytes ++ ·) id) := by
  rw [unquoteBody]
  simp only [beq_iff_eq, hq, hnl, if_false, hu, List.drop_left, Bool.false_eq_true]
  rfl

/-- An escape of one letter after the backslash. -/
theorem unquoteBody_escape {e : UInt8} {bytes : List UInt8} (rest : List UInt8)
    (he : ∀ more, unquoteUnit 0x22 0x5C (e :: more) = some (bytes, 1)) :
    unquoteBody 0x22 false (0x5C :: e :: rest) =
      (unquoteBody 0x22 false rest).map (Prod.map (bytes ++ ·) id) :=
  unquoteBody_unit [e] rest (by decide) (by decide) (he rest)

theorem unquoteUnit_hex (more : List UInt8) :
    unquoteUnit 0x22 0x5C (0x78 :: more) = (hexRun 2 more 0).map fun v => ([v.toUInt8], 3) :=
  rfl

/-- The code point of a `\u` or `\U` escape, refused past U+10FFFF and on a surrogate. -/
def codePoint (n : Nat) (v : Nat) : Option (List UInt8 × Nat) :=
  if v > 0x10FFFF || (0xD800 ≤ v && v ≤ 0xDFFF) then none else some (encode v, n + 1)

theorem unquoteUnit_u (more : List UInt8) :
    unquoteUnit 0x22 0x5C (0x75 :: more) = (hexRun 4 more 0).bind (codePoint 4) :=
  rfl

theorem unquoteUnit_U (more : List UInt8) :
    unquoteUnit 0x22 0x5C (0x55 :: more) = (hexRun 8 more 0).bind (codePoint 8) :=
  rfl

theorem codePoint_valid {n v : Nat} (hv : v < 0xD800 ∨ (0xDFFF < v ∧ v < 0x110000)) :
    codePoint n v = some (encode v, n + 1) := by
  rw [codePoint, if_neg]
  simp only [Bool.or_eq_true, decide_eq_true_eq, Bool.and_eq_true]
  omega

/-- A code point written as `width` hexadecimal digits after the backslash and `letter`. -/
theorem unquoteBody_hexEscape {letter : Char} {width n : Nat} {bytes : List UInt8}
    (rest : List UInt8) (hl : letter.toNat < 0x80)
    (hu : ∀ more, unquoteUnit 0x22 0x5C
      (letter.toNat.toUInt8 :: (charBytes (hexDigits n width) ++ more)) = some (bytes, width + 1)) :
    unquoteBody 0x22 false (charBytes ('\\' :: letter :: hexDigits n width) ++ rest) =
      (unquoteBody 0x22 false rest).map (Prod.map (bytes ++ ·) id) := by
  have hbytes : charBytes ('\\' :: letter :: hexDigits n width) ++ rest =
      0x5C :: ((letter.toNat.toUInt8 :: charBytes (hexDigits n width)) ++ rest) := by
    rw [charBytes_cons, charBytes_cons, encode_ascii hl]
    rfl
  have hlen : (letter.toNat.toUInt8 :: charBytes (hexDigits n width)).length = width + 1 := by
    rw [List.length_cons, length_charBytes_hexDigits]
  rw [hbytes]
  refine unquoteBody_unit _ rest (by decide) (by decide) ?_
  rw [hlen, List.cons_append]
  exact hu rest

/-- An escaped code point reads back as its encoding. -/
theorem unquoteBody_escapeCode {n : Nat} (hn : n < 0xD800 ∨ (0xDFFF < n ∧ n < 0x110000))
    (rest : List UInt8) :
    unquoteBody 0x22 false (charBytes (escapeCode n) ++ rest) =
      (unquoteBody 0x22 false rest).map (Prod.map (encode n ++ ·) id) := by
  unfold escapeCode
  split_ifs with h7 h8 h12 h10 h13 h9 h11 hx hu
  -- the seven letters each stand for the one code point the branch fixes
  · rw [beq_iff_eq.1 h7]; exact unquoteBody_escape rest fun _ => rfl
  · rw [beq_iff_eq.1 h8]; exact unquoteBody_escape rest fun _ => rfl
  · rw [beq_iff_eq.1 h12]; exact unquoteBody_escape rest fun _ => rfl
  · rw [beq_iff_eq.1 h10]; exact unquoteBody_escape rest fun _ => rfl
  · rw [beq_iff_eq.1 h13]; exact unquoteBody_escape rest fun _ => rfl
  · rw [beq_iff_eq.1 h9]; exact unquoteBody_escape rest fun _ => rfl
  · rw [beq_iff_eq.1 h11]; exact unquoteBody_escape rest fun _ => rfl
  · -- below the space or DEL: two digits
    have hlt : n < 0x80 := by simp only [Bool.or_eq_true, decide_eq_true_eq, beq_iff_eq] at hx; omega
    refine unquoteBody_hexEscape rest (by decide) fun more => ?_
    rw [show (Char.toNat 'x').toUInt8 = 0x78 from rfl, unquoteUnit_hex, hexRun_hexDigits,
      Option.map_some, encode_ascii hlt, Nat.zero_mul, Nat.zero_add, Nat.mod_eq_of_lt (by omega)]
  · refine unquoteBody_hexEscape rest (by decide) fun more => ?_
    rw [show (Char.toNat 'u').toUInt8 = 0x75 from rfl, unquoteUnit_u, hexRun_hexDigits,
      Option.bind_some, Nat.zero_mul, Nat.zero_add, Nat.mod_eq_of_lt (by omega), codePoint_valid hn]
  · refine unquoteBody_hexEscape rest (by decide) fun more => ?_
    rw [show (Char.toNat 'U').toUInt8 = 0x55 from rfl, unquoteUnit_U, hexRun_hexDigits,
      Option.bind_some, Nat.zero_mul, Nat.zero_add, Nat.mod_eq_of_lt (by omega), codePoint_valid hn]

/-- A printable ASCII character other than the quote and the backslash stands for itself. -/
theorem unquoteBody_plain {c : Char} (ha : c.toNat < 0x80) (hq : c ≠ '"') (hbs : c ≠ '\\')
    (hnl : c ≠ '\n') (rest : List UInt8) :
    unquoteBody 0x22 false (encode c.toNat ++ rest) =
      (unquoteBody 0x22 false rest).map (Prod.map (encode c.toNat ++ ·) id) := by
  have hb : (c.toNat.toUInt8).toNat = c.toNat := toNat_toUInt8 (by omega)
  -- the byte is the character, so it is none of the three bytes the reader stops at
  have hbyte : ∀ {k : UInt8} {d : Char}, c ≠ d → d = Char.ofNat k.toNat → c.toNat.toUInt8 ≠ k :=
    fun hne hd h => hne (by rw [hd, ← h, hb, Char.ofNat_toNat])
  have hq' := hbyte (k := 0x22) hq rfl
  rw [encode_ascii ha]
  refine unquoteBody_unit [] rest hq' (hbyte (k := 0x0A) hnl rfl) ?_
  unfold unquoteUnit
  rw [if_neg (fun h => hq' (by simpa using h)),
    if_neg (by simp [UInt8.le_iff_toNat_le, hb]; omega),
    if_pos (by simpa using hbyte (k := 0x5C) hbs rfl)]
  rfl

/-- A character beyond ASCII is written as its own encoding and decoded back. -/
theorem unquoteBody_multibyte {c : Char} (ha : 0x80 ≤ c.toNat) (rest : List UInt8) :
    unquoteBody 0x22 false (encode c.toNat ++ rest) =
      (unquoteBody 0x22 false rest).map (Prod.map (encode c.toNat ++ ·) id) := by
  obtain ⟨b0, tail, henc, hdec⟩ := decodeFirst_encode c rest
  obtain ⟨b0', tail', henc', hge⟩ := encode_head_ge ha (by have := toNat_valid c; omega)
  rw [henc'] at henc
  cases henc
  have hne : ∀ k : UInt8, k.toNat < 0x80 → b0 ≠ k := fun k hk h => by rw [h] at hge; omega
  rw [henc', List.cons_append]
  refine unquoteBody_unit _ rest (hne 0x22 (by decide)) (hne 0x0A (by decide)) ?_
  unfold unquoteUnit
  rw [if_neg (by simp [hne 0x22 (by decide)]), if_pos (by simp [UInt8.le_iff_toNat_le]; omega),
    hdec]
  show some (encode c.toNat, tail.length) = _
  rw [henc']

/-- Each written unit reads back as the bytes it stands for, whatever follows it. -/
theorem unquoteBody_writePiece (p : Piece) (rest : List UInt8) :
    unquoteBody 0x22 false (charBytes (writePiece p) ++ rest) =
      (unquoteBody 0x22 false rest).map (Prod.map (pieceBytes p ++ ·) id) := by
  cases p with
  | stray b =>
    refine unquoteBody_hexEscape rest (by decide) fun more => ?_
    rw [show (Char.toNat 'x').toUInt8 = 0x78 from rfl, unquoteUnit_hex, hexRun_hexDigits,
      Option.map_some, Nat.zero_mul, Nat.zero_add,
      Nat.mod_eq_of_lt (show b.toNat < 16 ^ 2 from b.toNat_lt)]
    simp only [Nat.toUInt8, UInt8.ofNat_toNat]
    rfl
  | char c =>
    simp only [writePiece, pieceBytes]
    split_ifs with hqb hp
    · -- the quote and the backslash get a backslash
      simp only [Bool.or_eq_true, beq_iff_eq] at hqb
      rcases hqb with rfl | rfl
      · exact unquoteBody_escape rest fun _ => rfl
      · exact unquoteBody_escape rest fun _ => rfl
    · -- a printable character stands for itself
      simp only [Bool.or_eq_true, beq_iff_eq, not_or] at hqb
      rw [charBytes_cons, charBytes_nil, List.append_nil]
      by_cases ha : c.toNat < 0x80
      · refine unquoteBody_plain ha hqb.1 hqb.2 (fun h => ?_) rest
        rw [h] at hp
        exact absurd hp (by decide +kernel)
      · exact unquoteBody_multibyte (by omega) rest
    · -- anything else through an escape
      exact unquoteBody_escapeCode (toNat_valid c) rest

/-- Written units read back as the bytes they stand for, up to the closing quote. -/
theorem unquoteBody_written (ps : List Piece) (after : List UInt8) :
    unquoteBody 0x22 false (charBytes (ps.flatMap writePiece) ++ 0x22 :: after) =
      some (ps.flatMap pieceBytes, after) := by
  induction ps with
  | nil =>
    rw [List.flatMap_nil, charBytes_nil, List.nil_append, unquoteBody]
    rfl
  | cons p ps ih =>
    rw [List.flatMap_cons, charBytes_append, List.append_assoc, unquoteBody_writePiece, ih,
      List.flatMap_cons]
    rfl

theorem ofString_ofList (l : List Char) : Bytes.ofString (String.ofList l) = ⟨charBytes l⟩ := by
  rw [Bytes.ofString, String.toList_ofList]
  rfl

/-- A quoted byte string reads back as itself. -/
theorem unquote_quote (s : Bytes) : unquote (Bytes.ofString (quote s)) = some s := by
  have htext : (Bytes.ofString (quote s)).toList =
      0x22 :: (charBytes (s.pieces.flatMap writePiece) ++ 0x22 :: []) := by
    rw [quote, ofString_ofList, charBytes_cons, charBytes_append, charBytes_cons, charBytes_nil]
    rfl
  unfold unquote
  rw [htext]
  dsimp only
  rw [if_neg (by decide), if_pos (by decide), show ((0x22 : UInt8) == 0x27) = false from rfl,
    unquoteBody_written, Bytes.pieces, flatMap_pieces]

end Quoted

end TraceSynth
