import TraceSynth.Text.Bytes
import TraceSynth.Text.Printable

/-!
# TOML text as bytes

A TOML document is read byte by byte. Each byte is seen as the character with its number, so
that the reader matches bytes against character literals and reports a byte in its messages
as that character: the byte `0xC3` shows as `Ã`. Text the reader keeps is turned back into a
string by the UTF-8 rules.

Outside escapes, a document may hold any well-formed UTF-8 character except the control
characters other than tab, line feed and carriage return, and delete.
-/

namespace TraceSynth.Toml

/-- The bytes of a document, each seen as the character with its number. -/
abbrev Octets := List Char

/-- A refusal of the reader, with its message. -/
abbrev ReadM := Except String

/-- Refuse a document. -/
def refuse {α : Type} (msg : String) : ReadM α := .error msg

/-- The bytes of a byte string. -/
def octetsOf (b : Bytes) : Octets := b.toList.map fun x => Char.ofNat x.toNat

/-- The text that bytes spell in UTF-8. -/
def textOf (cs : Octets) : String := (Bytes.mk (cs.map fun c => c.toNat.toUInt8)).toStringLossy

/-- The UTF-8 bytes of a code point. -/
def encodePoint (n : Nat) : Octets := (Utf8.encode n).map fun x => Char.ofNat x.toNat

/-- A byte as a code point, `U+0041 'A'`, the character shown only when it is printable. -/
def codePoint (c : Char) : String :=
  let hex := (Nat.toDigits 16 c.toNat).map Char.toUpper
  "U+" ++ String.ofList (List.replicate (4 - hex.length) '0' ++ hex) ++
    (if Unicode.isPrintable c.toNat then " '" ++ c.toString ++ "'" else "")

/-- Whether a byte is a control character that must not stand unescaped in a document: those
below space other than tab, line feed and carriage return, and delete. -/
def isForbiddenControl (c : Char) : Bool :=
  (c.toNat < 0x20 && c != '\t' && c != '\n' && c != '\r') || c.toNat == 0x7F

/-- Whether a byte continues a UTF-8 sequence. -/
def isContinuation (c : Char) : Bool := 0x80 ≤ c.toNat && c.toNat ≤ 0xBF

/-- The length of the allowed character at the front, `0` when the bytes there are a forbidden
control character or no well-formed UTF-8 sequence. The second byte of a sequence has a
narrower range after `E0`, `ED`, `F0` and `F4`, which rules out overlong forms, surrogates and
points past `U+10FFFF`. -/
def validPrefix (cs : Octets) : Nat :=
  match cs with
  | [] => 0
  | c :: rest =>
    let b := c.toNat
    if b < 0x80 then (if isForbiddenControl c then 0 else 1)
    else
      let (size, lo, hi) : Nat × Nat × Nat :=
        if 0xC2 ≤ b && b ≤ 0xDF then (2, 0x80, 0xBF)
        else if b == 0xE0 then (3, 0xA0, 0xBF)
        else if b == 0xED then (3, 0x80, 0x9F)
        else if 0xE1 ≤ b && b ≤ 0xEF then (3, 0x80, 0xBF)
        else if b == 0xF0 then (4, 0x90, 0xBF)
        else if b == 0xF4 then (4, 0x80, 0x8F)
        else if 0xF1 ≤ b && b ≤ 0xF3 then (4, 0x80, 0xBF)
        else (0, 0, 0)
      match rest with
      | c1 :: more =>
        if size == 0 || (more.take (size - 2)).length < size - 2 then 0
        else if !(lo ≤ c1.toNat && c1.toNat ≤ hi) then 0
        else if (more.take (size - 2)).all isContinuation then size
        else 0
      | [] => 0

/-- Whether bytes are allowed characters throughout. -/
def isAllowedText (cs : Octets) : Bool :=
  match h : validPrefix cs with
  | 0 => cs.isEmpty
  | n + 1 => isAllowedText (cs.drop (n + 1))
termination_by cs.length
decreasing_by
  cases cs with
  | nil => simp [validPrefix] at h
  | cons c rest =>
    simp only [List.length_drop, List.length_cons]
    omega

/-- Skip spaces and tabs. -/
def skipBlank (cs : Octets) : Octets := cs.dropWhile fun c => c == ' ' || c == '\t'

/-- Whether the bytes start with the characters of `w`. -/
def follows (cs : Octets) (w : String) : Bool := w.toList.isPrefixOf cs

/-- Consume the byte `x`. -/
def expect (x : Char) (cs : Octets) : ReadM Octets :=
  match cs with
  | [] => refuse ("expected character " ++ x.toString ++ " but the document ended here")
  | c :: rest => if c == x then .ok rest else refuse ("expected character " ++ x.toString)

/-- Consume a line break: a line feed, or a carriage return with its line feed. -/
def newline (cs : Octets) : ReadM Octets :=
  match cs with
  | '\n' :: rest => .ok rest
  | '\r' :: '\n' :: rest => .ok rest
  | ['\r'] => refuse "windows new line expected"
  | '\r' :: _ => refuse "windows new line should be \\r\\n"
  | c :: _ => refuse ("expected newline but got " ++ codePoint c)
  | [] => .ok []

/-- Skip the body of a comment, after its `#`, up to the line feed that ends it; a carriage
return is part of the comment unless a line feed follows it, and then it is dropped. -/
def comment (cs : Octets) : ReadM Octets :=
  match cs with
  | [] => .ok []
  | '\n' :: _ => .ok cs
  | '\r' :: '\n' :: rest => .ok ('\n' :: rest)
  | c :: rest =>
    match h : validPrefix (c :: rest) with
    | 0 => refuse "invalid character in comment"
    | n + 1 => comment ((c :: rest).drop (n + 1))
termination_by cs.length
decreasing_by
  simp only [List.length_drop, List.length_cons]
  omega

end TraceSynth.Toml
