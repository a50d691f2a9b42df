/-!
# Byte strings

The text held by a value is a string of bytes. Reading the character at an index reads one byte,
so a string may hold bytes that form no UTF-8 sequence; such strings are compared, joined and
printed byte by byte like any other.

Characters are read back out of bytes by the UTF-8 rules: a byte that does not begin a
well-formed sequence stands for itself as a *stray byte*, one byte wide.
-/

namespace TraceSynth

/-- Powers of natural numbers are `Nat.pow`, ahead of any other route to them a library in scope
may offer, so that `n ^ k` reads the same everywhere. -/
instance (priority := high) natPow : Pow Nat Nat := ⟨Nat.pow⟩

/-- A string of bytes, compared byte by byte. -/
structure Bytes where
  /-- The bytes, first to last. -/
  toList : List UInt8
  deriving DecidableEq, Inhabited, Hashable

/-- One unit read from a byte string: a whole UTF-8 character or a stray byte. -/
inductive Piece where
  /-- A well-formed UTF-8 sequence, read as its code point. -/
  | char (c : Char)
  /-- A byte that starts no well-formed sequence. -/
  | stray (b : UInt8)
  deriving DecidableEq, Inhabited

namespace Utf8

/-- The UTF-8 encoding of a code point (at most four bytes). -/
def encode (n : Nat) : List UInt8 :=
  if n < 0x80 then [n.toUInt8]
  else if n < 0x800 then [(0xC0 + n / 0x40).toUInt8, (0x80 + n % 0x40).toUInt8]
  else if n < 0x10000 then
    [(0xE0 + n / 0x1000).toUInt8, (0x80 + n / 0x40 % 0x40).toUInt8, (0x80 + n % 0x40).toUInt8]
  else
    [(0xF0 + n / 0x40000).toUInt8, (0x80 + n / 0x1000 % 0x40).toUInt8,
      (0x80 + n / 0x40 % 0x40).toUInt8, (0x80 + n % 0x40).toUInt8]

/-- Whether a byte is a continuation byte in `lo ..= hi`. -/
def within (lo hi : UInt8) (b : UInt8) : Bool := lo ≤ b && b ≤ hi

/-- The low six bits of a continuation byte. -/
def low (b : UInt8) : Nat := b.toNat % 0x40

/-- The character that begins a byte list `b0 :: rest` and how many bytes of `rest` it takes,
when the list begins with a well-formed UTF-8 sequence. The second byte's range depends on the
first, so that no sequence is overlong, encodes a surrogate, or passes U+10FFFF. -/
def decodeFirst (b0 : UInt8) (rest : List UInt8) : Option (Char × Nat) :=
  if b0 < 0x80 then some (Char.ofNat b0.toNat, 0)
  else if 0xC2 ≤ b0 && b0 ≤ 0xDF then
    match rest with
    | b1 :: _ =>
      if within 0x80 0xBF b1 then some (Char.ofNat ((b0.toNat - 0xC0) * 0x40 + low b1), 1)
      else none
    | _ => none
  else if 0xE0 ≤ b0 && b0 ≤ 0xEF then
    let (lo, hi) : UInt8 × UInt8 :=
      if b0 = 0xE0 then (0xA0, 0xBF) else if b0 = 0xED then (0x80, 0x9F) else (0x80, 0xBF)
    match rest with
    | b1 :: b2 :: _ =>
      if within lo hi b1 && within 0x80 0xBF b2 then
        some (Char.ofNat ((b0.toNat - 0xE0) * 0x1000 + low b1 * 0x40 + low b2), 2)
      else none
    | _ => none
  else if 0xF0 ≤ b0 && b0 ≤ 0xF4 then
    let (lo, hi) : UInt8 × UInt8 :=
      if b0 = 0xF0 then (0x90, 0xBF) else if b0 = 0xF4 then (0x80, 0x8F) else (0x80, 0xBF)
    match rest with
    | b1 :: b2 :: b3 :: _ =>
      if within lo hi b1 && within 0x80 0xBF b2 && within 0x80 0xBF b3 then
        some (Char.ofNat ((b0.toNat - 0xF0) * 0x40000 + low b1 * 0x1000 + low b2 * 0x40 +
          low b3), 3)
      else none
    | _ => none
  else none

/-- The units of a byte list, first to last: characters where the bytes are UTF-8, and stray
bytes elsewhere. -/
def pieces (l : List UInt8) : List Piece :=
  match l with
  | [] => []
  | b :: rest =>
    match decodeFirst b rest with
    | some (c, n) => .char c :: pieces (rest.drop n)
    | none => .stray b :: pieces rest
termination_by l.length
decreasing_by
  all_goals
    simp only [List.length_drop, List.length_cons]
    omega

end Utf8

namespace Bytes

/-- The empty byte string. -/
def empty : Bytes := ⟨[]⟩

instance : Append Bytes := ⟨fun a b => ⟨a.toList ++ b.toList⟩⟩

/-- The UTF-8 bytes of a text. -/
def ofString (s : String) : Bytes := ⟨s.toList.flatMap fun c => Utf8.encode c.toNat⟩

instance : Coe String Bytes := ⟨ofString⟩

/-- The bytes as a byte array. -/
def toByteArray (b : Bytes) : ByteArray := ⟨b.toList.toArray⟩

/-- The number of bytes. -/
def size (s : Bytes) : Nat := s.toList.length

/-- The units of the string: characters and stray bytes. -/
def pieces (s : Bytes) : List Piece := Utf8.pieces s.toList

/-- Whether every byte belongs to a well-formed UTF-8 sequence. -/
def isUtf8 (s : Bytes) : Bool :=
  s.pieces.all fun | .char _ => true | .stray _ => false

/-- The characters of a byte string; a stray byte reads as U+FFFD. -/
def chars (s : Bytes) : List Char :=
  s.pieces.map fun | .char c => c | .stray _ => '�'

/-- The text of a byte string that is UTF-8 throughout. -/
def toString? (s : Bytes) : Option String :=
  if s.isUtf8 then some (String.ofList s.chars) else none

/-- The text of a byte string, a stray byte read as U+FFFD. -/
def toStringLossy (s : Bytes) : String := String.ofList s.chars

/-- Lower-case hexadecimal digits of a number below 16. -/
def hexDigit (n : Nat) : Char :=
  if n < 10 then Char.ofNat (48 + n) else Char.ofNat (87 + n)

/-- Two lower-case hexadecimal digits per byte. -/
def hex (s : Bytes) : String :=
  String.ofList (s.toList.flatMap fun b => [hexDigit (b.toNat / 16), hexDigit (b.toNat % 16)])

/-- The byte-wise order: the first differing byte decides, and a proper prefix comes first. -/
def blt : List UInt8 → List UInt8 → Bool
  | [], [] => false
  | [], _ :: _ => true
  | _ :: _, [] => false
  | a :: as, b :: bs => if a < b then true else if b < a then false else blt as bs

instance : LT Bytes := ⟨fun a b => blt a.toList b.toList = true⟩

instance (a b : Bytes) : Decidable (a < b) :=
  inferInstanceAs (Decidable (blt a.toList b.toList = true))

/-- Whether the string begins with the given bytes. -/
def startsWith (s p : Bytes) : Bool := p.toList.isPrefixOf s.toList

/-- The byte at an index, if there is one. -/
def get? (s : Bytes) (i : Nat) : Option UInt8 := s.toList[i]?

/-- The first `n` bytes. -/
def take (s : Bytes) (n : Nat) : Bytes := ⟨s.toList.take n⟩

@[simp] theorem size_append (a b : Bytes) : (a ++ b).size = a.size + b.size := by
  show (a.toList ++ b.toList).length = _
  simp [size]

@[simp] theorem toList_append (a b : Bytes) : (a ++ b).toList = a.toList ++ b.toList := rfl

end Bytes

end TraceSynth
