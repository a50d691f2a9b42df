import TraceSynth.Text.Bytes

/-!
# Shell file name patterns

A pattern matches a whole name: `*` matches any run of bytes other than `/`, `?` one character
other than `/`, `[...]` one character of a class (ranges `a-z`, negation `[^...]`), and `\`
escapes the next character. A pattern that is not well formed is refused with
`syntax error in pattern`, whenever the matcher gets to the malformed part; it always gets
there when the name does not match.

The name is read as bytes. A literal character matches its UTF-8 bytes. `?` and a class read
one character from the name, where a byte that begins no well-formed sequence reads as U+FFFD,
one byte wide. A star gives up the name one byte at a time, so what follows it may start in
the middle of a character, whose bytes then read as U+FFFD each.
-/

namespace TraceSynth

namespace Pattern

/-- The message of a malformed pattern. -/
def badPattern : String := "syntax error in pattern"

/-- A leading run of stars, and the chunk up to the next star outside a class. -/
def scanChunk (p : List Char) : Bool × List Char × List Char :=
  let star := p.takeWhile (· == '*')
  let p := p.drop star.length
  let rec go (inRange : Bool) : List Char → List Char × List Char
    | [] => ([], [])
    | '\\' :: c :: rest => let (a, b) := go inRange rest; ('\\' :: c :: a, b)
    | '[' :: rest => let (a, b) := go true rest; ('[' :: a, b)
    | ']' :: rest => let (a, b) := go false rest; (']' :: a, b)
    | '*' :: rest =>
      if inRange then let (a, b) := go inRange rest; ('*' :: a, b) else ([], '*' :: rest)
    | c :: rest => let (a, b) := go inRange rest; (c :: a, b)
  let (chunk, rest) := go false p
  (!star.isEmpty, chunk, rest)

/-- One possibly escaped character of a class and what follows it. -/
def getEsc (chunk : List Char) : Except String (Char × List Char) :=
  match chunk with
  | [] | '-' :: _ | ']' :: _ => .error badPattern
  | '\\' :: [] => .error badPattern
  | '\\' :: c :: rest => if rest.isEmpty then .error badPattern else .ok (c, rest)
  | c :: rest => if rest.isEmpty then .error badPattern else .ok (c, rest)

/-- The ranges of a class up to its closing bracket: whether `r` is in one, and what follows. -/
def classRanges (r : Option Char) :
    Nat → Nat → List Char → Bool → Except String (Bool × List Char)
  | 0, _, chunk, m => .ok (m, chunk)
  | fuel + 1, n, chunk, m =>
    match chunk with
    | ']' :: rest => if n > 0 then .ok (m, rest) else do
        let (lo, chunk) ← getEsc chunk
        classStep r fuel n lo chunk m
    | _ => do
      let (lo, chunk) ← getEsc chunk
      classStep r fuel n lo chunk m
where
  /-- After the low end of a range. -/
  classStep (r : Option Char) (fuel n : Nat) (lo : Char) (chunk : List Char) (m : Bool) :
      Except String (Bool × List Char) := do
    let (hi, chunk) ← match chunk with
      | '-' :: more => getEsc more
      | _ => pure (lo, chunk)
    let m := m || (match r with
      | some c => lo ≤ c && c ≤ hi
      | none => false)
    classRanges r fuel (n + 1) chunk m

/-- The character at the start of a name's bytes and how many bytes it takes; a byte that
begins no well-formed sequence reads as U+FFFD, one byte wide. -/
def decodeAt : List UInt8 → Option (Char × Nat)
  | [] => none
  | b :: rest =>
    match Utf8.decodeFirst b rest with
    | some (c, n) => some (c, n + 1)
    | none => some ('\uFFFD', 1)

/-- The byte of the separator `/`. -/
def slash : UInt8 := 0x2F

/-- Match a literal character against the start of `s`: the rest of `s` after its bytes, or
none when `s` does not start with them. -/
def literal (c : Char) (s : List UInt8) : Option (List UInt8) :=
  let bs := Utf8.encode c.toNat
  if bs.isPrefixOf s then some (s.drop bs.length) else none

/-- Match a chunk against the start of `s`: the rest of `s` when it matches. After a failure
the chunk is still checked for well-formedness. -/
def matchChunk : Nat → List Char → List UInt8 → Bool → Except String (Option (List UInt8))
  | 0, _, s, failed => .ok (if failed then none else some s)
  | _ + 1, [], s, failed => .ok (if failed then none else some s)
  | fuel + 1, chunk, s, failed =>
    let failed := failed || s.isEmpty
    match chunk with
    | [] => .ok (if failed then none else some s)
    | '[' :: rest => do
      let (r, s) := if failed then (none, s) else match decodeAt s with
        | some (c, n) => (some c, s.drop n)
        | none => (none, s)
      let (negated, rest) := match rest with
        | '^' :: more => (true, more)
        | _ => (false, rest)
      let (m, rest) ← classRanges r (rest.length + 1) 0 rest false
      matchChunk fuel rest s (failed || m == negated)
    | '?' :: rest =>
      if failed then matchChunk fuel rest s failed
      else
        let n := ((decodeAt s).map (·.2)).getD 1
        matchChunk fuel rest (s.drop n) (s.head? == some slash)
    | '\\' :: rest =>
      match rest with
      | [] => .error badPattern
      | c :: more =>
        if failed then matchChunk fuel more s failed
        else match literal c s with
          | some t => matchChunk fuel more t false
          | none => matchChunk fuel more s true
    | c :: rest =>
      if failed then matchChunk fuel rest s failed
      else match literal c s with
        | some t => matchChunk fuel rest t false
        | none => matchChunk fuel rest s true

/-- Check that the rest of a pattern is well formed. -/
def checkRest : Nat → List Char → Except String Unit
  | 0, _ => .ok ()
  | _ + 1, [] => .ok ()
  | fuel + 1, p => do
    let (_, chunk, rest) := scanChunk p
    let _ ← matchChunk (chunk.length + 1) chunk [] false
    checkRest fuel rest

/-- Try the chunk after skipping `i + 1` bytes of the name, up to a slash. -/
def skipTries (chunk rest : List Char) : Nat → List UInt8 → Except String (Option (List UInt8))
  | 0, _ => .ok none
  | _ + 1, [] => .ok none
  | fuel + 1, c :: name =>
    if c == slash then .ok none
    else do
      match ← matchChunk (chunk.length + 1) chunk name false with
      | some t =>
        if rest.isEmpty && !t.isEmpty then skipTries chunk rest fuel name else .ok (some t)
      | none => skipTries chunk rest fuel name

/-- Match a pattern against a whole name, given as bytes. -/
def matchFrom : Nat → List Char → List UInt8 → Except String Bool
  | 0, _, name => .ok name.isEmpty
  | _ + 1, [], name => .ok name.isEmpty
  | fuel + 1, p, name => do
    let (star, chunk, rest) := scanChunk p
    if star && chunk.isEmpty then return !name.contains slash
    let r ← matchChunk (chunk.length + 1) chunk name false
    match r with
    | some t => if t.isEmpty || !rest.isEmpty then return ← matchFrom fuel rest t
    | none => pure ()
    if star then
      match ← skipTries chunk rest (name.length + 1) name with
      | some t => return ← matchFrom fuel rest t
      | none => pure ()
    checkRest (rest.length + 1) rest
    return false

/-- Whether a name matches a pattern, or why the pattern is refused. -/
def accepts? (pattern name : String) : Except String Bool :=
  matchFrom (pattern.length + 1) pattern.toList (Bytes.ofString name).toList

/-- Whether a path has pattern characters. -/
def hasMeta (p : String) : Bool :=
  p.toList.any fun c => c == '*' || c == '?' || c == '[' || c == '\\'

end Pattern

end TraceSynth
