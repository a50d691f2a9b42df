import TraceSynth.Yaml.Token
import TraceSynth.Text.Bytes

/-!
# Splitting YAML text into tokens

The lexer turns text into the token stream of YAML's grammar. Block structure is read from
indentation: a deeper line opens a block collection and a shallower one closes it with
`blockEnd` tokens. A mapping key written without `?` is only known to be a key when the `:` after
it arrives, so the lexer remembers where such a key may start (one place per flow level) and
inserts the `key` token, and if needed the `blockMappingStart` before it, when the `:` comes.
A key must end on the line it starts, within 1024 characters.

Tokens are produced on demand: the reader of the stream asks for the token at its head, and the
lexer scans until two more tokens lie beyond the head and no pending key starts at it. A problem
in that look-ahead is reported at the moment the head is asked for, which decides which of two
problems a text reports.

Every loop is bounded by the characters left to read.
-/

namespace TraceSynth.Yaml

/-- A blank: space or tab. -/
def isBlank (c : Char) : Bool := c == ' ' || c == '\t'

/-- A line break: CR, LF, NEL, LS or PS. -/
def isBreak (c : Char) : Bool :=
  c == '\r' || c == '\n' || c == '\u0085' || c == '\u2028' || c == '\u2029'

/-- The end of the text, which reads as NUL. -/
def isEnd (c : Char) : Bool := c == '\x00'

/-- A line break or the end. -/
def isBreakOrEnd (c : Char) : Bool := isBreak c || isEnd c

/-- A blank, a line break or the end. -/
def isSeparator (c : Char) : Bool := isBlank c || isBreakOrEnd c

/-- A character of an anchor name or tag handle: ASCII letters and digits, `_` and `-`. -/
def isWordChar (c : Char) : Bool :=
  ('0' ≤ c && c ≤ '9') || ('A' ≤ c && c ≤ 'Z') || ('a' ≤ c && c ≤ 'z') || c == '_' || c == '-'

/-- An ASCII hexadecimal digit. -/
def isHexChar (c : Char) : Bool :=
  ('0' ≤ c && c ≤ '9') || ('A' ≤ c && c ≤ 'F') || ('a' ≤ c && c ≤ 'f')

/-- The value of a hexadecimal digit. -/
def hexCharValue (c : Char) : Nat :=
  if c ≤ '9' then c.toNat - '0'.toNat
  else if c ≤ 'F' then c.toNat - 'A'.toNat + 10
  else c.toNat - 'a'.toNat + 10

/-- Characters the reader accepts: tab, LF, CR, printable ASCII, NEL, and the non-control
planes without surrogates and the two non-characters at the end of the basic plane. -/
def isAllowedChar (c : Char) : Bool :=
  let v := c.toNat
  v == 0x09 || v == 0x0A || v == 0x0D || (0x20 ≤ v && v ≤ 0x7E) || v == 0x85 ||
    (0xA0 ≤ v && v ≤ 0xD7FF) || (0xE000 ≤ v && v ≤ 0xFFFD) || (0x10000 ≤ v && v ≤ 0x10FFFF)

/-- The length of the run of characters from index `i` that satisfy `p`. -/
def runFrom (chars : Array Char) (p : Char → Bool) (i : Nat) : Nat :=
  if h : i < chars.size then (if p chars[i] then runFrom chars p (i + 1) + 1 else 0) else 0
termination_by chars.size - i

/-- A place where a mapping key without `?` may start. -/
structure SimpleKey where
  /-- Whether a key may still start here. -/
  possible : Bool := false
  /-- Whether a key must start here (a block key at the current indentation). -/
  required : Bool := false
  /-- The index in the stream of the token where the key would start. -/
  tokenNumber : Nat := 0
  /-- Where the key would start. -/
  mark : Mark := {}
  deriving Inhabited, Repr

/-- The state of the lexer. -/
structure Lexer where
  /-- The text. -/
  chars : Array Char
  /-- The index of the next character. -/
  pos : Nat := 0
  /-- The mark of the next character. -/
  mark : Mark := {}
  /-- Whether the stream start has been produced. -/
  started : Bool := false
  /-- How many flow collections are open. -/
  flowLevel : Nat := 0
  /-- Every token produced so far, consumed or not. -/
  tokens : Array Token := #[]
  /-- How many tokens the reader has consumed. -/
  head : Nat := 0
  /-- The column of the innermost block collection, `-1` outside any. -/
  indent : Int := -1
  /-- The enclosing indentations. -/
  indents : List Int := []
  /-- Whether a key without `?` may start at the next token. -/
  simpleKeyAllowed : Bool := false
  /-- One possible key per flow level, the innermost last. -/
  simpleKeys : Array SimpleKey := #[]
  /-- For a token number, the level of the possible key that starts there. -/
  keyAt : List (Nat × Nat) := []
  /-- Line breaks skipped since the current token began. -/
  newlines : Nat := 0
  /-- How many characters from the start have been looked at ahead of the position. -/
  reach : Nat := 0
  deriving Inhabited

namespace Lexer

/-- A lexer at the start of a text; a leading byte-order mark is not part of the text. -/
def ofString (text : String) : Lexer :=
  let cs := text.toList
  { chars := (match cs with | '\uFEFF' :: rest => rest | _ => cs).toArray }

/-- How many characters have been read: those looked at ahead, and four past the position, the
most the start of a token looks at. -/
def extent (s : Lexer) : Nat := max s.reach (s.pos + 4)

/-- Note that the next `n` characters have been looked at. -/
def lookAhead (s : Lexer) (n : Nat) : Lexer := { s with reach := max s.reach (s.pos + n) }

/-- The character `k` places ahead, NUL past the end. -/
def peekChar (s : Lexer) (k : Nat) : Char := s.chars.getD (s.pos + k) '\x00'

/-- Whether three copies of `c` stand at the start of a line, followed by a separator. -/
def atIndicator (s : Lexer) (c : Char) : Bool :=
  s.mark.column == 0 && s.peekChar 0 == c && s.peekChar 1 == c && s.peekChar 2 == c &&
    isSeparator (s.peekChar 3)

/-- The innermost possible key. -/
def topKey (s : Lexer) : SimpleKey := s.simpleKeys.back?.getD {}

/-- The next `n` characters, none of them a line break, consumed. -/
def advance (s : Lexer) (n : Nat) : Lexer :=
  { s with pos := s.pos + n,
           mark := { s.mark with index := s.mark.index + n, column := s.mark.column + n } }

/-- A line break consumed (CR LF counts as one). -/
def breakLine (s : Lexer) : Lexer :=
  let width := if s.peekChar 0 == '\r' && s.peekChar 1 == '\n' then 2 else 1
  { s with pos := s.pos + width,
           mark := { index := s.mark.index + width, line := s.mark.line + 1, column := 0 } }

end Lexer

/-- The lexer's computations: they change its state and may stop with a problem. -/
abbrev LexM := StateT Lexer (Except Problem)

namespace Lexer

/-- Stop with a lexer problem at the current position. -/
def fail {α : Type} (contextMark : Mark) (problem : String) : LexM α := do
  let s ← get
  throw { stage := .lexer, contextMark, problem, problemMark := s.mark, read := s.extent }

/-- Consume one character on the line. -/
def skip : LexM Unit := modify (·.advance 1)

/-- Consume one character on the line, returning it. -/
def read : LexM Char := do
  let c := (← get).peekChar 0
  skip
  pure c

/-- Consume a line break if one is next, counting it. -/
def skipLine : LexM Unit := modify fun s =>
  if isBreak (s.peekChar 0) then { s.breakLine with newlines := s.newlines + 1 } else s

/-- Consume a line break inside a scalar, returning what it stands for: a line feed, or the
line or paragraph separator itself. -/
def readLine : LexM String := do
  let s ← get
  let c := s.peekChar 0
  if isBreak c then
    set s.breakLine
    pure (if c == '\u2028' || c == '\u2029' then c.toString else "\n")
  else pure ""

/-- Consume the characters from here that satisfy `p` (none of them a line break). -/
def skipRun (p : Char → Bool) : LexM Unit := modify fun s => s.advance (runFrom s.chars p s.pos)

/-- Consume and return the characters from here that satisfy `p` (no line breaks). -/
def readRun (p : Char → Bool) : LexM String := do
  let s ← get
  let n := runFrom s.chars p s.pos
  set (s.advance n)
  pure (String.ofList ((s.chars.extract s.pos (s.pos + n)).toList))

/-- Add a token at the end of the stream. -/
def push (kind : TokenKind) (start stop : Mark) : LexM Unit :=
  modify fun s => { s with tokens := s.tokens.push { kind, start, stop } }

/-- Whether the possible key of level `i` can still be completed: it must lie on the current
line and less than 1025 characters back. A required key that cannot is a problem; one that is
not required is dropped. -/
def keyValid (i : Nat) : LexM Bool := do
  let s ← get
  match s.simpleKeys[i]? with
  | none => pure false
  | some k =>
    if !k.possible then pure false
    else if k.mark.line < s.mark.line || k.mark.index + 1024 < s.mark.index then
      if k.required then fail k.mark "could not find expected ':'"
      else
        set { s with simpleKeys := s.simpleKeys.set! i { k with possible := false } }
        pure false
    else pure true

/-- Drop the innermost possible key; a required one is a problem. -/
def removeKey : LexM Unit := do
  let s ← get
  let i := s.simpleKeys.size - 1
  match s.simpleKeys[i]? with
  | some k =>
    if k.possible then
      if k.required then fail k.mark "could not find expected ':'"
      else
        set { s with simpleKeys := s.simpleKeys.set! i { k with possible := false },
                     keyAt := s.keyAt.filter (·.1 != k.tokenNumber) }
  | none => pure ()

/-- Remember that a key may start at the next token, when keys are allowed here. -/
def saveKey : LexM Unit := do
  let s ← get
  if s.simpleKeyAllowed then
    let required := s.flowLevel == 0 && s.indent == (s.mark.column : Int)
    let k : SimpleKey :=
      { possible := true, required, tokenNumber := s.tokens.size, mark := s.mark }
    removeKey
    let s ← get
    let i := s.simpleKeys.size - 1
    set { s with simpleKeys := s.simpleKeys.set! i k,
                 keyAt := (k.tokenNumber, i) :: s.keyAt.filter (·.1 != k.tokenNumber) }

/-- Open a flow level. -/
def increaseFlow : LexM Unit := do
  modify fun s => { s with simpleKeys := s.simpleKeys.push { mark := s.mark },
                           flowLevel := s.flowLevel + 1 }
  let s ← get
  if s.flowLevel > 10000 then fail s.topKey.mark "exceeded max depth of 10000"

/-- Close a flow level, forgetting its possible key. -/
def decreaseFlow : LexM Unit := modify fun s =>
  if s.flowLevel > 0 then
    { s with flowLevel := s.flowLevel - 1, simpleKeys := s.simpleKeys.pop,
             keyAt := s.keyAt.filter (·.1 != s.topKey.tokenNumber) }
  else s

/-- In block context, open a block collection at `column` if it is deeper than the current
one, placing its start token at the stream index `number` or at the end. -/
def rollIndent (column : Nat) (number : Option Nat) (kind : TokenKind) (mark : Mark) :
    LexM Unit := do
  let s ← get
  if s.flowLevel == 0 && s.indent < (column : Int) then
    set { s with indents := s.indent :: s.indents, indent := column }
    if s.indents.length + 1 > 10000 then fail s.topKey.mark "exceeded max indentation of 10000"
    let t : Token := { kind, start := mark, stop := mark }
    match number with
    | none => modify fun s => { s with tokens := s.tokens.push t }
    | some n => modify fun s => { s with tokens := s.tokens.insertIdxIfInBounds n t }

/-- The indentation stack after closing every level deeper than `column`, with a `blockEnd`
token for each. -/
def closeLevels (column : Int) (mark : Mark) :
    Int → List Int → Array Token → Int × List Int × Array Token
  | ind, [], toks => (ind, [], toks)
  | ind, next :: rest, toks =>
    if ind > column then closeLevels column mark next rest (toks.push ⟨.blockEnd, mark, mark⟩)
    else (ind, next :: rest, toks)

/-- In block context, close every block collection deeper than `column`. -/
def unrollIndent (column : Int) (scanMark : Mark) : LexM Unit := modify fun s =>
  if s.flowLevel > 0 then s
  else
    let (ind, rest, toks) :=
      closeLevels column { scanMark with index := scanMark.index - 1 } s.indent s.indents s.tokens
    { s with indent := ind, indents := rest, tokens := toks }

/-- Skip a comment and any further comment lines after it, up to the line break that ends the
last one. Blank lines and blanks between comment lines go with them, as long as the next
comment starts within 512 characters. -/
def skipComments : Nat → LexM Unit
  | 0 => pure ()
  | fuel + 1 => do
    skipRun (fun c => !isBreakOrEnd c)
    let s ← get
    let gap := runFrom s.chars (fun c => isBlank c || isBreak c) s.pos
    modify (·.lookAhead (min (gap + 1) 512))
    if gap < 512 && s.peekChar gap == '#' then
      skipGap (s.pos + gap) (gap + 1)
      skipComments fuel
where
  /-- Consume blanks and line breaks up to the index `target`. -/
  skipGap (target : Nat) : Nat → LexM Unit
    | 0 => pure ()
    | n + 1 => do
      let s ← get
      if s.pos < target then
        if isBreak (s.peekChar 0) then skipLine else skip
        skipGap target n

/-- Skip blanks, comments and line breaks up to the next token. Tabs are skipped only in flow
context or where no key may start; a line break in block context allows a key again. -/
def scanToNextToken : Nat → LexM Unit
  | 0 => pure ()
  | fuel + 1 => do
    let s ← get
    if s.mark.column == 0 && s.peekChar 0 == '\uFEFF' then skip
    let s ← get
    let tabs := s.flowLevel > 0 || !s.simpleKeyAllowed
    skipRun (fun c => c == ' ' || (tabs && c == '\t'))
    if (← get).peekChar 0 == '#' then skipComments ((← get).chars.size + 1)
    if isBreak ((← get).peekChar 0) then
      skipLine
      modify fun s => if s.flowLevel == 0 then { s with simpleKeyAllowed := true } else s
      scanToNextToken fuel

/-- After a token, a comment on the rest of its line is consumed with its leading blanks. -/
def lineComment : LexM Unit := do
  let s ← get
  let afterEntry := match s.tokens.back? with
    | some t => t.kind == .blockEntry
    | none => false
  if !afterEntry && s.newlines == 0 then
    let gap := runFrom s.chars isBlank s.pos
    modify (·.lookAhead (min (gap + 1) 512))
    if gap < 512 && s.peekChar gap == '#' then
      skipRun isBlank
      skipRun (fun c => !isBreakOrEnd c)

/-! ## Anchors, aliases and tags -/

/-- An anchor `&name` or alias `*name`: a non-empty word followed by a separator or one of
`?:,]}%@` and the backquote. -/
def scanAnchor (isAlias : Bool) : LexM Unit := do
  let start := (← get).mark
  skip
  let name ← readRun isWordChar
  let s ← get
  let next := s.peekChar 0
  if name.isEmpty || !(isSeparator next || "?:,]\x7d%@`".toList.contains next) then
    fail start "did not find expected alphabetic or numeric character"
  else push (if isAlias then .alias name else .anchor name) start s.mark

/-- A tag handle: `!`, a word, and a closing `!` when there is one. In a `%TAG` directive the
closing `!` is required unless the handle is `!` alone. -/
def scanTagHandle (directive : Bool) (start : Mark) : LexM String := do
  if (← get).peekChar 0 != '!' then fail start "did not find expected '!'"
  skip
  let word ← readRun isWordChar
  if (← get).peekChar 0 == '!' then
    skip
    pure ("!" ++ word ++ "!")
  else if directive && !word.isEmpty then fail start "did not find expected '!'"
  else pure ("!" ++ word)

/-- A character of a tag's text; inside `!<...>` also `,`, `[` and `]`. -/
def isTagChar (verbatim : Bool) (c : Char) : Bool :=
  isWordChar c || ";/?:@&=+$.!~*'()%".toList.contains c || (verbatim && ",[]".toList.contains c)

/-- The UTF-8 octets of a run of `%XX` escapes in a tag, one character's worth. -/
def uriOctets (start : Mark) : Nat → Nat → List UInt8 → LexM (List UInt8)
  | 0, _, acc => pure acc.reverse
  | fuel + 1, width, acc => do
    let s ← get
    let a := s.peekChar 1
    let b := s.peekChar 2
    if !(s.peekChar 0 == '%' && isHexChar a && isHexChar b) then
      fail start "did not find URI escaped octet"
    let octet := hexCharValue a * 16 + hexCharValue b
    let width ← if width == 0 then
        let w := if octet &&& 0x80 == 0 then 1 else if octet &&& 0xE0 == 0xC0 then 2
          else if octet &&& 0xF0 == 0xE0 then 3 else if octet &&& 0xF8 == 0xF0 then 4 else 0
        if w == 0 then fail start "found an incorrect leading UTF-8 octet" else pure w
      else if octet &&& 0xC0 != 0x80 then fail start "found an incorrect trailing UTF-8 octet"
      else pure width
    modify (·.advance 3)
    let acc := octet.toUInt8 :: acc
    if acc.length < width then uriOctets start fuel width acc else pure acc.reverse

/-- The text of a tag after its handle; `head` is a handle read as part of the text, whose `!`
is not kept. The text may be empty only when there was such a head. -/
def scanTagText (verbatim : Bool) (head : String) (start : Mark) : LexM String := do
  let rec go : Nat → String → LexM String
    | 0, acc => pure acc
    | fuel + 1, acc => do
      let c := (← get).peekChar 0
      if !isTagChar verbatim c then pure acc
      else if c == '%' then
        let octets ← uriOctets start 4 0 []
        go fuel (acc ++ (Bytes.mk octets).toStringLossy)
      else
        skip
        go fuel (acc.push c)
  let text ← go ((← get).chars.size + 1) (String.ofList (head.toList.drop 1))
  if head.isEmpty && text.isEmpty then fail start "did not find expected tag URI" else pure text

/-- A tag: `!<text>`, `!handle!suffix`, `!suffix`, or `!` alone. It must be followed by a
separator, or by `,` in flow context. -/
def scanTag : LexM Unit := do
  let start := (← get).mark
  let (handle, suffix) ← if (← get).peekChar 1 == '<' then do
      modify (·.advance 2)
      let suffix ← scanTagText true "" start
      if (← get).peekChar 0 != '>' then fail start "did not find the expected '>'"
      skip
      pure ("", suffix)
    else do
      let handle ← scanTagHandle false start
      if handle.length > 1 && handle.endsWith "!" then
        pure (handle, ← scanTagText false "" start)
      else
        let suffix ← scanTagText false handle start
        pure (if suffix.isEmpty then ("", "!") else ("!", suffix))
  let s ← get
  let next := s.peekChar 0
  if !isSeparator next && (s.flowLevel == 0 || next != ',') then
    fail start "did not find expected whitespace or line break"
  push (.tag handle suffix) start s.mark

end Lexer

end TraceSynth.Yaml
