import TraceSynth.Yaml.Lexer

/-!
# Scanning YAML scalars

The three ways of writing a scalar, each read into its text:

* plain: words separated by blanks; a line break between two words folds to a space, and each
  further break stays a line feed. In flow context `,?[]{}` end it; `: ` ends it everywhere.
* quoted: `'...'` doubles its quote; `"..."` has backslash escapes, and a backslash before a
  line break joins the lines.
* block: `|` keeps line breaks, `>` folds them, with a chomping indicator (`-` strips the final
  break, `+` keeps every trailing one) and an optional indentation digit.
-/

namespace TraceSynth.Yaml.Lexer

/-- Text being gathered for a scalar, with the blanks and breaks after the last word not yet
placed. -/
structure Folding where
  /-- The text so far. -/
  text : String := ""
  /-- The first line break after the last word. -/
  leadingBreak : String := ""
  /-- The line breaks after that one. -/
  trailingBreaks : String := ""
  /-- Blanks after the last word, on its line. -/
  whitespaces : String := ""
  /-- Whether a line break has been seen after the last word. -/
  leadingBlanks : Bool := false
  deriving Inhabited

/-- Place what is pending before the next word: after a line feed, one break folds to a space
and further breaks stay; a separator break is kept with the rest; blanks on the same line are
kept. -/
def Folding.join (f : Folding) : Folding :=
  if f.leadingBlanks then
    let text :=
      if f.leadingBreak.startsWith "\n" then
        (if f.trailingBreaks.isEmpty then f.text.push ' ' else f.text ++ f.trailingBreaks)
      else f.text ++ f.leadingBreak ++ f.trailingBreaks
    { f with text, leadingBreak := "", trailingBreaks := "", leadingBlanks := false }
  else { f with text := f.text ++ f.whitespaces, whitespaces := "" }

/-- Consume the blanks and line breaks after a word. Blanks before the first break are kept as
pending whitespace; a tab in the indentation of a following line, left of `indent`, is a
problem. -/
def gatherBlanks (start : Mark) (indent : Int) : Nat → Folding → LexM Folding
  | 0, f => pure f
  | fuel + 1, f => do
    let s ← get
    let c := s.peekChar 0
    if isBlank c then
      if f.leadingBlanks && (s.mark.column : Int) < indent && c == '\t' then
        fail start "found a tab character that violates indentation"
      else if !f.leadingBlanks then
        let c ← read
        gatherBlanks start indent fuel { f with whitespaces := f.whitespaces.push c }
      else
        skip
        gatherBlanks start indent fuel f
    else if isBreak c then
      let b ← readLine
      if !f.leadingBlanks then
        gatherBlanks start indent fuel
          { f with whitespaces := "", leadingBreak := b, leadingBlanks := true }
      else gatherBlanks start indent fuel { f with trailingBreaks := f.trailingBreaks ++ b }
    else pure f

/-! ## Plain scalars -/

/-- Read the characters of one word of a plain scalar, returning the mark after it. -/
def plainWord (flow : Bool) : Nat → Folding → Mark → LexM (Folding × Mark)
  | 0, f, e => pure (f, e)
  | fuel + 1, f, e => do
    let s ← get
    let c := s.peekChar 0
    if isSeparator c || (c == ':' && isSeparator (s.peekChar 1)) ||
        (flow && ",?[]\x7b\x7d".toList.contains c) then
      pure (f, e)
    else
      let f := if f.leadingBlanks || !f.whitespaces.isEmpty then f.join else f
      let c ← read
      plainWord flow fuel { f with text := f.text.push c } (← get).mark

/-- Read the words of a plain scalar until an indicator, a comment, a document marker, or (in
block context) a line left of `indent`. -/
def plainWords (start : Mark) (indent : Int) : Nat → Folding → Mark → LexM (Folding × Mark)
  | 0, f, e => pure (f, e)
  | fuel + 1, f, e => do
    let s ← get
    if s.atIndicator '-' || s.atIndicator '.' || s.peekChar 0 == '#' then return (f, e)
    let (f, e) ← plainWord (s.flowLevel > 0) (s.chars.size + 1) f e
    let c := (← get).peekChar 0
    if !(isBlank c || isBreak c) then return (f, e)
    let f ← gatherBlanks start indent ((← get).chars.size + 1) f
    let s ← get
    if s.flowLevel == 0 && (s.mark.column : Int) < indent then return (f, e)
    plainWords start indent fuel f e

/-- Scan a plain scalar. If it ended after a line break, a key may start at the next token. -/
def scanPlain : LexM Unit := do
  let s ← get
  let start := s.mark
  let (f, e) ← plainWords start (s.indent + 1) (s.chars.size + 1) {} start
  push (.scalar f.text .plain) start e
  if f.leadingBlanks then modify fun s => { s with simpleKeyAllowed := true }

/-! ## Quoted scalars -/

/-- The character a one-letter escape stands for. -/
def escapeChar : Char → Option Char
  | '0' => some '\x00'
  | 'a' => some '\x07'
  | 'b' => some '\x08'
  | 't' => some '\t'
  | '\t' => some '\t'
  | 'n' => some '\n'
  | 'v' => some '\x0B'
  | 'f' => some '\x0C'
  | 'r' => some '\r'
  | 'e' => some '\x1B'
  | ' ' => some ' '
  | '"' => some '"'
  | '\'' => some '\''
  | '\\' => some '\\'
  | 'N' => some '\u0085'
  | '_' => some '\u00A0'
  | 'L' => some '\u2028'
  | 'P' => some '\u2029'
  | _ => none

/-- The number of hexadecimal digits after `\x`, `\u` and `\U`. -/
def escapeWidth : Char → Nat
  | 'x' => 2
  | 'u' => 4
  | 'U' => 8
  | _ => 0

/-- The value of `width` hexadecimal digits from the current position, if they are digits. -/
def hexValue (s : Lexer) (width : Nat) : Option Nat :=
  (List.range width).foldl
    (fun acc k => acc.bind fun v =>
      let c := s.peekChar k
      if isHexChar c then some (v * 16 + hexCharValue c) else none)
    (some 0)

/-- Read an escape sequence of a double-quoted scalar (at its backslash). -/
def scanEscape (start : Mark) (f : Folding) : LexM Folding := do
  let s ← get
  let n := s.peekChar 1
  let width := escapeWidth n
  match escapeChar n with
  | some c =>
    modify (·.advance 2)
    pure { f with text := f.text.push c }
  | none =>
    if width == 0 then fail start "found unknown escape character"
    else
      modify (·.advance 2)
      match hexValue (← get) width with
      | none => fail start "did not find expected hexdecimal number"
      | some v =>
        if (0xD800 ≤ v && v ≤ 0xDFFF) || v > 0x10FFFF then
          fail start "found invalid Unicode character escape code"
        else
          modify (·.advance width)
          pure { f with text := f.text.push (Char.ofNat v) }

/-- Read the non-blank characters of a quoted scalar up to a blank, a break or its closing
quote. An escaped line break is consumed and marks the line as broken. -/
def quotedChars (single : Bool) (start : Mark) : Nat → Folding → LexM Folding
  | 0, f => pure f
  | fuel + 1, f => do
    let s ← get
    let c := s.peekChar 0
    let n := s.peekChar 1
    if isSeparator c then pure f
    else if single && c == '\'' && n == '\'' then
      modify (·.advance 2)
      quotedChars single start fuel { f with text := f.text.push '\'' }
    else if (single && c == '\'') || (!single && c == '"') then pure f
    else if !single && c == '\\' && isBreak n then
      skip
      skipLine
      pure { f with leadingBlanks := true }
    else if !single && c == '\\' then
      let f ← scanEscape start f
      quotedChars single start fuel f
    else
      let c ← read
      quotedChars single start fuel { f with text := f.text.push c }

/-- Read the lines of a quoted scalar up to its closing quote. A document marker at the start
of a line, or the end of the text, is a problem. -/
def quotedLines (single : Bool) (start : Mark) : Nat → Folding → LexM Folding
  | 0, f => pure f
  | fuel + 1, f => do
    let s ← get
    if s.atIndicator '-' || s.atIndicator '.' then fail start "found unexpected document indicator"
    else if isEnd (s.peekChar 0) then fail start "found unexpected end of stream"
    else
      let f ← quotedChars single start (s.chars.size + 1) { f with leadingBlanks := false }
      let c := (← get).peekChar 0
      if (single && c == '\'') || (!single && c == '"') then pure f
      else
        let f ← gatherBlanks start (-1) ((← get).chars.size + 1) f
        quotedLines single start fuel f.join

/-- Scan a single- or double-quoted scalar. -/
def scanQuoted (single : Bool) : LexM Unit := do
  let start := (← get).mark
  skip
  let f ← quotedLines single start ((← get).chars.size + 1) {}
  skip
  push (.scalar f.text (if single then .singleQuoted else .doubleQuoted)) start (← get).mark

/-! ## Block scalars -/

/-- Consume the indentation and empty lines before a line of a block scalar. With `indent` 0
the indentation is not known yet and is then taken from the deepest of these lines, at least
one more than the enclosing block and at least 1. Returns the indentation, the breaks read
and the mark after the last of them. -/
def blockBreaks (start : Mark) (outer : Int) (indent : Nat) :
    Nat → Nat → String → Mark → LexM (Nat × String × Mark)
  | 0, deepest, breaks, e => pure (settle deepest, breaks, e)
  | fuel + 1, deepest, breaks, e => do
    let s ← get
    let spaces := runFrom s.chars (· == ' ') s.pos
    let n := if indent == 0 then spaces else min spaces (indent - s.mark.column)
    modify (·.advance n)
    let s ← get
    let deepest := max deepest s.mark.column
    if (indent == 0 || s.mark.column < indent) && s.peekChar 0 == '\t' then
      fail start "found a tab character where an indentation space is expected"
    else if !isBreak (s.peekChar 0) then pure (settle deepest, breaks, e)
    else
      let b ← readLine
      blockBreaks start outer indent fuel deepest (breaks ++ b) (← get).mark
where
  /-- The indentation, once the lines before the first content line are known. -/
  settle (deepest : Nat) : Nat :=
    if indent != 0 then indent else max (max deepest (outer + 1).toNat) 1

/-- The chomping indicator (`-1` strip, `0` clip, `1` keep) and indentation digit (0 when
absent) of a block scalar header, in either order. -/
def blockIndicators (start : Mark) : LexM (Int × Nat) := do
  let chomp (c : Char) : Int := if c == '+' then 1 else -1
  let digit : LexM Nat := do
    let c := (← get).peekChar 0
    if c == '0' then fail start "found an indentation indicator equal to 0"
    else if '1' ≤ c && c ≤ '9' then
      skip
      pure (c.toNat - '0'.toNat)
    else pure 0
  let c := (← get).peekChar 0
  if c == '+' || c == '-' then
    skip
    let d ← digit
    pure (chomp c, d)
  else if '0' ≤ c && c ≤ '9' then
    let d ← digit
    let c := (← get).peekChar 0
    if c == '+' || c == '-' then
      skip
      pure (chomp c, d)
    else pure (0, d)
  else pure (0, 0)

/-- Read the lines of a block scalar while they start at its indentation. -/
def blockLines (literal : Bool) (start : Mark) (outer : Int) (indent : Nat) :
    Nat → String → String → String → Bool → Mark → LexM (String × String × String × Mark)
  | 0, text, leading, trailing, _, e => pure (text, leading, trailing, e)
  | fuel + 1, text, leading, trailing, leadingBlank, e => do
    let s ← get
    if s.mark.column != indent || isEnd (s.peekChar 0) then
      return (text, leading, trailing, e)
    let trailingBlank := isBlank (s.peekChar 0)
    let text :=
      if !literal && !leadingBlank && !trailingBlank && leading.startsWith "\n" then
        (if trailing.isEmpty then text.push ' ' else text)
      else text ++ leading
    let text := text ++ trailing
    let leadingBlank := isBlank (s.peekChar 0)
    let line ← readRun (fun c => !isBreakOrEnd c)
    let leading ← readLine
    let (_, trailing, e) ← blockBreaks start outer indent ((← get).chars.size + 1) 0 "" (← get).mark
    blockLines literal start outer indent fuel (text ++ line) leading trailing leadingBlank e

/-- Scan a literal (`|`) or folded (`>`) block scalar. -/
def scanBlock (literal : Bool) : LexM Unit := do
  let start := (← get).mark
  skip
  let (chomping, increment) ← blockIndicators start
  skipRun isBlank
  if (← get).peekChar 0 == '#' then skipRun (fun c => !isBreakOrEnd c)
  if !isBreakOrEnd ((← get).peekChar 0) then
    fail start "did not find expected comment or line break"
  skipLine
  let s ← get
  let outer := s.indent
  let indent : Nat :=
    if increment > 0 then (if outer ≥ 0 then (outer + increment).toNat else increment) else 0
  let (indent, trailing, e) ← blockBreaks start outer indent (s.chars.size + 1) 0 "" s.mark
  let (text, leading, trailing, e) ←
    blockLines literal start outer indent ((← get).chars.size + 1) "" "" trailing false e
  let text := if chomping != -1 then text ++ leading else text
  let text := if chomping == 1 then text ++ trailing else text
  push (.scalar text (if literal then .literal else .folded)) start e

end TraceSynth.Yaml.Lexer
