import TraceSynth.Program.Expr
import TraceSynth.Text.Quoted
import TraceSynth.Text.Letter

/-!
# Tokens of program text

Program text is split into identifiers (Unicode letters, `_` and, after the first, digits),
numbers, double-quoted strings and single characters; blanks and `//` or `/* */` comments
separate them. `==` and `+=` are one token only when their two characters are adjacent.

A number may carry a `0x`, `0o` or `0b` prefix (a bare leading `0` makes it octal), `_`
between digits, a fraction and an exponent (`e`, or `p` after a hexadecimal mantissa). The
first problem met while splitting is kept with the line the scanner stood on, and splitting
goes on to the end; a text with a problem yields that problem and no tokens.

Lines count from 1. A token's line is the line of its first character; the line of a problem
is the line of the character read last, a line break belonging to the line it ends.
-/

namespace TraceSynth

namespace Program

/-- The kinds of token. -/
inductive TokenKind where
  | eof
  | ident
  | int
  | float
  | string
  /-- Any other character, standing for itself. -/
  | char (c : Char)
  /-- `==`. -/
  | eqEq
  /-- `+=`. -/
  | plusEq
  deriving DecidableEq, Inhabited

/-- How a token kind is named in messages: the class for classes, else the quoted character
(the two-character operators have no character and show the replacement character). -/
def TokenKind.describe : TokenKind → String
  | .eof => "EOF"
  | .ident => "Ident"
  | .int => "Int"
  | .float => "Float"
  | .string => "String"
  | .char c => Quoted.quote (Bytes.ofString c.toString)
  | .eqEq | .plusEq => Quoted.quote (Bytes.ofString "�")

/-- A token: its kind, its text, its line and the index of its first character. -/
structure Token where
  kind : TokenKind
  text : String
  line : Nat
  offset : Nat
  deriving Inhabited

/-- A problem in program text, with its line. -/
structure SyntaxError where
  line : Nat
  msg : String
  deriving Inhabited

/-- The text of a syntax error. -/
def SyntaxError.message (e : SyntaxError) : String := "line " ++ toString e.line ++ ": " ++ e.msg

/-- The scanner's position in the text. -/
structure Cursor where
  /-- The text. -/
  chars : Array Char
  /-- Characters read, the look-ahead included. -/
  pos : Nat := 0
  /-- The line after the last character read. -/
  line : Nat := 1
  /-- The column after the last character read, 0 after a line break. -/
  column : Nat := 0
  /-- The length of the line a line break ended. -/
  lastLineLen : Nat := 0
  /-- 1 after reading a character, 0 at the start and after the end was read. -/
  lastCharLen : Nat := 0
  /-- The first problem met. -/
  problem : Option SyntaxError := none
  deriving Inhabited

namespace Cursor

/-- The line of the last character read: a line break belongs to the line it ends. -/
def posLine (c : Cursor) : Nat :=
  if c.column > 0 then c.line else if c.lastLineLen > 0 then c.line - 1 else 1

/-- Record a problem unless one is recorded already. -/
def report (c : Cursor) (msg : String) : Cursor :=
  if c.problem.isSome then c else { c with problem := some { line := c.posLine, msg } }

/-- Read the next character, none at the end. -/
def next (c : Cursor) : Cursor × Option Char :=
  if h : c.pos < c.chars.size then
    let ch := c.chars[c.pos]
    let c := { c with pos := c.pos + 1, lastCharLen := 1, column := c.column + 1 }
    let c := if ch == '\x00' then c.report "invalid character NUL" else c
    let c := if ch == '\n' then { c with line := c.line + 1, lastLineLen := c.column, column := 0 }
      else c
    (c, some ch)
  else
    ({ c with column := if c.lastCharLen > 0 then c.column + 1 else c.column, lastCharLen := 0 },
      none)

/-- The index of the look-ahead character. -/
def mark (c : Cursor) : Nat := c.pos - c.lastCharLen

end Cursor

/-- Whether a character may stand at position `i` of an identifier. -/
def isIdentChar (c : Char) (i : Nat) : Bool :=
  c == '_' || Unicode.isLetter c.toNat || (i > 0 && Unicode.isDecimalDigit c.toNat)

/-- An ASCII decimal digit. -/
def isDecimalChar (c : Char) : Bool := '0' ≤ c && c ≤ '9'

/-- An ASCII hexadecimal digit. -/
def isHexDigitChar (c : Char) : Bool :=
  isDecimalChar c || ('a' ≤ c && c ≤ 'f') || ('A' ≤ c && c ≤ 'F')

/-- ASCII lower case of a letter. -/
def lowerChar (c : Char) : Char := if 'A' ≤ c && c ≤ 'Z' then Char.ofNat (c.toNat + 32) else c

/-- The value of a digit in any base up to 16, 16 for a non-digit. -/
def digitValue (c : Char) : Nat :=
  if isDecimalChar c then c.toNat - '0'.toNat
  else if 'a' ≤ lowerChar c && lowerChar c ≤ 'f' then (lowerChar c).toNat - 'a'.toNat + 10
  else 16

/-- The class of a written number by its prefix, as messages name it. -/
def literalName : Char → String
  | 'x' => "hexadecimal literal"
  | 'o' | '0' => "octal literal"
  | 'b' => "binary literal"
  | _ => "decimal literal"

/-- A character as a quoted character literal (used for ASCII letters and digits). -/
def quoteChar (c : Char) : String := "'" ++ c.toString ++ "'"

/-- The index of the first misplaced `_` in a number's text, if any: `_` must stand between
digits, a base prefix counting as a digit. -/
def misplacedSeparator (x : List Char) : Bool :=
  let (hex, d, rest) := match x with
    | '0' :: p :: rest =>
      let p := lowerChar p
      if p == 'x' || p == 'o' || p == 'b' then (p == 'x', '0', rest) else (false, '.', x)
    | _ => (false, '.', x)
  let step (acc : Option Char) (c : Char) : Option Char :=
    match acc with
    | none => none
    | some prev =>
      if c == '_' then (if prev != '0' then none else some '_')
      else if isDecimalChar c || (hex && isHexDigitChar c) then some '0'
      else if prev == '_' then none
      else some '.'
  match rest.foldl step (some d) with
  | none => true
  | some last => last == '_'

/-- The scanner state between characters: the cursor and the look-ahead character. -/
abbrev Scan := Cursor × Option Char

/-- Read digits of a base (and `_`), noting the first digit too large for the base. Returns
whether a digit and whether a `_` was seen. -/
def digits (base : Nat) : Nat → Scan → Option Char → Scan × Option Char × Bool × Bool
  | 0, s, bad => (s, bad, false, false)
  | fuel + 1, (c, ch), bad =>
    match ch with
    | some d =>
      let isDigit := if base ≤ 10 then isDecimalChar d else isHexDigitChar d
      if isDigit || d == '_' then
        let bad :=
          if d != '_' && base ≤ 10 && digitValue d ≥ base && bad.isNone then some d else bad
        let (s, bad, sawDigit, sawSep) := digits base fuel (c.next) bad
        (s, bad, sawDigit || d != '_', sawSep || d == '_')
      else ((c, ch), bad, false, false)
    | none => ((c, ch), bad, false, false)

/-- Scan a number whose first character (or, after a point, first fraction digit) is the
look-ahead. Returns whether it is a float. -/
def scanNumber (s : Scan) (seenDot : Bool) (start : Nat) : Scan × Bool :=
  let fuel := s.1.chars.size + 1
  let (s, base, pfx, lead) :=
    if !seenDot && s.2 == some '0' then
      let (c, ch) := s.1.next
      match ch.map lowerChar with
      | some 'x' => (c.next, 16, 'x', false)
      | some 'o' => (c.next, 8, 'o', false)
      | some 'b' => (c.next, 2, 'b', false)
      | _ => ((c, ch), 8, '0', true)
    else (s, 10, ' ', false)
  let (s, bad, dig1, sep1) := if seenDot then (s, none, false, false) else digits base fuel s none
  let (s, seenDot) := if !seenDot && s.2 == some '.' then (s.1.next, true) else (s, seenDot)
  let s := if seenDot && (pfx == 'o' || pfx == 'b') then
      (s.1.report ("invalid radix point in " ++ literalName pfx), s.2) else s
  let (s, bad, dig2, sep2) := if seenDot then digits base fuel s bad else (s, bad, false, false)
  let isFloat := seenDot
  let s := if !(lead || dig1 || dig2) then (s.1.report (literalName pfx ++ " has no digits"), s.2)
    else s
  let e := s.2.map lowerChar
  let (s, isFloat, sep3) :=
    if e == some 'e' || e == some 'p' then
      let c := s.1
      let c := if e == some 'e' && pfx != ' ' && pfx != '0' then
          c.report (quoteChar (s.2.getD 'e') ++ " exponent requires decimal mantissa")
        else if e == some 'p' && pfx != 'x' then
          c.report (quoteChar (s.2.getD 'p') ++ " exponent requires hexadecimal mantissa")
        else c
      let s := c.next
      let s := if s.2 == some '+' || s.2 == some '-' then s.1.next else s
      let (s, _, dig, sep) := digits 10 fuel s none
      let s := if !dig then (s.1.report "exponent has no digits", s.2) else s
      (s, true, sep)
    else
      let s := if pfx == 'x' && isFloat then
          (s.1.report "hexadecimal mantissa requires a 'p' exponent", s.2) else s
      (s, isFloat, false)
  let s := match bad with
    | some d => if !isFloat then
        (s.1.report ("invalid digit " ++ quoteChar d ++ " in " ++ literalName pfx), s.2) else s
    | none => s
  let s :=
    if sep1 || sep2 || sep3 then
      let text := (s.1.chars.extract start s.1.mark).toList
      if misplacedSeparator text then (s.1.report "'_' must separate successive digits", s.2) else s
    else s
  (s, isFloat)

/-- Read `n` digits of a base; fewer is a problem. -/
def escapeDigits (base : Nat) : Nat → Scan → Scan
  | 0, s => s
  | k + 1, (c, ch) =>
    match ch with
    | some d =>
      if digitValue d < base then escapeDigits base k c.next
      else (c.report "invalid char escape", ch)
    | none => (c.report "invalid char escape", ch)

/-- Read the rest of an escape sequence after the backslash. -/
def scanEscape (quote : Char) (s : Scan) : Scan :=
  let (c, ch) := s.1.next
  match ch with
  | some d =>
    if "abfnrtv\\".contains d || d == quote then c.next
    else if '0' ≤ d && d ≤ '7' then escapeDigits 8 3 (c, ch)
    else if d == 'x' then escapeDigits 16 2 c.next
    else if d == 'u' then escapeDigits 16 4 c.next
    else if d == 'U' then escapeDigits 16 8 c.next
    else (c.report "invalid char escape", ch)
  | none => (c.report "invalid char escape", ch)

/-- Read a string after its opening quote, up to its closing quote (the look-ahead then). -/
def scanString (quote : Char) : Nat → Scan → Scan
  | 0, s => s
  | fuel + 1, (c, ch) =>
    match ch with
    | none => (c.report "literal not terminated", ch)
    | some '\n' => (c.report "literal not terminated", ch)
    | some d =>
      if d == quote then (c, ch)
      else if d == '\\' then scanString quote fuel (scanEscape quote (c, ch))
      else scanString quote fuel c.next

/-- Skip to the end of the line. -/
def skipLineComment : Nat → Scan → Scan
  | 0, s => s
  | k + 1, (c, ch) =>
    match ch with
    | none | some '\n' => (c, ch)
    | some _ => skipLineComment k c.next

/-- Skip to just after the closing star and slash. -/
def skipBlockComment : Nat → Scan → Scan
  | 0, s => s
  | k + 1, (c, ch) =>
    match ch with
    | none => (c.report "comment not terminated", ch)
    | some d =>
      let (c, ch) := c.next
      if d == '*' && ch == some '/' then c.next else skipBlockComment k (c, ch)

/-- Skip a comment after its `/`; the look-ahead is `/` or `*`. -/
def skipComment (s : Scan) : Scan :=
  if s.2 == some '/' then skipLineComment (s.1.chars.size + 1) s.1.next
  else skipBlockComment (s.1.chars.size + 1) s.1.next

/-- Skip blanks: space, tab, line feed and carriage return. -/
def skipBlanks : Nat → Scan → Scan
  | 0, s => s
  | k + 1, (c, ch) =>
    match ch with
    | some d =>
      if d == ' ' || d == '\t' || d == '\n' || d == '\r' then skipBlanks k c.next else (c, ch)
    | none => (c, ch)

/-- Read the rest of an identifier. -/
def identRest : Nat → Scan → Scan
  | 0, s => s
  | k + 1, (c, ch) =>
    match ch with
    | some e => if isIdentChar e 1 then identRest k c.next else (c, ch)
    | none => (c, ch)

/-- Read one token; comments are skipped. -/
def scanToken : Nat → Scan → Token × Scan
  | 0, (c, ch) => ({ kind := .eof, text := "", line := c.posLine, offset := c.mark }, (c, ch))
  | fuel + 1, s =>
    let (c, ch) := skipBlanks (s.1.chars.size + 1) s
    let start := c.mark
    let line := if c.column > 0 then c.line else c.line - 1
    let finish (kind : TokenKind) (s : Scan) : Token × Scan :=
      ({ kind, text := String.ofList (s.1.chars.extract start s.1.mark).toList, line,
         offset := start }, s)
    match ch with
    | none => ({ kind := .eof, text := "", line, offset := start }, (c, ch))
    | some d =>
      if isIdentChar d 0 then finish .ident (identRest (c.chars.size + 1) c.next)
      else if isDecimalChar d then
        let (s, isFloat) := scanNumber (c, ch) false start
        finish (if isFloat then .float else .int) s
      else if d == '"' then
        let (c, _) := scanString '"' (c.chars.size + 1) c.next
        finish .string c.next
      else if d == '.' then
        let s := c.next
        match s.2 with
        | some e =>
          if isDecimalChar e then finish .float (scanNumber s true start).1
          else finish (.char '.') s
        | none => finish (.char '.') s
      else if d == '/' then
        let s := c.next
        if s.2 == some '/' || s.2 == some '*' then scanToken fuel (skipComment s)
        else finish (.char '/') s
      else finish (.char d) c.next

/-- Append a token, joining `=` to an adjacent `=` or `+` before it. -/
def pushToken (toks : Array Token) (lastOffset : Int) (t : Token) : Array Token :=
  let adjacent := (t.offset : Int) == lastOffset + 1
  match toks.back? with
  | some last =>
    if t.kind == .char '=' && adjacent && last.kind == .char '=' then
      toks.pop.push { last with kind := .eqEq, text := "==", line := t.line }
    else if t.kind == .char '=' && adjacent && last.kind == .char '+' then
      toks.pop.push { last with kind := .plusEq, text := "+=", line := t.line }
    else toks.push t
  | none => toks.push t

/-- Read tokens up to the end. -/
def scanAll : Nat → Scan → Array Token → Int → Array Token × Scan
  | 0, s, toks, _ => (toks, s)
  | fuel + 1, s, toks, lastOffset =>
    let (t, s) := scanToken (s.1.chars.size + 1) s
    if t.kind == .eof then (toks, s)
    else scanAll fuel s (pushToken toks lastOffset t) t.offset

/-- The tokens of a text, ending with the end token, or the first problem met. A leading
byte-order mark is skipped. -/
def tokenize (src : String) : Except SyntaxError (Array Token) :=
  let c : Cursor := { chars := src.toList.toArray }
  let s := c.next
  let s := if s.2 == some '\uFEFF' then s.1.next else s
  let (toks, (c, _)) := scanAll (c.chars.size + 2) s #[] (-2)
  match c.problem with
  | some e => .error e
  | none => .ok (toks.push { kind := .eof, text := "", line := c.posLine, offset := c.mark })

end Program

end TraceSynth
