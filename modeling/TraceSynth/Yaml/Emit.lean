import TraceSynth.Yaml.Resolve

/-!
# Writing YAML

Block-style YAML for trees of mappings, sequences and scalars, indented by two spaces per
level, sequences inside mappings indented too. Empty collections are written `[]` and `{}`.

Scalars that are not strings (numbers, booleans, times) are written as their text. A string is
written plainly when it would read back as the same string and nothing in it forbids the plain
style; when it has line breaks it is a literal block (`|` with a chomping indicator); otherwise
it is single-quoted, or double-quoted with escapes when single quotes cannot hold it. The rules
for what each style admits follow the YAML emitter's analysis of the text: indicators at the
start, `: ` and ` #` inside, leading and trailing spaces, breaks next to spaces, tabs, and
characters outside the printable set.

The line separators U+2028 and U+2029 are line breaks that the writer puts down as they are:
after one the writer stands at the start of a line, so what follows is indented there without a
new line. A literal block starts its first line only when its first character is not a break;
a block that ends with a separator leaves the next key on the separator's line.
-/

namespace TraceSynth.Yaml

/-- A tree to write. -/
inductive Out where
  /-- A scalar written as its text. -/
  | plain (text : String)
  /-- A string. -/
  | str (text : String)
  /-- A mapping, members in order. -/
  | map (members : List (String × Out))
  /-- A sequence. -/
  | seq (items : List Out)
  deriving Inhabited

/-- The styles of scalars. -/
inductive Style where
  | plain
  | singleQuoted
  | doubleQuoted
  | literal
  deriving DecidableEq, Inhabited

/-- Whether a character is printable for YAML. -/
def isPrintable (c : Nat) : Bool :=
  c == 0x0A || (0x20 ≤ c && c ≤ 0x7E) || (0xA0 ≤ c && c ≤ 0xD7FF) ||
    (0xE000 ≤ c && c ≤ 0xFFFD && c != 0xFEFF)

/-- Whether a character is a line break. -/
def isLineBreak (c : Nat) : Bool :=
  c == 0x0A || c == 0x0D || c == 0x85 || c == 0x2028 || c == 0x2029

/-- What the styles admit for a text. -/
structure Admits where
  multiline : Bool := false
  blockPlain : Bool := true
  singleQuoted : Bool := true
  block : Bool := true
  deriving Inhabited

/-- The analysis of a text. -/
def analyze (s : String) : Admits :=
  let cs := s.toList.map Char.toNat
  if cs.isEmpty then { blockPlain := true, singleQuoted := true, block := false }
  else
    let n := cs.length
    let arr := cs.toArray
    let blankAt (i : Nat) : Bool := i ≥ n || arr.getD i 0 == 0x20 || arr.getD i 0 == 0x09
    let startsDoc := n ≥ 3 &&
      ((arr.getD 0 0 == 0x2D && arr.getD 1 0 == 0x2D && arr.getD 2 0 == 0x2D) ||
        (arr.getD 0 0 == 0x2E && arr.getD 1 0 == 0x2E && arr.getD 2 0 == 0x2E))
    let init :
        Bool × Bool × Bool × Bool × Bool × Bool × Bool × Bool × Bool × Bool × Bool × Bool :=
      -- block indicators, line breaks, special, tabs, leading space, leading break,
      -- trailing space, trailing break, break-space, space-break, previous space,
      -- previous break
      (startsDoc, false, false, false, false, false, false, false, false, false, false, false)
    let (_, st) := (List.range n).foldl (fun (acc : Bool × _) i =>
      let (preceded, (bi, lb, sp, tb, ls, lbk, ts, tbk, bs, sb, ps, pb)) := acc
      let c := arr.getD i 0
      let followed := blankAt (i + 1)
      let bi := bi || (if i == 0 then
          (c == 0x23 || c == 0x2C || c == 0x5B || c == 0x5D || c == 0x7B || c == 0x7D ||
            c == 0x26 || c == 0x2A || c == 0x21 || c == 0x7C || c == 0x3E || c == 0x27 ||
            c == 0x22 || c == 0x25 || c == 0x40 || c == 0x60) ||
          ((c == 0x3F || c == 0x3A) && followed) || (c == 0x2D && followed)
        else (c == 0x3A && followed) || (c == 0x23 && preceded))
      let tb := tb || c == 0x09
      let sp := sp || (c != 0x09 && !isPrintable c)
      let (ls, ts, bs, lb, lbk, tbk, sb, ps, pb) :=
        if c == 0x20 then
          (ls || i == 0, ts || i + 1 == n, bs || pb, lb, lbk, tbk, sb, true, false)
        else if isLineBreak c then
          (ls, ts, bs, true, lbk || i == 0, tbk || i + 1 == n, sb || ps, false, true)
        else (ls, ts, bs, lb, lbk, tbk, sb, false, false)
      let preceded := c == 0x20 || c == 0x09 || isLineBreak c
      (preceded, (bi, lb, sp, tb, ls, lbk, ts, tbk, bs, sb, ps, pb))) (true, init)
    let (bi, lb, sp, tb, ls, lbk, ts, tbk, bs, sb, _, _) := st
    let edge := ls || lbk || ts || tbk
    { multiline := lb,
      blockPlain := !(edge || bs || sb || tb || sp || lb || bi),
      singleQuoted := !(bs || sb || tb || sp),
      block := !(ts || sb || sp) }

/-- Whether a text looks like a sexagesimal float, which older readers take for a number. -/
def isBase60Float (s : String) : Bool :=
  let cs := s.toList
  let body := match cs with
    | '+' :: r | '-' :: r => r
    | _ => cs
  match body with
  | c :: _ =>
    if !c.isDigit || !cs.contains ':' then false
    else
      let (whole, frac) := match body.splitOn '.' with
        | [w] => (w, none)
        | [w, f] => (w, some f)
        | _ => ([], none)
      let fracOk := match frac with
        | some f => f.all fun d => d.isDigit || d == '_'
        | none => true
      match (String.ofList whole).splitOn ":" with
      | first :: groups =>
        !first.isEmpty && first.toList.all (fun d => d.isDigit || d == '_') &&
          (first.toList.head?.map Char.isDigit).getD false && !groups.isEmpty &&
          groups.all (fun g => match g.toList with
            | [d] => d.isDigit
            | [a, b] => ('0' ≤ a && a ≤ '5') && b.isDigit
            | _ => false) && fracOk
      | [] => false
  | [] => false

/-- The spellings of booleans in older YAML. -/
def isOldBool (s : String) : Bool :=
  ["y", "Y", "yes", "Yes", "YES", "on", "On", "ON", "n", "N", "no", "No", "NO", "off", "Off",
    "OFF"].contains s

/-- The style a string is written in. -/
def styleOf (s : String) : Style :=
  let a := analyze s
  let plainReads := (match resolve "" s with
    | .str => true
    | _ => false) && !isBase60Float s && !isOldBool s
  let requested := if s.contains '\n' then Style.literal
    else if plainReads then .plain else .doubleQuoted
  let style := if requested == .plain && !a.blockPlain then Style.singleQuoted else requested
  let style := if style == .singleQuoted && !a.singleQuoted then Style.doubleQuoted else style
  if style == .literal && !a.block then .doubleQuoted else style

/-- Upper-case hexadecimal digits of a number, `width` of them. -/
def hexUpper (width n : Nat) : String :=
  String.ofList ((List.range width).reverse.map fun i =>
    let d := n / 16 ^ i % 16
    if d < 10 then Char.ofNat (48 + d) else Char.ofNat (55 + d))

/-- The escape of a character in a double-quoted scalar, or none when it stands for itself. -/
def escape (c : Nat) : Option String :=
  if isPrintable c && c != 0xFEFF && !isLineBreak c && c != 0x22 && c != 0x5C then none
  else some ("\\" ++ match c with
    | 0x00 => "0" | 0x07 => "a" | 0x08 => "b" | 0x09 => "t" | 0x0A => "n" | 0x0B => "v"
    | 0x0C => "f" | 0x0D => "r" | 0x1B => "e" | 0x22 => "\"" | 0x5C => "\\" | 0x85 => "N"
    | 0xA0 => "_" | 0x2028 => "L" | 0x2029 => "P"
    | _ => if c ≤ 0xFF then "x" ++ hexUpper 2 c
      else if c ≤ 0xFFFF then "u" ++ hexUpper 4 c else "U" ++ hexUpper 8 c)

/-- A double-quoted scalar. -/
def doubleQuoted (s : String) : String :=
  "\"" ++ String.join (s.toList.map fun c => (escape c.toNat).getD (String.singleton c)) ++ "\""

/-- Whether a character is a line break written as itself: a line or paragraph separator. -/
def isRawBreak (c : Char) : Bool := c.toNat == 0x2028 || c.toNat == 0x2029

/-- Where the writer stands: its column, whether nothing but indentation is on the line
(`indention`), and whether the last thing written was white space. -/
structure Pen where
  column : Nat := 0
  indention : Bool := false
  whitespace : Bool := false
  deriving Inhabited

/-- Go to an indentation: a new line unless the pen is on an indentation that does not reach
past it, then spaces up to it. -/
def Pen.toIndent (p : Pen) (indent : Nat) : String × Pen :=
  let newLine := !p.indention || p.column > indent || (p.column == indent && !p.whitespace)
  let column := if newLine then 0 else p.column
  ((if newLine then "\n" else "") ++ String.ofList (List.replicate (indent - column) ' '),
    { column := max column indent, indention := true, whitespace := true })

/-- The pen after writing a character. -/
def Pen.wrote (p : Pen) (n : Nat) : Pen := { p with column := p.column + n }

/-- The pen after a line break. -/
def Pen.broke (p : Pen) : Pen := { p with column := 0, indention := true }

/-- The body of a single-quoted scalar after its opening quote, lines after a break indented to
`indent`, with its closing quote. A space is written as it is, and a quote doubled; the closing
quote follows the last character directly, a break included. -/
def singleQuotedBody (indent : Nat) : List Char → Pen → Bool → String
  | [], _, _ => "'"
  | c :: rest, p, breaks =>
    if c == ' ' then " " ++ singleQuotedBody indent rest (p.wrote 1) breaks
    else if c == '\n' then
      (if breaks then "\n" else "\n\n") ++ singleQuotedBody indent rest p.broke true
    else if isRawBreak c then String.singleton c ++ singleQuotedBody indent rest p.broke true
    else
      let (pre, p) := if breaks then p.toIndent indent else ("", p)
      let text := if c == '\'' then "''" else String.singleton c
      let p := { p.wrote text.length with indention := false }
      pre ++ text ++ singleQuotedBody indent rest p false

/-- A single-quoted scalar whose lines after a break are indented to `indent`. -/
def singleQuoted (indent : Nat) (s : String) : String :=
  "'" ++ singleQuotedBody indent s.toList { column := 1 } false

/-- The header of a literal block: indentation hint when the text starts with a space or a
break, and the chomping indicator. -/
def literalHeader (s : String) : String :=
  let cs := s.toList
  let indentHint := match cs with
    | c :: _ => if c == ' ' || isLineBreak c.toNat then "2" else ""
    | [] => ""
  let chomp := match cs.reverse with
    | [] => "-"
    | last :: before =>
      if !isLineBreak last.toNat then "-"
      else match before with
        | [] => "+"
        | prev :: _ => if isLineBreak prev.toNat then "+" else ""
  "|" ++ indentHint ++ chomp

/-- The body of a literal block after its header, lines indented by `pad`. A character after a
break starts at the indentation; the first character, when it is no break, first starts a
line. A line feed ends a line, and a separator is written as it is. -/
def literalBody (pad : String) : List Char → Bool → Bool → String
  | [], _, _ => ""
  | c :: rest, started, breaks =>
    if c == '\n' then "\n" ++ literalBody pad rest true true
    else if isRawBreak c then String.singleton c ++ literalBody pad rest true true
    else
      (if breaks then (if started then "" else "\n") ++ pad else "") ++ String.singleton c ++
        literalBody pad rest true false

/-- The lines of a text, each with its line feed. The last line keeps none when it ends with
a separator, after which the writer already stands at the start of a line; it is given one
otherwise. -/
def linesOf (text : String) : List String :=
  let pieces := text.splitOn "\n"
  let last := pieces.getLastD ""
  pieces.dropLast.map (· ++ "\n") ++
    (if last.isEmpty then []
    else if (last.toList.getLast?.map isRawBreak).getD false then [last]
    else [last ++ "\n"])

/-- The lines of a literal block at an indentation, its header first. -/
def literalLines (indent : Nat) (s : String) : List String :=
  linesOf (literalHeader s ++
    literalBody (String.ofList (List.replicate indent ' ')) s.toList false true)

/-- The lines of a scalar after a key, each with its line feed, the first on the key's line. -/
def scalarText (indent : Nat) : Out → List String
  | .plain t => [t ++ "\n"]
  | .str s =>
    match styleOf s with
    | .plain => [s ++ "\n"]
    | .singleQuoted => [singleQuoted (indent + 2) s ++ "\n"]
    | .doubleQuoted => [doubleQuoted s ++ "\n"]
    | .literal => literalLines (indent + 2) s
  | _ => ["\n"]

/-- A scalar's lines after a prefix on its first line. -/
def afterPrefix (pre : String) : List String → List String
  | [] => [pre ++ "\n"]
  | first :: more => (pre ++ first) :: more

/-- Spaces. -/
def spaces (n : Nat) : String := String.ofList (List.replicate n ' ')

mutual

/-- The lines of a mapping at an indentation, each with its line feed. -/
def mapLines (indent : Nat) : List (String × Out) → List String
  | [] => []
  | (k, v) :: rest => memberLines indent k v ++ mapLines indent rest

/-- The lines of one member. -/
def memberLines (indent : Nat) (k : String) : Out → List String
  | .map [] => [spaces indent ++ k ++ ": \x7b\x7d\n"]
  | .seq [] => [spaces indent ++ k ++ ": []\n"]
  | .map ms => (spaces indent ++ k ++ ":\n") :: mapLines (indent + 2) ms
  | .seq items => (spaces indent ++ k ++ ":\n") :: seqLines (indent + 2) items
  | v => afterPrefix (spaces indent ++ k ++ ": ") (scalarText indent v)

/-- The lines of a sequence at an indentation. -/
def seqLines (indent : Nat) : List Out → List String
  | [] => []
  | item :: rest => itemLines indent item ++ seqLines indent rest

/-- The lines of one item: a mapping starts on the dash's line. -/
def itemLines (indent : Nat) : Out → List String
  | .map [] => [spaces indent ++ "- \x7b\x7d\n"]
  | .seq [] => [spaces indent ++ "- []\n"]
  | .map ms =>
    match mapLines (indent + 2) ms with
    | first :: more => (spaces indent ++ "- " ++ (first.drop (indent + 2)).toString) :: more
    | [] => []
  | .seq items =>
    match seqLines (indent + 2) items with
    | first :: more => (spaces indent ++ "- " ++ (first.drop (indent + 2)).toString) :: more
    | [] => []
  | v => afterPrefix (spaces indent ++ "- ") (scalarText indent v)

end

/-- The text of a document. -/
def Out.text : Out → String
  | .map ms => String.join (mapLines 0 ms)
  | .seq items => String.join (seqLines 0 items)
  | v => String.join (scalarText 0 v)

end TraceSynth.Yaml
