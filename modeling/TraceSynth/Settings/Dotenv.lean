import TraceSynth.Text.Letter

/-!
# Environment files

An environment file assigns values to names, one assignment a line: `NAME=value` or
`NAME: value`, perhaps after `export`, with a comment after `#` allowed. Blank lines and lines
starting with `#` are skipped. Names are made of letters, digits, `_` and `.`. Lines end at a
line feed, a carriage return, or both.

A value in single quotes is taken as it is written. A value in double quotes has `\n` and `\r`
read as line breaks and a backslash before any other character but `$` dropped. A quoted value
may run over several lines, up to the line that closes its quote.

Outside single quotes, `$NAME` and `${NAME}` are replaced by the value of the environment
variable, else of a name the file assigned before, else by nothing; `\$` keeps a dollar sign.

A line of another form is refused, as is a quote never closed.
-/

namespace TraceSynth

namespace Dotenv

/-- Whether a character is white space to the line grammar: tab, line feed, form feed, carriage
return or space. -/
def isGap (c : Char) : Bool := c == ' ' || c == '\t' || c == '\n' || c == '\r' || c == '\x0c'

/-- Whether a character may stand in a name. -/
def isNameChar (c : Char) : Bool := c.isAlphanum || c == '_' || c == '.'

/-- Characters with white space trimmed from both ends. -/
def trim (cs : List Char) : List Char :=
  let gap (c : Char) := Unicode.isSpace c.toNat
  ((cs.dropWhile gap).reverse.dropWhile gap).reverse

/-- Whether what follows a value is only white space and perhaps a comment to the end. -/
def tailOk (t : List Char) : Bool :=
  match t.dropWhile isGap with
  | [] => true
  | '#' :: rest => !rest.contains '\n'
  | _ => false

/-- The longest quoted value at the start of a text, closed by the last quote after which only
a comment follows. -/
def quoted (q : Char) (r : List Char) : Option (List Char) :=
  match r with
  | c :: _ =>
    if c != q then none
    else ((List.range r.length).reverse.find? fun j =>
      j > 0 && r.getD j ' ' == q && tailOk (r.drop (j + 1))).map fun j => r.take (j + 1)
  | [] => none

/-- The value at the start of a text after the delimiter, when the rest of the line allows one:
a quoted value, else the text up to a comment, else nothing. -/
def value (r : List Char) : Option (List Char) :=
  let bare := (r.takeWhile fun c => c != '#' && c != '\n').length
  let plain := ((List.range bare).reverse.map (· + 1)).find? fun k => tailOk (r.drop k)
  match quoted '\'' r <|> quoted '"' r with
  | some v => some v
  | none => match plain with
    | some k => some (r.take k)
    | none => if tailOk r then some [] else none

/-- The white-space splits of a text after a colon: one character of white space first, then
more. -/
def colonSplits (r : List Char) : List (List Char) :=
  let n := (r.takeWhile isGap).length
  (List.range n).map fun i => r.drop (i + 1)

/-- The name and value of an assignment whose name starts the text. -/
def assignmentAt (s : List Char) : Option (String × List Char) := do
  let name := s.takeWhile isNameChar
  if name.isEmpty then none
  let rest := s.drop name.length
  let afterGap := rest.dropWhile isGap
  let v ← match afterGap with
    | '=' :: r => value (r.dropWhile isGap)
    | _ => match rest with
      | ':' :: r => (colonSplits r).findSome? value
      | _ => none
  pure (String.ofList name, v)

/-- The name and raw value of an assignment line. -/
def assignment (line : List Char) : Option (String × List Char) :=
  let s := line.dropWhile isGap
  let exported :=
    if "export".toList.isPrefixOf s && (s.drop 6).any isGap && isGap ((s.drop 6).headD 'x') then
      assignmentAt ((s.drop 6).dropWhile isGap)
    else none
  exported <|> assignmentAt s

/-- Replace each pair of characters `a b`, read left to right, by `r`. -/
def replacePair (a b r : Char) : List Char → List Char
  | x :: y :: rest =>
    if x == a && y == b then r :: replacePair a b r rest else x :: replacePair a b r (y :: rest)
  | cs => cs

/-- Drop each backslash that escapes a character other than `$`. -/
def dropEscapes : List Char → List Char
  | '\\' :: c :: rest => if c == '$' then '\\' :: dropEscapes (c :: rest) else c :: dropEscapes rest
  | c :: rest => c :: dropEscapes rest
  | [] => []

/-- A double-quoted value with its escapes read: first `\n`, then `\r`, then the other escapes. -/
def unescape (cs : List Char) : List Char :=
  dropEscapes (replacePair '\\' 'r' '\r' (replacePair '\\' 'n' '\n' cs))

/-- Whether a character may stand in a variable name. -/
def isVarChar (c : Char) : Bool := ('A' ≤ c && c ≤ 'Z') || c.isDigit || c == '_'

/-- What a dollar sign takes with it: an optional brace, a name, an optional closing brace;
and what is left. -/
def reference (cs : List Char) : List Char × List Char :=
  let openBrace := cs.head? == some '\x7b'
  let afterOpen := if openBrace then cs.drop 1 else cs
  let name := afterOpen.takeWhile isVarChar
  let afterName := afterOpen.drop name.length
  let closeBrace := afterName.head? == some '\x7d'
  let taken := (if openBrace then 1 else 0) + name.length + (if closeBrace then 1 else 0)
  (cs.take taken, cs.drop taken)

/-- The value of a variable: the environment's, else the last assignment's, else nothing. -/
def lookup (env assigned : List (String × String)) (body : List Char) : List Char :=
  let name := body.filter isVarChar
  if name.isEmpty then '$' :: body
  else
    let key := String.ofList name
    let found := (env.find? (·.1 == key)) <|> (assigned.reverse.find? (·.1 == key))
    (found.map (·.2.toList)).getD []

/-- Replace the variables of a value, looking names up in the environment and then among the
assignments before; `fuel` bounds the characters read. -/
def expand (env assigned : List (String × String)) : Nat → List Char → List Char
  | 0, cs => cs
  | _ + 1, [] => []
  | fuel + 1, '\\' :: '$' :: rest =>
    let (body, after) := reference rest
    '$' :: body ++ expand env assigned fuel after
  | fuel + 1, '$' :: rest =>
    let (body, after) := reference rest
    lookup env assigned body ++ expand env assigned fuel after
  | fuel + 1, c :: rest => c :: expand env assigned fuel rest

/-- The value an assignment stores: trimmed, unquoted, escapes read and variables replaced as
its quotes say. -/
def finish (env assigned : List (String × String)) (raw : List Char) : String :=
  let v := trim raw
  let n := v.length
  let dq := n ≥ 2 && v.head? == some '"' && v.getLast? == some '"'
  let sq := n ≥ 2 && v.head? == some '\'' && v.getLast? == some '\''
  let v := if dq || sq then (v.drop 1).take (n - 2) else v
  let v := if dq then unescape v else v
  String.ofList (if sq then v else expand env assigned (v.length + 1) v)

/-- The lines of a text, ended by a line feed, a carriage return, or both. -/
def lines (cs : List Char) : List (List Char) :=
  let (done, cur, _) := cs.foldl (fun (acc : List (List Char) × List Char × Bool) c =>
    let (done, cur, afterCr) := acc
    if c == '\n' then (if afterCr then (done, [], false) else (done ++ [cur.reverse], [], false))
    else if c == '\r' then (done ++ [cur.reverse], [], true)
    else (done, c :: cur, false)) ([], [], false)
  if cur.isEmpty then done else done ++ [cur.reverse]

/-- The last position of a character in a list. -/
def lastIndex (cs : List Char) (c : Char) : Option Nat :=
  (List.range cs.length).reverse.find? fun i => cs.getD i ' ' == c

/-- Whether a backslash begins at byte `k` of a text. -/
def backslashAt : List Char → Nat → Bool
  | [], _ => false
  | c :: rest, k =>
    if k == 0 then c == '\\'
    else if k < c.utf8Size then false
    else backslashAt rest (k - c.utf8Size)

/-- The quote a line leaves open, if its value starts with a quote. The closing quote is the
last one in the rest of the value, trimmed of white space; none leaves the quote open, and so
does a backslash in the value at the byte offset that closing quote has in the trimmed rest.
The two offsets are taken in different texts, so white space after the opening quote moves
the byte that is looked at. -/
def openQuote (line : List Char) : Option Char := do
  let i ← line.findIdx? (· == '=') <|> line.findIdx? (· == ':')
  if i == 0 || i + 1 ≥ line.length then none
  let v := trim (line.drop (i + 1))
  let q ← v.head?
  if q != '"' && q != '\'' then none
  let rest := trim (v.drop 1)
  match lastIndex rest q with
  | some j => if backslashAt v (String.ofList (rest.take j)).utf8ByteSize then some q else none
  | none => some q

/-- Join the following lines to a line until its quote closes; the joined line, the lines left,
and whether the quote is still open. -/
def joinQuoted (q : Char) : List (List Char) → List Char → List Char × List (List Char) × Bool
  | [], line => (line, [], true)
  | l :: rest, line =>
    let line := line ++ '\n' :: l
    match lastIndex l q with
    | some j =>
      if j > 0 && l.getD (j - 1) ' ' == '\\' then joinQuoted q rest line else (line, rest, false)
    | none => joinQuoted q rest line

/-- Why a line that is no assignment is refused. -/
def refusal (line : List Char) (assigned : List (String × String)) : String :=
  let st := String.ofList (trim line)
  let words := st.splitOn " "
  if st.startsWith "export" && words.length > 1 &&
      !assigned.any (·.1 == " ".intercalate words.tail) then
    "line `" ++ st ++ "` has an unset variable"
  else "line `" ++ String.ofList line ++ "` doesn't match format"

/-- Read the assignments of lines, given the environment and the assignments so far; `fuel`
bounds the lines read. -/
def readLines (env : List (String × String)) :
    Nat → List (List Char) → List (String × String) → Except String (List (String × String))
  | 0, _, assigned => .ok assigned
  | _ + 1, [], assigned => .ok assigned
  | fuel + 1, raw :: rest, assigned =>
    let line := trim raw
    if line.isEmpty || line.head? == some '#' then readLines env fuel rest assigned
    else
      let (line, rest, unclosed) := match openQuote line with
        | some q => joinQuoted q rest line
        | none => (line, rest, false)
      if unclosed then .error "missing quotes"
      else match assignment line with
        | none => .error (refusal line assigned)
        | some (name, raw) =>
          let name := String.ofList (trim name.toList)
          let assigned := assigned.filter (·.1 != name) ++ [(name, finish env assigned raw)]
          readLines env fuel rest assigned

/-- Read an environment file, given the environment its variables are looked up in. A byte
order mark is dropped when it opens the file; anywhere else it is an ordinary character. -/
def read (env : List (String × String)) (text : String) :
    Except String (List (String × String)) :=
  let cs := match text.toList with
    | '\uFEFF' :: rest => rest
    | cs => cs
  let ls := lines cs
  readLines env (ls.length + 1) ls []

end Dotenv

end TraceSynth
