import TraceSynth.Toml.Document
import TraceSynth.Toml.Strings

/-!
# Reading TOML expressions

The reader splits a document into its expressions, finding where each key and value ends.
Every line holds at most one expression, perhaps followed by blanks and a comment, and must end
in a line break or the end of the document.

A value that is no string, boolean, array or inline table is a number, a date or a time, told
apart by its first bytes: two digits and a colon, or four digits and a dash, start a date or
time. Its extent is found here and its characters kept; whether they make a valid number or
date is decided when the value is decoded. A number's extent is greedy: digits, signs,
underscores, points and exponent letters, so `1-2` is one integer to be refused later; a `0`
that starts a longer number ends it unless a base letter, a point or an exponent follows, and
what follows must then end the line.

The reader stops at the first byte it cannot place, and everything it read before it is kept:
the expressions before a fault are decoded before the fault is reported.

The loops of the reader carry a step budget computed from the length of the document, enough
for every byte to be read once at each level of nesting it sits in.
-/

namespace TraceSynth.Toml

/-- Whether a byte may stand in a bare key: an ASCII letter or digit, `-` or `_`. -/
def isBareKeyChar (c : Char) : Bool :=
  ('A' ≤ c && c ≤ 'Z') || ('a' ≤ c && c ≤ 'z') || ('0' ≤ c && c ≤ '9') || c == '-' || c == '_'

/-- Read one part of a key: bare, or a one-line string. -/
def simpleKey (cs : Octets) : ReadM (String × Octets) :=
  match cs with
  | [] => refuse "expected key but got none"
  | '"' :: _ | '\'' :: _ => quoted true cs
  | c :: _ =>
    if isBareKeyChar c then
      let bare := cs.takeWhile isBareKeyChar
      .ok (textOf bare, cs.drop bare.length)
    else refuse ("invalid character at start of key: " ++ c.toString)

/-- Read a dotted key, and the blanks after it; every part takes at least one byte. -/
def key : Nat → Octets → ReadM (List String × Octets)
  | 0, _ => refuse "expected key but got none"
  | fuel + 1, cs => do
    let (k, rest) ← simpleKey cs
    match skipBlank rest with
    | '.' :: more =>
      let (ks, rest) ← key fuel (skipBlank more)
      pure (k :: ks, rest)
    | rest => pure ([k], rest)

/-- Skip blanks, comments and line breaks, as an array may hold between its items. -/
def gaps : Nat → Octets → ReadM Octets
  | 0, cs => .ok cs
  | fuel + 1, cs => do
    let cs ← match skipBlank cs with
      | '#' :: rest => comment rest
      | cs => pure cs
    match cs with
    | '\n' :: _ | '\r' :: _ => gaps fuel (← newline cs)
    | cs => pure cs

/-- Whether the first bytes start a date or a time: two digits then `:`, or four digits then
`-`. -/
def startsMoment (cs : Octets) : Bool :=
  let rec go : Nat → Octets → Bool
    | _, [] => false
    | i, c :: rest =>
      if c.isDigit then (if i < 4 then go (i + 1) rest else false)
      else (i == 2 && c == ':') || (i == 4 && c == '-')
  go 0 cs

/-- What the bytes of a date or time show: a date part, a time part, a zone, and whether a
space has stood between date and time. -/
structure MomentShape where
  date : Bool := false
  time : Bool := false
  zone : Bool := false
  spaced : Bool := false

/-- The kind of date or time a shape makes. -/
def MomentShape.kind (s : MomentShape) : ScalarKind :=
  if s.time then
    if s.date then (if s.zone then .dateTime else .localDateTime) else .localTime
  else .localDate

/-- The extent of a date or time: digits and `T:.+-Z`, up to one space when a digit follows
it, and nothing after a `Z`. A dash from the ninth byte on starts a zone. After the space the
digit and the byte after it are taken unseen. `i` counts the bytes taken. -/
def momentSpan (i : Nat) (s : MomentShape) (acc : Octets) :
    Octets → MomentShape × Octets × Octets
  | [] => (s, acc.reverse, [])
  | c :: rest =>
    if c.isDigit then momentSpan (i + 1) s (c :: acc) rest
    else if c == '-' then
      momentSpan (i + 1) { s with date := true, zone := s.zone || i ≥ 8 } (c :: acc) rest
    else if c == 'T' || c == 't' || c == ':' || c == '.' then
      momentSpan (i + 1) { s with time := true } (c :: acc) rest
    else if c == '+' then momentSpan (i + 1) { s with zone := true } (c :: acc) rest
    else if c == 'Z' || c == 'z' then ({ s with zone := true }, (c :: acc).reverse, rest)
    else if c == ' ' then
      match rest with
      | d :: more =>
        if !s.spaced && d.isDigit then
          match more with
          | [] => ({ s with spaced := true, time := true }, (d :: c :: acc).reverse, [])
          | e :: after =>
            momentSpan (i + 3) { s with spaced := true, time := true } (e :: d :: c :: acc) after
        else (s, acc.reverse, c :: rest)
      | [] => (s, acc.reverse, c :: rest)
    else (s, acc.reverse, c :: rest)

/-- Read a date or time at the front. -/
def moment (cs : Octets) : Item × Octets :=
  let (s, written, rest) := momentSpan 0 {} [] cs
  (.scalar s.kind (String.ofList written), rest)

/-- Whether a byte is a digit of the base a letter after `0` names. -/
def baseDigit (base : Char) (c : Char) : Bool :=
  if base == 'x' then c.isDigit || ('a' ≤ c && c ≤ 'f') || ('A' ≤ c && c ≤ 'F') || c == '_'
  else if base == 'o' then ('0' ≤ c && c ≤ '7') || c == '_'
  else c == '0' || c == '1' || c == '_'

/-- The extent of a decimal number: digits, signs, underscores, and the points and exponent
letters that make it a float; `inf` or `nan` may end it. -/
def numberSpan (float : Bool) (acc : Octets) : Octets → ReadM (Item × Octets)
  | c :: rest =>
    if c.isDigit || c == '+' || c == '-' || c == '_' then numberSpan float (c :: acc) rest
    else if c == '.' || c == 'e' || c == 'E' then numberSpan true (c :: acc) rest
    else if c == 'i' then
      if follows (c :: rest) "inf" then
        .ok (.scalar .float (String.ofList acc.reverse ++ "inf"), rest.drop 2)
      else refuse "unexpected character 'i' while scanning for a number"
    else if c == 'n' then
      if follows (c :: rest) "nan" then
        .ok (.scalar .float (String.ofList acc.reverse ++ "nan"), rest.drop 2)
      else refuse "unexpected character 'n' while scanning for a number"
    else finish (c :: rest)
  | [] => finish []
where
  /-- The number taken so far, which must not be empty. -/
  finish (rest : Octets) : ReadM (Item × Octets) :=
    if acc.isEmpty then refuse "incomplete number"
    else .ok (.scalar (if float then .float else .integer) (String.ofList acc.reverse), rest)

/-- Read an integer or a float at the front. -/
def intOrFloat (cs : Octets) : ReadM (Item × Octets) :=
  match cs with
  | '0' :: b :: rest@(_ :: _) =>
    if b == '.' || b == 'e' || b == 'E' then numberSpan false [] cs
    else if b == 'x' || b == 'o' || b == 'b' then
      let digits := rest.takeWhile (baseDigit b)
      .ok (.scalar .integer (String.ofList ('0' :: b :: digits)), rest.drop digits.length)
    else .ok (.scalar .integer "0", b :: rest)
  | _ => numberSpan false [] cs

/-- Read a number, a date or a time at the front. -/
def numberOrMoment (cs : Octets) : ReadM (Item × Octets) :=
  match cs with
  | 'i' :: _ =>
    if follows cs "inf" then .ok (.scalar .float "inf", cs.drop 3) else refuse "expected 'inf'"
  | 'n' :: _ =>
    if follows cs "nan" then .ok (.scalar .float "nan", cs.drop 3) else refuse "expected 'nan'"
  | '+' :: _ | '-' :: _ => intOrFloat cs
  | _ =>
    if (cs.take 3).length < 3 then intOrFloat cs
    else if startsMoment cs then .ok (moment cs)
    else intOrFloat cs

mutual

/-- Read a value at the front. -/
def value : Nat → Octets → ReadM (Item × Octets)
  | 0, _ => refuse "document nests too deeply"
  | fuel + 1, cs =>
    match cs with
    | [] => refuse "expected value, not eof"
    | '"' :: _ | '\'' :: _ => do
      let (s, rest) ← quoted false cs
      pure (.string s, rest)
    | 't' :: _ =>
      if follows cs "true" then .ok (.bool true, cs.drop 4) else refuse "expected 'true'"
    | 'f' :: _ =>
      if follows cs "false" then .ok (.bool false, cs.drop 5) else refuse "expected 'false'"
    | '[' :: rest =>
      if rest.isEmpty then refuse "expected character ] but the document ended here"
      else arrayItems fuel true [] rest
    | '{' :: rest => inlinePairs fuel true [] rest
    | _ => numberOrMoment cs

/-- Read the items of an array after its bracket, each after a comma but the first. -/
def arrayItems : Nat → Bool → List Item → Octets → ReadM (Item × Octets)
  | 0, _, _, _ => refuse "document nests too deeply"
  | fuel + 1, first, acc, cs => do
    match ← gaps (cs.length + 1) cs with
    | [] => refuse "array is incomplete"
    | ']' :: rest => pure (.array acc.reverse, rest)
    | cs =>
      let cs ← match cs with
        | ',' :: rest =>
          if first then refuse "array cannot start with comma" else gaps (rest.length + 1) rest
        | cs => if first then pure cs else refuse "array elements must be separated by commas"
      match cs with
      | ']' :: rest => pure (.array acc.reverse, rest)
      | cs =>
        let (v, rest) ← value fuel cs
        match ← gaps (rest.length + 1) rest with
        | [] => refuse "expected character ] but the document ended here"
        | rest => arrayItems fuel false (v :: acc) rest

/-- Read the pairs of an inline table after its brace, each after a comma but the first. -/
def inlinePairs : Nat → Bool → List (List String × Item) → Octets → ReadM (Item × Octets)
  | 0, _, _, _ => refuse "document nests too deeply"
  | fuel + 1, first, acc, cs =>
    match cs with
    | [] => refuse "expected character \x7d but the document ended here"
    | _ =>
      match skipBlank cs with
      | [] => refuse "inline table is incomplete"
      | '}' :: rest => .ok (.inlineTable acc.reverse, rest)
      | cs => do
        let cs ← if first then pure cs else do pure (skipBlank (← expect ',' cs))
        let (p, rest) ← pair fuel cs
        inlinePairs fuel false (p :: acc) rest

/-- Read a key, `=` and a value. -/
def pair : Nat → Octets → ReadM ((List String × Item) × Octets)
  | 0, _ => refuse "document nests too deeply"
  | fuel + 1, cs => do
    let (k, rest) ← key (cs.length + 1) cs
    match rest with
    | [] => refuse "expected = after a key, but the document ends there"
    | '=' :: more =>
      let (v, rest) ← value fuel (skipBlank more)
      pure ((k, v), rest)
    | _ => refuse "expected character ="

end

/-- Read a table header after its bracket, or an array-table header after its two. -/
def header (array : Bool) (cs : Octets) : ReadM (Expression × Octets) := do
  let (k, rest) ← key (cs.length + 1) (skipBlank cs)
  let rest ← expect ']' rest
  if array then pure (.arrayTable k, ← expect ']' rest) else pure (.table k, rest)

/-- Read what a line holds from where the last expression ended: nothing, a comment, or an
expression with perhaps a comment after it. The line break itself stays. -/
def expression (cs : Octets) : ReadM (Option Expression × Octets) := do
  let cs := skipBlank cs
  let (e, rest) ← match cs with
    | [] => return (none, [])
    | '#' :: rest => return (none, ← comment rest)
    | '\n' :: _ | '\r' :: _ => return (none, cs)
    | '[' :: '[' :: rest => header true rest
    | '[' :: rest => header false rest
    | _ => do
      let ((k, v), rest) ← pair (2 * cs.length + 2) cs
      pure (Expression.pair k v, rest)
  match skipBlank rest with
  | '#' :: more => pure (some e, ← comment more)
  | rest => pure (some e, rest)

/-- The expressions from a point of a document on, and the refusal that stopped the reader, if
one did. Every expression after the first must start a new line. -/
def expressionsFrom : Nat → Bool → Octets → List Expression × Option String
  | 0, _, _ => ([], none)
  | fuel + 1, first, cs =>
    if cs.isEmpty then ([], none)
    else
      match (if first then .ok cs else newline cs) with
      | .error e => ([], some e)
      | .ok cs =>
        if cs.isEmpty then ([], none)
        else
          match expression cs with
          | .error e => ([], some e)
          | .ok (none, rest) => expressionsFrom fuel false rest
          | .ok (some e, rest) =>
            let (es, stop) := expressionsFrom fuel false rest
            (e :: es, stop)

/-- The expressions of a document, and the refusal that stopped the reader, if one did. -/
def expressions (doc : Octets) : List Expression × Option String :=
  expressionsFrom (doc.length + 2) true doc

end TraceSynth.Toml
