import TraceSynth.Toml.Octets

/-!
# TOML strings

Strings come in four forms. A basic string `"…"` holds escapes; a literal string `'…'` holds
its bytes as written; both end on their line. Their multi-line forms `"""…"""` and `'''…'''`
may hold line breaks, drop one line break right after the opening, and may end with one or
two quotes of their own just before the closing three. In a multi-line basic string a
backslash that ends its line removes itself, the line break and all blanks and breaks after
it.

A string is read in two steps: its extent is found first, then its body is checked and its
escapes replaced. A body without escapes is refused as a whole when it holds a character that
is not allowed; one with escapes is refused at the first such byte, which the message names.
-/

namespace TraceSynth.Toml

/-- The extent of a literal string after its quote: its body, then what follows the closing
quote. -/
def literalSpan (acc : Octets) (cs : Octets) : ReadM (Octets × Octets) :=
  match cs with
  | [] => refuse "unterminated literal string"
  | '\'' :: rest => .ok (acc.reverse, rest)
  | '\n' :: _ | '\r' :: _ => refuse "literal strings cannot have new lines"
  | c :: rest =>
    match h : validPrefix (c :: rest) with
    | 0 => refuse "invalid character"
    | n + 1 => literalSpan (((c :: rest).take (n + 1)).reverse ++ acc) ((c :: rest).drop (n + 1))
termination_by cs.length
decreasing_by
  simp only [List.length_drop, List.length_cons]
  omega

/-- The closing of a multi-line string after its first three quotes `q`: up to two more quotes
belong to the body, and six in a row are refused. -/
def closeMultiline (q : Char) (message : String) (body rest : Octets) :
    ReadM (Octets × Octets) :=
  match rest with
  | a :: b :: c :: _ =>
    if a == q && b == q && c == q then refuse message
    else if a == q && b == q then .ok (body ++ [q, q], rest.drop 2)
    else if a == q then .ok (body ++ [q], rest.drop 1)
    else .ok (body, rest)
  | [a, b] =>
    if a == q && b == q then .ok (body ++ [q, q], [])
    else if a == q then .ok (body ++ [q], [b])
    else .ok (body, rest)
  | [a] => if a == q then .ok (body ++ [q], []) else .ok (body, rest)
  | [] => .ok (body, [])

/-- The extent of a multi-line literal string after its three quotes. -/
def multilineLiteralSpan (acc : Octets) (cs : Octets) : ReadM (Octets × Octets) :=
  match cs with
  | [] => refuse "multiline literal string not terminated by '''"
  | '\'' :: '\'' :: '\'' :: rest =>
    closeMultiline '\'' "''' not allowed in multiline literal string" acc.reverse rest
  | '\r' :: '\n' :: rest => multilineLiteralSpan ('\n' :: '\r' :: acc) rest
  | '\r' :: _ => refuse "need a \\n after \\r"
  | c :: rest =>
    match h : validPrefix (c :: rest) with
    | 0 => refuse "invalid character"
    | n + 1 =>
      multilineLiteralSpan (((c :: rest).take (n + 1)).reverse ++ acc) ((c :: rest).drop (n + 1))
termination_by cs.length
decreasing_by
  all_goals
    simp only [List.length_drop, List.length_cons]
    omega

/-- The extent of a basic string after its quote: its body, whether it holds an escape, and
what follows the closing quote. A backslash takes the byte after it into the body, whatever
it is. -/
def basicSpan (escaped : Bool) (acc : Octets) (cs : Octets) : ReadM (Octets × Bool × Octets) :=
  match cs with
  | [] => refuse "basic string not terminated by \""
  | '"' :: rest => .ok (acc.reverse, escaped, rest)
  | '\n' :: _ | '\r' :: _ => refuse "basic strings cannot have new lines"
  | ['\\'] => refuse "need a character after \\"
  | '\\' :: c :: rest => basicSpan true (c :: '\\' :: acc) rest
  | c :: rest => basicSpan escaped (c :: acc) rest

/-- The extent of a multi-line basic string after its three quotes. -/
def multilineBasicSpan (escaped : Bool) (acc : Octets) (cs : Octets) :
    ReadM (Octets × Bool × Octets) :=
  match cs with
  | [] => refuse "multiline basic string not terminated by \"\"\""
  | '"' :: '"' :: '"' :: rest =>
    (closeMultiline '"' "\"\"\" not allowed in multiline basic string" acc.reverse rest).map
      fun (body, rest) => (body, escaped, rest)
  | ['\\'] => refuse "need a character after \\"
  | '\\' :: c :: rest => multilineBasicSpan true (c :: '\\' :: acc) rest
  | '\r' :: '\n' :: rest => multilineBasicSpan escaped ('\n' :: '\r' :: acc) rest
  | '\r' :: _ => refuse "need a \\n after \\r"
  | c :: rest => multilineBasicSpan escaped (c :: acc) rest

/-- The value of a hexadecimal digit. -/
def hexDigit? (c : Char) : Option Nat :=
  if '0' ≤ c && c ≤ '9' then some (c.toNat - '0'.toNat)
  else if 'a' ≤ c && c ≤ 'f' then some (c.toNat - 'a'.toNat + 10)
  else if 'A' ≤ c && c ≤ 'F' then some (c.toNat - 'A'.toNat + 10)
  else none

/-- The code point of `n` hexadecimal digits at the front of `cs`, which must be a Unicode
scalar value. -/
def hexPoint (n : Nat) (cs : Octets) : ReadM Nat :=
  let ds := cs.take n
  if ds.length < n then
    refuse ("unicode point needs " ++ toString n ++ " character, not " ++ toString ds.length)
  else
    match ds.foldlM (fun acc c => (hexDigit? c).map (acc * 16 + ·)) 0 with
    | none => refuse "non-hex character"
    | some r =>
      if r > 0x10FFFF || (0xD800 ≤ r && r < 0xE000) then
        refuse "escape sequence is invalid Unicode code point"
      else .ok r

/-- The byte an escape letter stands for, other than the code-point escapes. -/
def escapedByte? (c : Char) : Option Char :=
  match c with
  | '"' => some '"'
  | '\\' => some '\\'
  | 'b' => some '\x08'
  | 'f' => some '\x0c'
  | 'n' => some '\n'
  | 'r' => some '\r'
  | 't' => some '\t'
  | 'e' => some '\x1b'
  | _ => none

/-- Whether a backslash is the last thing on its line but blanks. -/
def endsLine : Octets → Bool
  | ' ' :: rest | '\t' :: rest => endsLine rest
  | '\r' :: '\n' :: _ | '\n' :: _ => true
  | _ => false

/-- Dropping a prefix never makes a list longer. -/
theorem length_dropWhile_le (p : Char → Bool) : ∀ l : List Char, (l.dropWhile p).length ≤ l.length
  | [] => by simp
  | c :: rest => by
    simp only [List.dropWhile_cons]
    split
    · have := length_dropWhile_le p rest
      simp only [List.length_cons]
      omega
    · simp

/-- Replace the escapes of a string body; a code-point escape reads its digits from the body
only. `multiline` lets a backslash end its line. The bytes are kept in reverse in `acc`. -/
def unescape (multiline : Bool) (acc : Octets) (cs : Octets) : ReadM Octets :=
  match cs with
  | [] => .ok acc.reverse
  | ['\\'] => .ok acc.reverse
  | '\\' :: e :: more =>
    if multiline && endsLine (e :: more) then
      unescape multiline acc
        ((e :: more).dropWhile fun c => c == ' ' || c == '\t' || c == '\n' || c == '\r')
    else
      match escapedByte? e with
      | some b => unescape multiline (b :: acc) more
      | none =>
        if e == 'u' || e == 'U' then
          let n := if e == 'u' then 4 else 8
          match hexPoint n more with
          | .ok r => unescape multiline ((encodePoint r).reverse ++ acc) (more.drop n)
          | .error msg => refuse msg
        else refuse ("invalid escaped character " ++ codePoint e)
  | c :: rest =>
    match h : validPrefix (c :: rest) with
    | 0 => refuse ("invalid character " ++ codePoint c)
    | n + 1 =>
      unescape multiline (((c :: rest).take (n + 1)).reverse ++ acc)
        ((c :: rest).drop (n + 1))
termination_by cs.length
decreasing_by
  all_goals first
    | (have bound := length_dropWhile_le
          (fun c => c == ' ' || c == '\t' || c == '\n' || c == '\r') (e :: more)
       simp only [List.length_cons] at *
       omega)
    | (simp <;> omega)

/-- The text of a string body: checked as a whole when it holds no escape, else with its
escapes replaced. -/
def bodyText (multiline : Bool) (escaped : Bool) (body : Octets) : ReadM String :=
  if !escaped then
    if isAllowedText body then .ok (textOf body) else refuse "invalid UTF-8"
  else (unescape multiline [] body).map textOf

/-- Drop the line break right after the opening of a multi-line string. -/
def dropOpeningBreak (cs : Octets) : Octets :=
  match cs with
  | '\n' :: rest => rest
  | '\r' :: '\n' :: rest => rest
  | _ => cs

/-- Read a string at the front, in any of its forms: its text and what follows it. `keyOnly`
reads only the one-line forms, as a quoted key does. -/
def quoted (keyOnly : Bool) (cs : Octets) : ReadM (String × Octets) :=
  match cs with
  | '"' :: '"' :: '"' :: rest =>
    if keyOnly then
      -- as a key, the first two quotes are an empty basic string
      .ok ("", '"' :: rest)
    else do
      let (body, escaped, rest) ← multilineBasicSpan false [] rest
      let s ← bodyText true escaped (dropOpeningBreak body)
      pure (s, rest)
  | '"' :: rest => do
    let (body, escaped, rest) ← basicSpan false [] rest
    let s ← bodyText false escaped body
    pure (s, rest)
  | '\'' :: '\'' :: '\'' :: rest =>
    if keyOnly then .ok ("", '\'' :: rest)
    else do
      let (body, rest) ← multilineLiteralSpan [] rest
      pure (textOf (dropOpeningBreak body), rest)
  | '\'' :: rest => do
    let (body, rest) ← literalSpan [] rest
    pure (textOf body, rest)
  | _ => refuse "expected a string"

end TraceSynth.Toml
