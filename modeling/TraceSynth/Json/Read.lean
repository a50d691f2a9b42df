import TraceSynth.Json.Basic
import TraceSynth.Decimal.Read
import TraceSynth.Text.Quoted
import TraceSynth.Text.Letter

/-!
# Reading JSON text

`Json.read` reads one JSON value, with white space around it, and numbers as the nearest
binary64 values. A text that is not JSON is refused with a message naming the first character
that cannot continue it and what was expected there: the beginning of a value, an object key
string, what may follow an object key, a member or an array element, the rest of a number or
literal, or a character allowed in a string. A text that stops before its value is complete is
an unexpected end, wherever it stops.

A string escape is one of `\" \\ \/ \b \f \n \r \t` or `\uXXXX`; a malformed one is quoted in
the message as its first bytes (two, or six for `\u`), in backquotes unless they need escaping.
`\uXXXX` gives a code point, two of them a surrogate pair, and a lone surrogate gives U+FFFD.

A number beyond the binary64 range is well-formed, so it is refused only when the whole text
is: the message names the first such number and where it stands, as the member names and
array indexes leading to it.
-/

namespace TraceSynth

namespace Json

/-- Why a text is not read. -/
inductive ReadError where
  /-- Not JSON: the message names the character and what was expected. -/
  | malformed (message : String)
  /-- A number literal beyond the binary64 range, at a path of member names and array
  indexes; `inItem` when it is an array's item. -/
  | range (literal : String) (path : List String) (inItem : Bool)
  deriving Inhabited

/-- The message of a read error. -/
def ReadError.message : ReadError → String
  | .malformed m => m
  | .range lit path inItem =>
    let place :=
      if path.isEmpty then "Go value"
      else (if inItem then "" else "Go struct field ") ++ String.join (path.map ("." ++ ·))
    "json: cannot unmarshal number " ++ lit ++ " into " ++ place ++ " of type float64"

/-- A character as error messages quote it: between single quotes, escaped as in a quoted
string, except that a double quote stands as itself and a single quote is escaped. -/
def quoteChar (c : Char) : String :=
  if c == '\'' then "'\\''" else if c == '"' then "'\"'"
  else
    let q := Quoted.quote (Bytes.ofString c.toString)
    "'" ++ ((q.drop 1).dropEnd 1).toString ++ "'"

/-- The message of a character that cannot stand where it does. -/
def badChar (c : Char) (context : String) : ReadError :=
  .malformed ("invalid character " ++ quoteChar c ++ " " ++ context)

/-- The message of a text that ends too early. -/
def unexpectedEnd : ReadError := .malformed "unexpected end of JSON input"

/-- The message of a malformed escape, given by its first bytes: in backquotes, or quoted when
they hold a backquote, a space, a character that is not printable, or a cut character. -/
def badEscape (what : Bytes) : ReadError :=
  let needsQuoting := what.pieces.any fun
    | .stray _ => true
    | .char c => c == '`' || c == '�' || Unicode.isSpace c.toNat ||
        !Unicode.isPrintable c.toNat
  .malformed ("invalid escape sequence " ++
    (if needsQuoting then Quoted.quote what else "`" ++ what.toStringLossy ++ "`") ++
    " in string")

/-- The first `n` bytes of the characters `cs`. -/
def firstBytes (n : Nat) (cs : List Char) : Bytes :=
  (Bytes.ofString (String.ofList (cs.take n))).take n

/-- A read that remembers the first number beyond the binary64 range. -/
abbrev ReadM := StateT (Option ReadError) (Except ReadError)

/-- Whether a character is JSON white space. -/
def isSpace (c : Char) : Bool := c == ' ' || c == '\t' || c == '\n' || c == '\r'

/-- The text without leading white space. -/
def skipSpace (cs : List Char) : List Char := cs.dropWhile isSpace

/-- Read the rest of a literal after its first letter. -/
def literal (word : String) (expected : List Char) (cs : List Char) :
    Except ReadError (List Char) :=
  match expected, cs with
  | [], _ => .ok cs
  | _ :: _, [] => .error unexpectedEnd
  | e :: more, c :: rest =>
    if c == e then literal word more rest
    else .error (badChar c ("in literal " ++ word ++ " (expecting " ++ quoteChar e ++ ")"))

/-- Skip the digits that must follow at least one digit, or refuse the character found. -/
def someDigits (cs : List Char) : Except ReadError (List Char) :=
  match cs with
  | c :: rest =>
    if c.isDigit then .ok (rest.dropWhile Char.isDigit) else .error (badChar c "in numeric literal")
  | [] => .error unexpectedEnd

/-- Read a number literal: the text of the literal and what follows it. -/
def numberLiteral (cs : List Char) : Except ReadError (List Char × List Char) := do
  let afterSign := if cs.head? == some '-' then cs.tail else cs
  let afterInt ← match afterSign with
    | '0' :: rest => pure rest
    | _ => someDigits afterSign
  let afterFrac ← match afterInt with
    | '.' :: rest => someDigits rest
    | _ => pure afterInt
  let afterExp ← match afterFrac with
    | e :: rest =>
      if e == 'e' || e == 'E' then
        someDigits (match rest with
          | s :: more => if s == '+' || s == '-' then more else rest
          | [] => rest)
      else pure afterFrac
    | [] => pure afterFrac
  pure (cs.take (cs.length - afterExp.length), afterExp)

/-- The value of a hexadecimal digit. -/
def hexDigit? (c : Char) : Option Nat :=
  if c.isDigit then some (c.toNat - '0'.toNat)
  else if 'a' ≤ c && c ≤ 'f' then some (c.toNat - 'a'.toNat + 10)
  else if 'A' ≤ c && c ≤ 'F' then some (c.toNat - 'A'.toNat + 10)
  else none

/-- The value of four hexadecimal digits at the front. -/
def hex4? (cs : List Char) : Option (Nat × List Char) :=
  match cs with
  | a :: b :: c :: d :: rest => do
    let n ← [a, b, c, d].foldlM (fun acc x => (hexDigit? x).map (acc * 16 + ·)) 0
    pure (n, rest)
  | _ => none

/-- Whether characters could begin a `\uXXXX` escape that the text cuts short. -/
def isEscapePrefix (cs : List Char) : Bool :=
  match cs with
  | '\\' :: 'u' :: digits => (digits.take 4).all fun c => (hexDigit? c).isSome
  | ['\\'] => true
  | _ => false

/-- Read a `\uXXXX` escape, its backslash at the front: the code unit and what follows. -/
def unitEscape (cs : List Char) : Except ReadError (Nat × List Char) :=
  let head := firstBytes 6 cs
  if head.size < 6 then
    if isEscapePrefix cs then .error unexpectedEnd else .error (badEscape head)
  else
    match hex4? (cs.drop 2) with
    | some r => .ok r
    | none => .error (badEscape head)

/-- Whether a code is a UTF-16 surrogate. -/
def isSurrogate (n : Nat) : Bool := 0xD800 ≤ n && n < 0xE000

/-- The replacement character. -/
def replacement : Char := Char.ofNat 0xFFFD

/-- Read the rest of a string after its opening quote: the characters and what follows. -/
def stringBody : Nat → List Char → List Char → Except ReadError (List Char × List Char)
  | 0, _, acc => .ok (acc, [])
  | _ + 1, [], _ => .error unexpectedEnd
  | fuel + 1, c :: rest, acc =>
    if c == '"' then .ok (acc, rest)
    else if c.toNat < 0x20 then .error (badChar c "in string")
    else if c != '\\' then stringBody fuel rest (acc ++ [c])
    else match rest with
      | [] => .error unexpectedEnd
      | e :: more =>
        let simple : Option Char := match e with
          | '"' => some '"' | '\\' => some '\\' | '/' => some '/' | 'b' => some '\x08'
          | 'f' => some '\x0c' | 'n' => some '\n' | 'r' => some '\r' | 't' => some '\t'
          | _ => none
        match simple with
        | some ch => stringBody fuel more (acc ++ [ch])
        | none =>
          if e != 'u' then .error (badEscape (firstBytes 2 (c :: rest)))
          else do
            let (u, after) ← unitEscape (c :: rest)
            if isSurrogate u then
              -- a high surrogate joins a following low one; anything else is replaced
              let pair : Option (Nat × List Char) := match after with
                | '\\' :: 'u' :: tail =>
                  match hex4? tail with
                  | some (v, after2) =>
                    if 0xD800 ≤ u && u < 0xDC00 && 0xDC00 ≤ v && v < 0xE000 then
                      some (0x10000 + (u - 0xD800) * 0x400 + (v - 0xDC00), after2)
                    else none
                  | none => none
                | _ => none
              match pair with
              | some (code, after2) => stringBody fuel after2 (acc ++ [Char.ofNat code])
              | none => stringBody fuel after (acc ++ [replacement])
            else stringBody fuel after (acc ++ [Char.ofNat u])

/-- Lift a plain read into a read that remembers. -/
def lift {α : Type} (r : Except ReadError α) : ReadM α := StateT.lift r

mutual

/-- Read a value after white space; `path` leads to it, innermost step first, and `inItem`
tells whether that step is an array index. -/
def value : Nat → List String → Bool → List Char → ReadM (Json × List Char)
  | 0, _, _, _ => throw unexpectedEnd
  | fuel + 1, path, inItem, cs =>
    match skipSpace cs with
    | [] => throw unexpectedEnd
    | c :: rest =>
      if c == '{' then objectRest fuel path (skipSpace rest) true []
      else if c == '[' then arrayRest fuel path (skipSpace rest) 0 []
      else if c == '"' then do
        let (s, after) ← lift (stringBody (rest.length + 1) rest [])
        pure (.string (String.ofList s), after)
      else if c == '-' || c.isDigit then do
        let (lit, after) ← lift (numberLiteral (c :: rest))
        let text := String.ofList lit
        match Reading.float (Bytes.ofString text).toList with
        | .ok x => pure (.number x, after)
        | .error _ =>
          modify fun first =>
            if first.isSome then first else some (ReadError.range text path.reverse inItem)
          pure (.number 0, after)
      else if c == 't' then do pure (.bool true, ← lift (literal "true" ['r', 'u', 'e'] rest))
      else if c == 'f' then do
        pure (.bool false, ← lift (literal "false" ['a', 'l', 's', 'e'] rest))
      else if c == 'n' then do pure (.null, ← lift (literal "null" ['u', 'l', 'l'] rest))
      else throw (badChar c "looking for beginning of value")

/-- Read the rest of an array, after its opening bracket or a comma; `index` counts the items
read. -/
def arrayRest : Nat → List String → List Char → Nat → List Json → ReadM (Json × List Char)
  | 0, _, _, _, _ => throw unexpectedEnd
  | fuel + 1, path, cs, index, acc =>
    if index == 0 && cs.head? == some ']' then pure (.array acc, cs.tail)
    else do
      let (v, after) ← value fuel (toString index :: path) true cs
      match skipSpace after with
      | ',' :: rest => arrayRest fuel path rest (index + 1) (acc ++ [v])
      | ']' :: rest => pure (.array (acc ++ [v]), rest)
      | c :: _ => throw (badChar c "after array element")
      | [] => throw unexpectedEnd

/-- Read the rest of an object, after its opening brace or a comma. -/
def objectRest :
    Nat → List String → List Char → Bool → List (String × Json) → ReadM (Json × List Char)
  | 0, _, _, _, _ => throw unexpectedEnd
  | fuel + 1, path, cs, first, acc =>
    match cs with
    | '}' :: rest => if first then pure (.object acc, rest)
      else throw (badChar '}' "looking for beginning of object key string")
    | '"' :: rest => do
      let (k, after) ← lift (stringBody (rest.length + 1) rest [])
      let after ← match skipSpace after with
        | ':' :: more => pure more
        | c :: _ => throw (badChar c "after object key")
        | [] => throw unexpectedEnd
      let key := String.ofList k
      let (v, after) ← value fuel (key :: path) false after
      let acc :=
        if acc.any (·.1 == key) then
          acc.map fun (k', v') => if k' == key then (k', v) else (k', v')
        else acc ++ [(key, v)]
      match skipSpace after with
      | ',' :: more => objectRest fuel path (skipSpace more) false acc
      | '}' :: more => pure (.object acc, more)
      | c :: _ => throw (badChar c "after object key:value pair")
      | [] => throw unexpectedEnd
    | c :: _ => throw (badChar c "looking for beginning of object key string")
    | [] => throw unexpectedEnd

end

/-- Read a JSON text holding one value. -/
def read (text : String) : Except ReadError Json := do
  let cs := text.toList
  let ((v, rest), tooLarge) ← (value (cs.length + 1) [] false cs).run none
  match skipSpace rest with
  | [] => match tooLarge with
    | some e => throw e
    | none => pure v
  | c :: _ => throw (badChar c "after top-level value")

/-- The name of the kind of a value, as messages about a misplaced value give it. -/
def kindName : Json → String
  | .null => "null"
  | .bool _ => "bool"
  | .number _ | .int _ => "number"
  | .string _ => "string"
  | .array _ => "array"
  | .object _ => "object"

end Json

end TraceSynth
