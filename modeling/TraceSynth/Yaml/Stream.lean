import TraceSynth.Yaml.Scalar

/-!
# The YAML token stream

Which token starts at the next character, and the stream interface the grammar reads through:
`peekToken` scans ahead until two tokens lie beyond the head and no pending key without `?`
starts at it, and `skipToken` consumes the head.
-/

namespace TraceSynth.Yaml.Lexer

/-- Consume a directive line: `%YAML major.minor` or `%TAG handle pfx`. -/
def scanDirective : LexM Unit := do
  let start := (← get).mark
  skip
  let name ← readRun isWordChar
  if name.isEmpty then fail start "could not find expected directive name"
  if !isSeparator ((← get).peekChar 0) then fail start "found unexpected non-alphabetical character"
  let number : LexM Nat := do
    let digits ← readRun (fun c => '0' ≤ c && c ≤ '9')
    if digits.length > 2 then fail start "found extremely long version number"
    else if digits.isEmpty then fail start "did not find expected version number"
    else pure (digits.foldl (fun n c => n * 10 + (c.toNat - '0'.toNat)) 0)
  if name == "YAML" then
    skipRun isBlank
    let major ← number
    if (← get).peekChar 0 != '.' then fail start "did not find expected digit or '.' character"
    skip
    let minor ← number
    push (.versionDirective major minor) start (← get).mark
  else if name == "TAG" then
    skipRun isBlank
    let handle ← scanTagHandle true start
    if !isBlank ((← get).peekChar 0) then fail start "did not find expected whitespace"
    skipRun isBlank
    let pfx ← scanTagText true "" start
    if !isSeparator ((← get).peekChar 0) then
      fail start "did not find expected whitespace or line break"
    push (.tagDirective handle pfx) start (← get).mark
  else fail start "found unknown directive name"
  skipRun isBlank
  if (← get).peekChar 0 == '#' then skipRun (fun c => !isBreakOrEnd c)
  if !isBreakOrEnd ((← get).peekChar 0) then
    fail start "did not find expected comment or line break"
  skipLine

/-- Produce a one-character token. -/
def single (kind : TokenKind) : LexM Unit := do
  let start := (← get).mark
  skip
  push kind start (← get).mark

/-- Set whether a key without `?` may start at the next token. -/
def allowKey (b : Bool) : LexM Unit := modify fun s => { s with simpleKeyAllowed := b }

/-- The end of the stream: the position moves to a fresh line, every block closes. -/
def fetchStreamEnd : LexM Unit := do
  modify fun s =>
    if s.mark.column != 0 then
      { s with mark := { s.mark with column := 0, line := s.mark.line + 1 } }
    else s
  let m := (← get).mark
  unrollIndent (-1) m
  removeKey
  allowKey false
  push .streamEnd m m

/-- A `---` or `...` marker at the start of a line. -/
def fetchDocumentIndicator (kind : TokenKind) : LexM Unit := do
  unrollIndent (-1) (← get).mark
  removeKey
  allowKey false
  let start := (← get).mark
  modify (·.advance 3)
  push kind start (← get).mark

/-- `:` after a key: when a key without `?` is pending, its `key` token (and in block context a
mapping start) is placed where it began. -/
def fetchValue : LexM Unit := do
  let i := (← get).simpleKeys.size - 1
  if ← keyValid i then
    let k := (← get).topKey
    let keyToken : Token := { kind := .key, start := k.mark, stop := k.mark }
    modify fun s => { s with tokens := s.tokens.insertIdxIfInBounds k.tokenNumber keyToken }
    rollIndent k.mark.column (some k.tokenNumber) .blockMappingStart k.mark
    modify fun s => { s with simpleKeys := s.simpleKeys.set! i { k with possible := false },
                             keyAt := s.keyAt.filter (·.1 != k.tokenNumber) }
    allowKey false
  else
    let s ← get
    if s.flowLevel == 0 then
      if !s.simpleKeyAllowed then fail s.mark "mapping values are not allowed in this context"
      rollIndent s.mark.column none .blockMappingStart s.mark
    allowKey ((← get).flowLevel == 0)
  single .value

/-- The token that starts at a character that is neither the end nor a document marker. -/
def fetchContent : LexM Unit := do
  let s ← get
  let c := s.peekChar 0
  let n := s.peekChar 1
  let flow := s.flowLevel > 0
  if c == '[' || c == '{' then
    saveKey
    increaseFlow
    allowKey true
    single (if c == '[' then .flowSequenceStart else .flowMappingStart)
  else if c == ']' || c == '}' then
    removeKey
    decreaseFlow
    allowKey false
    single (if c == ']' then .flowSequenceEnd else .flowMappingEnd)
  else if c == ',' then
    removeKey
    allowKey true
    single .flowEntry
  else if c == '-' && isSeparator n then
    if !flow then
      if !s.simpleKeyAllowed then
        fail s.mark "block sequence entries are not allowed in this context"
      rollIndent s.mark.column none .blockSequenceStart s.mark
    removeKey
    allowKey true
    single .blockEntry
  else if c == '?' && (flow || isSeparator n) then
    if !flow then
      if !s.simpleKeyAllowed then fail s.mark "mapping keys are not allowed in this context"
      rollIndent s.mark.column none .blockMappingStart s.mark
    removeKey
    allowKey !flow
    single .key
  else if c == ':' && (flow || isSeparator n) then fetchValue
  else if c == '*' || c == '&' then
    saveKey
    allowKey false
    scanAnchor (c == '*')
  else if c == '!' then
    saveKey
    allowKey false
    scanTag
  else if (c == '|' || c == '>') && !flow then
    removeKey
    allowKey true
    scanBlock (c == '|')
  else if c == '\'' || c == '"' then
    saveKey
    allowKey false
    scanQuoted (c == '\'')
  else if !(isSeparator c || "-?:,[]\x7b\x7d#&*!|>'\"%@`".toList.contains c) ||
      (c == '-' && !isBlank n) || (!flow && (c == '?' || c == ':') && !isSeparator n) then
    saveKey
    allowKey false
    scanPlain
  else fail s.mark "found character that cannot start any token"

/-- Scan the next token. -/
def fetchNext : LexM Unit := do
  if !(← get).started then
    modify fun s => { s with indent := -1, simpleKeys := s.simpleKeys.push {},
                             simpleKeyAllowed := true, started := true }
    let m := (← get).mark
    push .streamStart m m
  else
    modify fun s => { s with newlines := 0 }
    let scanMark := (← get).mark
    scanToNextToken ((← get).chars.size + 1)
    unrollIndent ((← get).mark.column : Int) scanMark
    let s ← get
    let c := s.peekChar 0
    if isEnd c then fetchStreamEnd
    else if s.mark.column == 0 && c == '%' then
      unrollIndent (-1) s.mark
      removeKey
      allowKey false
      scanDirective
    else if s.atIndicator '-' then fetchDocumentIndicator .documentStart
    else if s.atIndicator '.' then fetchDocumentIndicator .documentEnd
    else
      fetchContent
      lineComment

/-- Scan until two tokens lie beyond the head and no possible key starts at the head. -/
def fetchMore : Nat → LexM Unit
  | 0 => pure ()
  | fuel + 1 => do
    let s ← get
    let more ← if s.head + 2 < s.tokens.size then
        match List.lookup s.head s.keyAt with
        | none => pure false
        | some i => keyValid i
      else pure true
    if more then
      fetchNext
      fetchMore fuel

/-- The token at the head of the stream. -/
def peekToken : LexM Token := do
  let s ← get
  fetchMore (s.chars.size - s.pos + 8)
  let s ← get
  pure (s.tokens.getD s.head { kind := .streamEnd, start := s.mark, stop := s.mark })

/-- Consume the token at the head of the stream. -/
def skipToken : LexM Unit := modify fun s => { s with head := s.head + 1 }

end TraceSynth.Yaml.Lexer
