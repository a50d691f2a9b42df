import TraceSynth.Yaml.Stream
import TraceSynth.Yaml.Node

/-!
# Reading a YAML document

The grammar over the token stream, building nodes as it goes. Only the first document of a
text is read; what follows it is looked at only as far as the token look-ahead reaches.

A node may carry an anchor and a tag before its content; an anchor is registered when its node
begins, so an alias inside the node may refer to it. A sequence in block context may omit its
indentation under a mapping key. A `key: value` pair directly inside a flow sequence is a
mapping of one entry.

The grammar's recursion is bounded by a fuel of four steps per character, more than the number
of tokens a text can produce, so a document that the text holds is always read to its end.
-/

namespace TraceSynth.Yaml

/-- The state of reading a document. -/
structure Reader where
  /-- The token stream. -/
  lexer : Lexer
  /-- Start marks of the open collections, the innermost first. -/
  marks : List Mark := []
  /-- Tag handles and their prefixes. -/
  handles : List (String × String) := []
  /-- Anchor names and the numbers of their nodes, the latest first. -/
  anchors : List (String × Nat) := []
  /-- The anchored nodes by number. -/
  anchored : Array Node := #[]
  deriving Inhabited

/-- Computations of the reader. -/
abbrev ReadM := StateT Reader (Except Problem)

namespace Reader

/-- Run a step of the token stream. -/
def lex {α : Type} (m : LexM α) : ReadM α := fun r => do
  let (a, l) ← m r.lexer
  pure (a, { r with lexer := l })

/-- The next token. -/
def peek : ReadM Token := lex Lexer.peekToken

/-- Consume the next token. -/
def skip : ReadM Unit := lex Lexer.skipToken

/-- Enter a collection that starts at `m`. -/
def pushMark (m : Mark) : ReadM Unit := modify fun r => { r with marks := m :: r.marks }

/-- Leave the innermost collection, returning its start. -/
def popMark : ReadM Mark := do
  let r ← get
  match r.marks with
  | m :: rest =>
    set { r with marks := rest }
    pure m
  | [] => pure {}

/-- Stop with a grammar problem. -/
def failAt {α : Type} (context : Mark) (problem : String) (mark : Mark) : ReadM α := do
  throw { stage := .parser, contextMark := context, problem, problemMark := mark,
          read := (← get).lexer.extent }

/-- Reserve the number of an anchored node before its content is read. -/
def openAnchor : Option String → ReadM (Option Nat)
  | none => pure none
  | some name => do
    let r ← get
    let id := r.anchored.size
    set { r with anchored := r.anchored.push (.empty 0), anchors := (name, id) :: r.anchors }
    pure (some id)

/-- Record the node of a reserved anchor number. -/
def closeAnchor (id : Option Nat) (n : Node) : ReadM Node := do
  if let some i := id then modify fun r => { r with anchored := r.anchored.set! i n }
  pure n

/-- A scalar node on a line: an explicit tag other than `!` is kept, any other style than plain
is a string, a plain `<<` is the merge key, and another plain scalar's tag is read from
its text. -/
def scalarNode (tag text : String) (style : ScalarStyle) (line : Nat) : Node :=
  if tag != "" && tag != "!" then .scalar (shortTag tag) text false line
  else if style != .plain then .scalar "!!str" text false line
  else if text == "<<" then .scalar "!!merge" text true line
  else .scalar (resolve "" text).tag text true line

/-- The tag of a collection: an explicit tag other than `!`, else the default. -/
def collectionTag (tag default : String) : String :=
  if tag != "" && tag != "!" then shortTag tag else default

/-- The anchor and tag written before a node's content, with the token after them. -/
def properties (t : Token) : ReadM (Option String × Option (String × String × Mark) × Token) := do
  match t.kind with
  | .anchor a =>
    skip
    let t2 ← peek
    match t2.kind with
    | .tag h s =>
      skip
      pure (some a, some (h, s, t2.start), ← peek)
    | _ => pure (some a, none, t2)
  | .tag h s =>
    skip
    let t2 ← peek
    match t2.kind with
    | .anchor a =>
      skip
      pure (some a, some (h, s, t.start), ← peek)
    | _ => pure (none, some (h, s, t.start), t2)
  | _ => pure (none, none, t)

/-- The full text of a written tag, its handle replaced by the handle's prefix. -/
def tagText (start : Mark) : Option (String × String × Mark) → ReadM String
  | none => pure ""
  | some (handle, suffix, mark) => do
    if handle.isEmpty then pure suffix
    else match List.lookup handle (← get).handles with
      | some p =>
        if (p ++ suffix).isEmpty then failAt start "found undefined tag handle" mark
        else pure (p ++ suffix)
      | none => failAt start "found undefined tag handle" mark

/-- A node without content: an empty scalar when it has an anchor or a tag, else a problem. -/
def contentless (anchor : Option String) (tag : String) (start : Mark)
    (t : Token) : ReadM Node := do
  if anchor.isSome || !tag.isEmpty then
    let id ← openAnchor anchor
    closeAnchor id (scalarNode tag "" .plain (start.line + 1))
  else
    failAt start "did not find expected node content" t.start

/-- Whether a token is one of the given kinds. -/
def isOneOf (t : Token) (kinds : List TokenKind) : Bool := kinds.contains t.kind

/-- The problem of exhausted fuel, which no text reaches. -/
def tooDeep {α : Type} : ReadM α := do
  throw { stage := .composer, problem := "document too deep", read := (← get).lexer.extent }

mutual

/-- A node, in block context when `block`, where a sequence without indentation may stand when
`indentless`. -/
def node : Nat → Bool → Bool → ReadM Node
  | 0, _, _ => tooDeep
  | fuel + 1, block, indentless => do
    let t ← peek
    match t.kind with
    | .alias name =>
      skip
      match List.lookup name (← get).anchors with
      | some id => pure (.alias name id (t.start.line + 1))
      | none =>
        throw { stage := .composer, problem := "unknown anchor '" ++ name ++ "' referenced",
                read := (← get).lexer.extent }
    | _ =>
      let start := t.start
      let (anchor, written, t) ← properties t
      let tag ← tagText start written
      if indentless && t.kind == .blockEntry then
        let id ← openAnchor anchor
        let items ← indentlessEntries fuel []
        closeAnchor id (.sequence (collectionTag tag "!!seq") items (start.line + 1))
      else
        match t.kind with
        | .scalar text style =>
          skip
          let id ← openAnchor anchor
          closeAnchor id (scalarNode tag text style (start.line + 1))
        | .flowSequenceStart =>
          let id ← openAnchor anchor
          pushMark t.start
          skip
          let items ← flowSequenceEntries fuel true []
          closeAnchor id (.sequence (collectionTag tag "!!seq") items (start.line + 1))
        | .flowMappingStart =>
          let id ← openAnchor anchor
          pushMark t.start
          skip
          let entries ← flowMappingEntries fuel true []
          closeAnchor id (.mapping (collectionTag tag "!!map") entries (start.line + 1))
        | .blockSequenceStart =>
          if block then
            let id ← openAnchor anchor
            pushMark t.start
            skip
            let items ← blockEntries fuel []
            closeAnchor id (.sequence (collectionTag tag "!!seq") items (start.line + 1))
          else contentless anchor tag start t
        | .blockMappingStart =>
          if block then
            let id ← openAnchor anchor
            pushMark t.start
            skip
            let entries ← blockMappingEntries fuel []
            closeAnchor id (.mapping (collectionTag tag "!!map") entries (start.line + 1))
          else contentless anchor tag start t
        | _ => contentless anchor tag start t

/-- The entries of a block sequence, up to its end. -/
def blockEntries : Nat → List Node → ReadM (List Node)
  | 0, _ => tooDeep
  | fuel + 1, acc => do
    let t ← peek
    match t.kind with
    | .blockEntry =>
      skip
      let next ← peek
      let item ← if isOneOf next [.blockEntry, .blockEnd] then pure (.empty (t.stop.line + 1))
        else node fuel true false
      blockEntries fuel (item :: acc)
    | .blockEnd =>
      let _ ← popMark
      skip
      pure acc.reverse
    | _ =>
      let context ← popMark
      failAt context "did not find expected '-' indicator" t.start

/-- The entries of a sequence written without indentation under a mapping key. -/
def indentlessEntries : Nat → List Node → ReadM (List Node)
  | 0, _ => tooDeep
  | fuel + 1, acc => do
    let t ← peek
    if t.kind == .blockEntry then
      skip
      let next ← peek
      let item ←
        if isOneOf next [.blockEntry, .key, .value, .blockEnd] then pure (.empty (t.stop.line + 1))
        else node fuel true false
      indentlessEntries fuel (item :: acc)
    else pure acc.reverse

/-- The pairs of a block mapping, up to its end. -/
def blockMappingEntries : Nat → List (Node × Node) → ReadM (List (Node × Node))
  | 0, _ => tooDeep
  | fuel + 1, acc => do
    let t ← peek
    match t.kind with
    | .key =>
      skip
      let next ← peek
      let k ← if isOneOf next [.key, .value, .blockEnd] then pure (.empty (t.stop.line + 1))
        else node fuel true true
      let t ← peek
      let v ← if t.kind == .value then do
          skip
          let next ← peek
          if isOneOf next [.key, .value, .blockEnd] then pure (.empty (t.stop.line + 1))
          else node fuel true true
        else pure (.empty (t.start.line + 1))
      blockMappingEntries fuel ((k, v) :: acc)
    | .blockEnd =>
      let _ ← popMark
      skip
      pure acc.reverse
    | _ =>
      let context ← popMark
      failAt context "did not find expected key" t.start

/-- The entries of a flow sequence, up to its `]`. -/
def flowSequenceEntries : Nat → Bool → List Node → ReadM (List Node)
  | 0, _, _ => tooDeep
  | fuel + 1, first, acc => do
    let t ← peek
    if t.kind == .flowSequenceEnd then
      let _ ← popMark
      skip
      return acc.reverse
    let t ← if first then pure t
      else if t.kind == .flowEntry then do
        skip
        peek
      else do
        let context ← popMark
        failAt context "did not find expected ',' or ']'" t.start
    if t.kind == .key then
      skip
      let next ← peek
      let k ← if isOneOf next [.value, .flowEntry, .flowSequenceEnd] then do
          skip
          pure (.empty (t.stop.line + 1))
        else node fuel false false
      let t ← peek
      let v ← if t.kind == .value then do
          skip
          let next ← peek
          if isOneOf next [.flowEntry, .flowSequenceEnd] then pure (.empty (t.stop.line + 1))
          else node fuel false false
        else pure (.empty (t.start.line + 1))
      flowSequenceEntries fuel false (.mapping "!!map" [(k, v)] k.line :: acc)
    else if t.kind == .flowSequenceEnd then
      let _ ← popMark
      skip
      pure acc.reverse
    else
      let item ← node fuel false false
      flowSequenceEntries fuel false (item :: acc)

/-- The pairs of a flow mapping, up to its `}`. -/
def flowMappingEntries : Nat → Bool → List (Node × Node) → ReadM (List (Node × Node))
  | 0, _, _ => tooDeep
  | fuel + 1, first, acc => do
    let t ← peek
    if t.kind == .flowMappingEnd then
      let _ ← popMark
      skip
      return acc.reverse
    let t ← if first then pure t
      else if t.kind == .flowEntry then do
        skip
        peek
      else do
        let context ← popMark
        failAt context "did not find expected ',' or '\x7d'" t.start
    if t.kind == .key then
      skip
      let next ← peek
      let k ← if isOneOf next [.value, .flowEntry, .flowMappingEnd] then
          pure (.empty (t.stop.line + 1))
        else node fuel false false
      let t ← peek
      let v ← if t.kind == .value then do
          skip
          let next ← peek
          if isOneOf next [.flowEntry, .flowMappingEnd] then pure (.empty (t.stop.line + 1))
          else node fuel false false
        else pure (.empty (t.start.line + 1))
      flowMappingEntries fuel false ((k, v) :: acc)
    else if t.kind == .flowMappingEnd then
      let _ ← popMark
      skip
      pure acc.reverse
    else
      let k ← node fuel false false
      let t ← peek
      flowMappingEntries fuel false ((k, .empty (t.start.line + 1)) :: acc)

end

/-- The handles every document knows, after its own. -/
def defaultHandles : List (String × String) := [("!", "!"), ("!!", coreTagPrefix)]

/-- Read the directives before a document, then add the default handles. -/
def directives : Nat → Bool → ReadM Unit
  | 0, _ => tooDeep
  | fuel + 1, versionSeen => do
    let t ← peek
    match t.kind with
    | .versionDirective major minor =>
      if versionSeen then failAt {} "found duplicate %YAML directive" t.start
      else if major != 1 || minor != 1 then
        failAt {} "found incompatible YAML document" t.start
      else
        skip
        directives fuel true
    | .tagDirective handle pfx =>
      if ((← get).handles.map (·.1)).contains handle then
        failAt {} "found duplicate %TAG directive" t.start
      else
        modify fun r => { r with handles := r.handles ++ [(handle, pfx)] }
        skip
        directives fuel versionSeen
    | _ =>
      modify fun r =>
        let added := defaultHandles.filter (fun d => !(r.handles.map (·.1)).contains d.1)
        { r with handles := r.handles ++ added }

/-- Consume the end of a document, explicit or not. -/
def documentEnd : ReadM Unit := do
  if (← peek).kind == .documentEnd then skip

/-- Read the first document of the stream, if there is one. -/
def document (fuel : Nat) : ReadM (Option Node) := do
  skip
  let t ← peek
  match t.kind with
  | .streamEnd => pure none
  | .versionDirective _ _ | .tagDirective _ _ | .documentStart =>
    directives fuel false
    let t ← peek
    if t.kind != .documentStart then failAt {} "did not find expected <document start>" t.start
    skip
    let t ← peek
    let root ← if isOneOf t [.documentStart, .documentEnd, .streamEnd] ||
        (match t.kind with | .versionDirective _ _ | .tagDirective _ _ => true | _ => false) then
        pure (.empty (t.start.line + 1))
      else node fuel true false
    documentEnd
    pure (some root)
  | _ =>
    directives fuel false
    let root ← node fuel true false
    documentEnd
    pure (some root)

end Reader

namespace Document

/-- How many characters lie wholly within the first `n` bytes of a text. -/
def charsWithin : List Char → Nat → Nat
  | [], _ => 0
  | c :: rest, n => if c.utf8Size ≤ n then charsWithin rest (n - c.utf8Size) + 1 else 0

/-- The number of bytes the reader decodes at a time. -/
def chunkSize : Nat := 512

/-- The byte offset where the reader's chunk holding the first refused character begins, if a
character is refused. The walk is at byte `p` in a chunk that begins at byte `s`. A chunk holds
the characters wholly within 512 bytes of its start; a character its end cuts is left for the
next chunk, which begins with it. -/
def refusedChunk : List Char → Nat → Nat → Option Nat
  | [], _, _ => none
  | c :: rest, p, s =>
    let s := if p + c.utf8Size > s + chunkSize then p else s
    if isAllowedChar c then refusedChunk rest (p + c.utf8Size) s else some s

/-- Read the first document of a text; an empty text reads as a single line break.

The reader decodes the text in chunks of 512 bytes (a character cut by a chunk's end going with
the next chunk), each when the lexer first needs a character of it, and refuses a chunk that
holds a control character. So a control character is refused
only when the document, or the lookahead that ends it, reaches its chunk; a text that ends
before it reads as if the character were not there. -/
def parse (text : String) : Except Problem Document :=
  let cs := text.toList
  let result := (Reader.document (4 * text.length + 16)).run
    { lexer := Lexer.ofString (if text.isEmpty then "\n" else text) }
  let read := match result with
    | .ok (_, r) => r.lexer.extent
    | .error p => p.read
  let refused : Bool := match refusedChunk cs 0 0 with
    | some start =>
      let (bom, body) := match cs with
        | '\uFEFF' :: rest => (3, rest)
        | _ => (0, cs)
      read > charsWithin body (start - bom)
    | none => false
  if refused then .error { stage := .reader, problem := "control characters are not allowed" }
  else match result with
    | .ok (root, r) => .ok { root, anchored := r.anchored }
    | .error p => .error p

end Document

end TraceSynth.Yaml
