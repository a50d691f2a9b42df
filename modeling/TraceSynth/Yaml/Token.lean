/-!
# YAML tokens and problems

The vocabulary shared by the YAML reader's stages: positions in the text, the tokens the lexer
produces, and the problem that stops a read. A problem keeps the stage that found it and two
marks; its message prefixes a one-based line taken from the context mark, or failing that from the
problem mark, and only a lexer problem counts its line from one (the parser's lines are the
zero-based line of the mark, which is what readers of its messages see).
-/

namespace TraceSynth.Yaml

/-- A position in the text: characters read so far, and the zero-based line and column. -/
structure Mark where
  /-- Characters consumed before this position. -/
  index : Nat := 0
  /-- Zero-based line. -/
  line : Nat := 0
  /-- Zero-based column. -/
  column : Nat := 0
  deriving Inhabited, DecidableEq, Repr

/-- How a scalar was written. -/
inductive ScalarStyle where
  | plain
  | singleQuoted
  | doubleQuoted
  | literal
  | folded
  deriving Inhabited, DecidableEq, Repr

/-- The kinds of token. -/
inductive TokenKind where
  | streamStart
  | streamEnd
  /-- A `%YAML major.minor` directive. -/
  | versionDirective (major minor : Nat)
  /-- A `%TAG handle pfx` directive. -/
  | tagDirective (handle pfx : String)
  | documentStart
  | documentEnd
  | blockSequenceStart
  | blockMappingStart
  | blockEnd
  | flowSequenceStart
  | flowSequenceEnd
  | flowMappingStart
  | flowMappingEnd
  | blockEntry
  | flowEntry
  | key
  | value
  | alias (name : String)
  | anchor (name : String)
  /-- A tag as written: its handle (empty for a verbatim tag) and suffix. -/
  | tag (handle suffix : String)
  | scalar (text : String) (style : ScalarStyle)
  deriving Inhabited, DecidableEq, Repr

/-- A token with the marks of its first character and of the position after it. -/
structure Token where
  kind : TokenKind
  start : Mark
  stop : Mark
  deriving Inhabited, Repr

/-- The stage of reading that found a problem. -/
inductive Stage where
  /-- Decoding characters. -/
  | reader
  /-- Splitting the text into tokens. -/
  | lexer
  /-- Matching tokens against the grammar. -/
  | parser
  /-- Building the node tree (aliases). -/
  | composer
  deriving Inhabited, DecidableEq, Repr

/-- What stopped a read. -/
structure Problem where
  stage : Stage
  /-- The mark of the construct being read, when there is one. -/
  contextMark : Mark := {}
  /-- What went wrong. -/
  problem : String
  /-- Where it went wrong. -/
  problemMark : Mark := {}
  /-- How many characters of the text had been read when it went wrong. -/
  read : Nat := 0
  deriving Inhabited, Repr

namespace Problem

/-- The line a message names, zero when it names none. -/
def line (p : Problem) : Nat :=
  let bump := if p.stage == .lexer then 1 else 0
  if p.contextMark.line != 0 then p.contextMark.line + bump
  else if p.problemMark.line != 0 then p.problemMark.line + bump
  else 0

/-- The text of a problem, as the reader reports it. -/
def message (p : Problem) : String :=
  let line := p.line
  "yaml: " ++ (if line != 0 then "line " ++ toString line ++ ": " else "") ++ p.problem

end Problem

end TraceSynth.Yaml
