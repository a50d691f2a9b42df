/-!
# TOML documents as expressions

A TOML document is a sequence of expressions, one a line: a key–value pair, a `[table]`
header, or an `[[array]]` header. A key is dotted: a list of its parts. A value is read in two
steps: the reader finds where it ends and keeps its written characters, and decoding reads
numbers, dates and times from them later, so that an expression's definition is checked
before its numbers are.
-/

namespace TraceSynth.Toml

/-- The kinds of values kept as their written characters until they are decoded. -/
inductive ScalarKind where
  | integer
  | float
  /-- A date and time with a zone offset. -/
  | dateTime
  | localDate
  | localTime
  | localDateTime
  deriving Inhabited, BEq, Repr

/-- A value as the reader finds it. -/
inductive Item where
  /-- A string, with its escapes already replaced. -/
  | string (s : String)
  | bool (b : Bool)
  /-- A number, date or time, with its written bytes, each as the character with its number. -/
  | scalar (kind : ScalarKind) (written : String)
  | array (items : List Item)
  /-- An inline table, its pairs in the order written. -/
  | inlineTable (pairs : List (List String × Item))
  deriving Inhabited, Repr

/-- An expression of a document. -/
inductive Expression where
  /-- A key–value pair of the current table. -/
  | pair (key : List String) (value : Item)
  /-- A header opening a table. -/
  | table (key : List String)
  /-- A header appending a table to an array of tables. -/
  | arrayTable (key : List String)
  deriving Inhabited, Repr

end TraceSynth.Toml
