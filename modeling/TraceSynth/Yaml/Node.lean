import TraceSynth.Yaml.Resolve

/-!
# YAML nodes

A document is a tree of nodes in which an alias points, by number, at an anchored node. The
anchored nodes are kept beside the tree, so an alias may point at a node that contains it.
-/

namespace TraceSynth.Yaml

/-- A node of a YAML document. Each node knows the line it starts on, counted from 1: the line
of its anchor or tag when it has one. -/
inductive Node where
  /-- A scalar: its tag (short form), its text, and whether it was written plain and untagged. -/
  | scalar (tag : String) (text : String) (plain : Bool) (line : Nat)
  /-- A sequence with its tag and items. -/
  | sequence (tag : String) (items : List Node) (line : Nat)
  /-- A mapping with its tag and key–value pairs, in order. -/
  | mapping (tag : String) (entries : List (Node × Node)) (line : Nat)
  /-- A reference to the `target`-th anchored node, whose anchor is `name`. -/
  | alias (name : String) (target : Nat) (line : Nat)
  deriving Inhabited

namespace Node

/-- The tag of a node; an alias has none. -/
def tag : Node → String
  | .scalar t _ _ _ => t
  | .sequence t _ _ => t
  | .mapping t _ _ => t
  | .alias _ _ _ => ""

/-- The line a node starts on. -/
def line : Node → Nat
  | .scalar _ _ _ l => l
  | .sequence _ _ l => l
  | .mapping _ _ l => l
  | .alias _ _ l => l

/-- The text of a node used as a mapping key: a scalar's text, an alias's anchor name, and
empty for a collection. -/
def keyText : Node → String
  | .scalar _ text _ _ => text
  | .alias name _ _ => name
  | _ => ""

/-- The empty plain scalar on a line, which denotes null. -/
def empty (line : Nat) : Node := .scalar "!!null" "" true line

end Node

/-- A parsed document: its root (absent when the text holds no document) and its anchored
nodes, numbered in the order their anchors appear. -/
structure Document where
  root : Option Node
  anchored : Array Node := #[]
  deriving Inhabited

end TraceSynth.Yaml
