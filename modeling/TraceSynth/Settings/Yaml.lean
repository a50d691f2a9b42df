import TraceSynth.Settings.Value
import TraceSynth.Yaml.Parse
import TraceSynth.Input.Parse
import TraceSynth.Text.Base64

/-!
# YAML settings files

A YAML settings file is a mapping, decoded into a table the way the YAML reader fills a table
of named values:

* Scalars keep their schema type: null, booleans, integers, floats, timestamps as instants,
  and strings for everything else; a `!!binary` scalar is the text it encodes. A scalar whose
  explicit tag its text does not fit stops the reading.
* A mapping that gives a key twice (the same kind of node with the same text) is not decoded:
  each repetition is reported with its line and the line of the first.
* A merge key `<<` adds the entries of the mapping it names, or of each mapping of a sequence
  it names, that the mapping does not give itself, earlier mappings first. Anything else after
  `<<` stops the reading.
* An alias stands for its anchored node; an alias inside the node it names stops the reading.
  Decoding counts the nodes it decodes; past a hundred from aliases and a thousand in all, a
  document whose aliases account for more than 99% of them (less past 400000 nodes) stops.
* The keys of the top table, and of a table whose keys are all strings, are their texts; a
  null key there is dropped, and a collection key is reported. Other tables key their entries
  by the keys' values written out, and a collection key stops the reading.

A document that is a sequence, or a scalar other than null, is reported with the line where
it starts; a document with nothing in it is the empty table. Reports are gathered and returned
together after the whole document is decoded.
-/

namespace TraceSynth

namespace SettingValue

/-- The text of a value as a collection key that stops the reading shows it. -/
def goSyntax : SettingValue → String
  | .null => "interface \x7b\x7d(nil)"
  | .str s => Quoted.quote (Bytes.ofString s)
  | .list items =>
    "[]interface \x7b\x7d\x7b" ++ ", ".intercalate (items.map fun v => v.plain) ++ "\x7d"
  | .table entries =>
    "map[string]interface \x7b\x7d\x7b" ++ ", ".intercalate (entries.map fun (k, v) =>
      Quoted.quote (Bytes.ofString k) ++ ":" ++ v.plain) ++ "\x7d"
  | v => v.plain

end SettingValue

namespace Yaml

/-- Whether a node is the merge key: the scalar `<<`, written plain or tagged `!!merge`. -/
def Node.isMergeKey : Node → Bool
  | .scalar tag text _ _ => text == "<<" && (tag == "" || tag == "!" || tag == "!!merge")
  | _ => false

/-- The kind of a node, by which repeated keys are compared along with their texts. -/
def Node.kindIndex : Node → Nat
  | .scalar .. => 0
  | .sequence .. => 1
  | .mapping .. => 2
  | .alias .. => 3

/-- The report of a node that cannot be decoded into a value of type `into`: a scalar shows
its text, cut to seven bytes when it is longer than ten, even inside a character. -/
def Node.mismatch (n : Node) (into : String) : Bytes :=
  let tag := n.tag
  let shown : Bytes :=
    if tag == "!!seq" || tag == "!!map" then Bytes.empty
    else
      let text := Bytes.ofString n.keyText
      if text.size > 10 then Bytes.ofString " `" ++ text.take 7 ++ Bytes.ofString "...`"
      else Bytes.ofString (" `" ++ n.keyText ++ "`")
  Bytes.ofString ("line " ++ toString n.line ++ ": cannot unmarshal " ++ tag) ++ shown ++
    Bytes.ofString (" into " ++ into)

/-- The reports of the keys of a mapping that repeat an earlier key, in order. -/
def repeatedKeys (pairs : List (Node × Node)) : List Bytes :=
  let keys := pairs.map (·.1)
  keys.zipIdx.flatMap fun (ki, i) =>
    (keys.drop (i + 1)).filterMap fun kj =>
      if ki.kindIndex == kj.kindIndex && ki.keyText == kj.keyText then
        some (Bytes.ofString ("line " ++ toString kj.line ++ ": mapping key " ++
          Quoted.quote (Bytes.ofString kj.keyText) ++ " already defined at line " ++
          toString ki.line))
      else none

/-- What decoding a document has gathered: its reports, and how many nodes it has decoded, in
all and while expanding an alias. -/
structure Decoding where
  reports : Array Bytes := #[]
  decodes : Nat := 0
  aliased : Nat := 0
  deriving Inhabited

/-- Decoding a document: what it has gathered so far, or a stop. -/
abbrev DecodeM := StateT Decoding (Except String)

/-- Stop decoding with a message. -/
def stop {α : Type} (msg : String) : DecodeM α := throw ("yaml: " ++ msg)

/-- Add a report. -/
def report (r : Bytes) : DecodeM Unit := modify fun d => { d with reports := d.reports.push r }

/-- The share of decoded nodes that alias expansion may account for: nearly all of them in a
document of up to 400000 nodes, a tenth from 4000000 on, and linearly between. -/
def allowedAliasRatio (n : Nat) : Float :=
  if n ≤ 400000 then 0.99
  else if n ≥ 4000000 then 0.10
  else 0.99 - 0.89 * ((n - 400000).toFloat / 3600000.0)

/-- Count one node decoded, inside an alias expansion when `seen` is not empty. Past a hundred
nodes from aliases and a thousand in all, a document whose aliases account for more than the
allowed share stops, so that a few aliases cannot make its value grow without bound. -/
def tick (seen : List Nat) : DecodeM Unit := do
  let d ← get
  let d := { d with decodes := d.decodes + 1,
                    aliased := if seen.isEmpty then d.aliased else d.aliased + 1 }
  set d
  if d.aliased > 100 && d.decodes > 1000 &&
      d.aliased.toFloat / d.decodes.toFloat > allowedAliasRatio d.decodes then
    stop "document contains excessive aliasing"

/-- The stop of a merge key that names neither a mapping nor a sequence of mappings. -/
def mergeNeedsMap {α : Type} : DecodeM α :=
  stop "map merge requires map or sequence of maps as the value"

/-- Report the repeated keys of a mapping; whether there were any. -/
def reportRepeats (pairs : List (Node × Node)) : DecodeM Bool := do
  let reports := repeatedKeys pairs
  modify fun d => { d with reports := d.reports ++ reports.toArray }
  pure !reports.isEmpty

/-- The value of a scalar under its tag. -/
def scalarSetting (tag text : String) : DecodeM SettingValue :=
  if tag == "!!str" then pure (.str text)
  else if tag == "!!binary" then
    match Base64.decode? text with
    | some b => pure (.str b.toStringLossy)
    | none => stop "!!binary value contains invalid base64 data"
  else match decodeAs tag text with
    | .ok .null => pure .null
    | .ok (.bool b) => pure (.bool b)
    | .ok (.int n) => pure (.int n)
    | .ok (.float x) => pure (.float x)
    | .ok (.timestamp c) => pure (.moment .instant c.longText)
    | .ok _ => pure (.str text)
    | .error e => throw e

/-- How a table being filled keys its entries. -/
inductive KeyMode where
  /-- By the texts of the keys, as the top table and tables whose keys are all strings do. -/
  | text
  /-- By the keys' values written out. -/
  | value

namespace Document

/-- The tag a node stands under; an alias stands under its target's. -/
def tagOf (doc : Document) : Node → String
  | .alias _ id _ => ((doc.anchored[id]?).map Node.tag).getD ""
  | n => n.tag

/-- How a nested mapping keys its table: by text when every key is a string or the merge key. -/
def keyMode (doc : Document) (pairs : List (Node × Node)) : KeyMode :=
  if pairs.all fun (k, _) => doc.tagOf k == "!!str" || doc.tagOf k == "!!merge" then .text
  else .value

/-- What a mapping's pairs leave in a table: its entries, and, while entries are merged in, the
keys given so far with the kinds of their values. -/
abbrev Filled := List (String × SettingValue) × Option (List (String × String))

mutual

/-- The value of a node, `none` when it is not decoded (a mapping with a repeated key).
`seen` holds the numbers of the anchored nodes being expanded. -/
def decode (doc : Document) : Nat → List Nat → Node → DecodeM (Option SettingValue)
  | 0, _, _ => stop "document nests too deeply"
  | fuel + 1, seen, .alias name id _ => do
    tick seen
    if seen.contains id then stop ("anchor '" ++ name ++ "' value contains itself")
    else match doc.anchored[id]? with
      | some n => doc.decode fuel (id :: seen) n
      | none => stop ("unknown anchor '" ++ name ++ "' referenced")
  | _ + 1, seen, .scalar tag text _ _ => do
    tick seen
    pure (some (← scalarSetting tag text))
  | fuel + 1, seen, .sequence _ items _ => do
    tick seen
    pure (some (.list (← items.filterMapM (doc.decode fuel seen))))
  | fuel + 1, seen, .mapping _ pairs _ => do
    tick seen
    match ← doc.fill fuel seen (doc.keyMode pairs) pairs ([], none) with
    | some (entries, _) => pure (some (.table entries))
    | none => pure none

/-- The entry key of a key node, with the kind and text of its value; `none` when the key is
dropped. -/
def keyOf (doc : Document) : Nat → List Nat → KeyMode → Node →
    DecodeM (Option (String × String × String))
  | 0, _, _, _ => stop "document nests too deeply"
  | fuel + 1, seen, .value, k => do
    match ← doc.decode fuel seen k with
    | some v@(.list _) | some v@(.table _) => stop ("invalid map key: " ++ v.goSyntax)
    | some v => pure (some (v.plain, v.kindName, v.plain))
    | none => pure none
  | fuel + 1, seen, .text, .alias name id _ => do
    tick seen
    if seen.contains id then stop ("anchor '" ++ name ++ "' value contains itself")
    else match doc.anchored[id]? with
      | some n => doc.keyOf fuel (id :: seen) .text n
      | none => stop ("unknown anchor '" ++ name ++ "' referenced")
  | _ + 1, seen, .text, .scalar tag text _ _ => do
    tick seen
    match ← scalarSetting tag text with
    | .null => pure none
    | .str s =>
      let t := if tag == "!!binary" then s else text
      pure (some (t, "string", t))
    | _ => pure (some (text, "string", text))
  | _ + 1, seen, .text, k@(.sequence ..) => do
    tick seen
    report (k.mismatch "string")
    pure none
  | _ + 1, seen, .text, k@(.mapping _ pairs _) => do
    tick seen
    if !(← reportRepeats pairs) then report (k.mismatch "string")
    pure none

/-- Fill a table from the pairs of a mapping, each key then its value, and merge in what a
merge key names last; `none` when a key repeats. While entries are merged in, a key already
given is skipped. -/
def fill (doc : Document) : Nat → List Nat → KeyMode → List (Node × Node) → Filled →
    DecodeM (Option Filled)
  | 0, _, _, _, _ => stop "document nests too deeply"
  | fuel + 1, seen, mode, pairs, start => do
    if ← reportRepeats pairs then return none
    let step (acc : Filled × Option Node) (pair : Node × Node) :
        DecodeM (Filled × Option Node) := do
      let ((out, given), mergeNode) := acc
      let (k, v) := pair
      if k.isMergeKey then return ((out, given), some v)
      match ← doc.keyOf fuel seen mode k with
      | none => pure ((out, given), mergeNode)
      | some (key, kind, text) =>
        let id := (kind, text)
        if given.any (·.contains id) then return ((out, given), mergeNode)
        let given := given.map (· ++ [id])
        match ← doc.decode fuel seen v with
        | some e => pure ((SettingValue.setEntry out key e, given), mergeNode)
        | none => pure ((out, given), mergeNode)
    let (filled, mergeNode) ← pairs.foldlM step (start, none)
    match mergeNode with
    | none => pure (some filled)
    | some m => pure (some (← doc.merge fuel seen mode pairs m filled))

/-- Merge into a table the entries of what a merge key names, skipping the keys the mapping
gives itself and those merged before. -/
def merge (doc : Document) : Nat → List Nat → KeyMode → List (Node × Node) → Node → Filled →
    DecodeM Filled
  | 0, _, _, _, _, _ => stop "document nests too deeply"
  | fuel + 1, seen, mode, pairs, m, (out, given) => do
    let own ← match given with
      | some g => pure g
      | none => pairs.filterMapM fun (k, _) => do
        pure ((← doc.decode fuel seen k).map fun v => (v.kindName, v.plain))
    let source (n : Node) (filled : Filled) : DecodeM Filled := do
      match n with
      | .mapping _ ps _ =>
        tick seen
        pure ((← doc.fill fuel seen mode ps filled).getD filled)
      | .alias name id _ =>
        match doc.anchored[id]? with
        | some (.mapping _ ps _) =>
          tick seen
          if seen.contains id then stop ("anchor '" ++ name ++ "' value contains itself")
          tick (id :: seen)
          pure ((← doc.fill fuel (id :: seen) mode ps filled).getD filled)
        | _ => mergeNeedsMap
      | _ => mergeNeedsMap
    let (out, own) ← match m with
      | .mapping .. | .alias .. => source m (out, some own)
      | .sequence _ items _ => items.foldlM (fun filled item => source item filled) (out, some own)
      | _ => mergeNeedsMap
    pure (out, if given.isSome then own else none)

end

/-- The top table a document's root decodes to. -/
def top (doc : Document) : Nat → List Nat → Node → DecodeM (List (String × SettingValue))
  | 0, _, _ => stop "document nests too deeply"
  | fuel + 1, seen, .alias name id _ => do
    tick seen
    if seen.contains id then stop ("anchor '" ++ name ++ "' value contains itself")
    else match doc.anchored[id]? with
      | some n => doc.top fuel (id :: seen) n
      | none => stop ("unknown anchor '" ++ name ++ "' referenced")
  | fuel + 1, seen, .mapping _ pairs _ => do
    tick seen
    pure (((← doc.fill fuel seen .text pairs ([], none)).map (·.1)).getD [])
  | _ + 1, seen, n@(.scalar tag text _ _) => do
    tick seen
    match ← scalarSetting tag text with
    | .null => pure []
    | _ =>
      report (n.mismatch "map[string]interface \x7b\x7d")
      pure []
  | _ + 1, seen, n@(.sequence ..) => do
    tick seen
    report (n.mismatch "map[string]interface \x7b\x7d")
    pure []

end Document

end Yaml

namespace SettingValue

/-- Read a YAML settings file into a table; the message of a refusal is bytes, since a report
may cut a character. -/
def ofYaml (text : String) : Except Bytes SettingValue := do
  let doc ← (Yaml.Document.parse text).mapError (Bytes.ofString ·.message)
  match doc.root with
  | none => pure (.table [])
  | some root =>
    let nodes := root.size + (doc.anchored.toList.map Yaml.Node.size).foldr (· + ·) 0 + 1
    let fuel := 2 * nodes * (doc.anchored.size + 2)
    let (entries, d) ← ((Yaml.tick [] *> doc.top fuel [] root).run {}).mapError Bytes.ofString
    if d.reports.isEmpty then pure (.table entries)
    else .error (d.reports.foldl (fun acc r => acc ++ Bytes.ofString "\n  " ++ r)
      (Bytes.ofString "yaml: unmarshal errors:"))

end SettingValue

end TraceSynth
