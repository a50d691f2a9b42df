import TraceSynth.Settings.Yaml
import TraceSynth.Settings.Toml
import TraceSynth.Json.Read
import TraceSynth.Files.Tree
import TraceSynth.Settings.Dotenv

/-!
# Settings files

A settings file is read by the format its extension names: YAML (`yaml`, `yml`), JSON, TOML,
or environment files (`env`, `dotenv`). An extension outside the known ones is refused before
the file is read; the known extensions of formats without a reader (`hcl`, `tfvars`, `ini`,
`properties`, `props`, `prop`) are refused once it is read. The file must hold a table; its
keys are put in lower case.

A JSON number is a float, and every value of an environment file is a text.
-/

namespace TraceSynth

namespace SettingValue

mutual

/-- The setting of a JSON value. -/
def ofJson : Json → SettingValue
  | .null => .null
  | .bool b => .bool b
  | .number x => .float x
  | .int n => .float (Float.ofInt n)
  | .string s => .str s
  | .array items => .list (ofJsonItems items)
  | .object members => .table (ofJsonMembers members)

/-- The settings of JSON items. -/
def ofJsonItems : List Json → List SettingValue
  | [] => []
  | j :: rest => ofJson j :: ofJsonItems rest

/-- The entries of JSON members. -/
def ofJsonMembers : List (String × Json) → List (String × SettingValue)
  | [] => []
  | (k, j) :: rest => (k, ofJson j) :: ofJsonMembers rest

end

/-- The formats a settings file may have, by extension. -/
def fileFormats : List String :=
  ["yaml", "yml", "json", "toml", "hcl", "tfvars", "ini", "properties", "props", "prop", "dotenv",
   "env"]

/-- The extension of a path: what follows the last dot of its last element. -/
def extension (path : String) : String :=
  let name := (path.splitOn "/").getLastD ""
  match name.splitOn "." with
  | [] | [_] => ""
  | parts => parts.getLastD ""

/-- The message of a JSON document that is not a table. -/
def notTable (kind : String) : String :=
  "json: cannot unmarshal " ++ kind ++ " into Go value of type map[string]interface \x7b\x7d"

/-- Parse a settings file's content in a format; an environment file looks its variables up in
`env`. TOML is read byte by byte, the other formats as UTF-8 text. -/
def parseAs (env : List (String × String)) (format : String) (content : Bytes) :
    Except Bytes SettingValue :=
  let text := content.toStringLossy
  match format with
  | "yaml" | "yml" => ofYaml text
  | "json" =>
    match Json.read text with
    | .error e => .error e.message
    | .ok .null => .ok (.table [])
    | .ok (.object ms) => .ok (ofJson (.object ms))
    | .ok j => .error (notTable j.kindName)
  | "toml" => (Toml.read content).mapError Bytes.ofString
  | "env" | "dotenv" =>
    ((Dotenv.read env text).map fun kvs => .table (kvs.map fun (k, v) => (k, .str v))).mapError
      Bytes.ofString
  | _ => .error "decoder not found for this format"

/-- Read the settings file at a path of a file tree, in the environment `env`. -/
def readFile (env : List (String × String)) (t : FileTree) (path : String) :
    Except Bytes SettingValue := do
  let format := extension path
  if !fileFormats.contains format then
    throw (Bytes.ofString ("Unsupported Config Type " ++ Quoted.quote (Bytes.ofString format)))
  let content ← (t.readFile path).mapError (Bytes.ofString ·.message)
  let v ← (parseAs env format content).mapError (Bytes.ofString "While parsing config: " ++ ·)
  pure v.lowerKeys

end SettingValue

end TraceSynth
