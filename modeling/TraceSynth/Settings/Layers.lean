import TraceSynth.Settings.Value
import TraceSynth.Cli.Flag

/-!
# Layered settings

A setting is named by a dotted key and looked up in layers, the first that has it winning: a
flag bound to the key and given on the command line, then the environment variable named by
the program's prefix and the key in upper case with dots as underscores, then the settings
file, then the default of the bound flag. Keys ignore ASCII case. An empty environment
variable counts as unset, and a null in the file as absent.

A key whose parent key is itself bound to a flag, set in the environment, or holds a plain
value in the file is shadowed there and has no value. In the file a key may also be written
with its dots, and a number in a key picks an item of a list.

A key is *set* when some layer other than the flag defaults has it. Values are converted to the
type asked for leniently: a text that is no number reads as zero, a float is cut toward zero,
and a list or table is zero, false or empty.

A view of a table of settings keeps the environment, and its keys are looked up there under
the table's key.
-/

namespace TraceSynth

/-- A flag bound to a settings key. -/
structure Binding where
  key : String
  flag : Cli.Flag
  /-- The values given on the command line, when the flag was given. -/
  given : Option (List String) := none
  deriving Inhabited

/-- Settings from flags, the environment and a settings file. -/
structure Settings where
  /-- The prefix of environment variable names. -/
  envPrefix : String
  bindings : List Binding := []
  /-- The environment. -/
  env : List (String × String) := []
  /-- The settings file's table. -/
  file : SettingValue := .table []
  /-- The keys above this view, outermost first. -/
  parents : List String := []
  deriving Inhabited

namespace SettingValue

/-- Whether a value is null. -/
def isNull : SettingValue → Bool
  | .null => true
  | _ => false

/-- The value at a path of nested tables, each key a table key. -/
def atPath : SettingValue → List String → Option SettingValue
  | v, [] => some v
  | .table es, k :: rest => (es.find? (·.1 == k)).bind fun (_, n) => atPath n rest
  | _, _ :: _ => none

/-- The value of a path in a tree where a key may hold dots of the path and a number may pick
a list item; the longest key is tried first, and null counts as absent. -/
def lookupPath : Nat → SettingValue → List String → Option SettingValue
  | 0, _, _ => none
  | _ + 1, v, [] => if v.isNull then none else some v
  | fuel + 1, src, path =>
    ((List.range path.length).reverse.map (· + 1)).findSome? fun i =>
      let k := (".".intercalate (path.take i)).map Char.toLower
      let next : Option SettingValue := match src with
        | .table es => (es.find? fun (e : String × SettingValue) => e.1 == k).map Prod.snd
        | .list items => k.toNat?.bind fun j => items[j]?
        | _ => none
      next.bind fun (n : SettingValue) =>
        if i == path.length then (if n.isNull then none else some n)
        else match n with
          | .table _ | .list _ => lookupPath fuel n (path.drop i)
          | _ => none

/-- Whether a path is shadowed by a plain value at one of its proper prefixes. -/
def shadows (v : SettingValue) (path : List String) : Bool :=
  let rec go : List Nat → Bool
    | [] => false
    | i :: rest =>
      match v.atPath (path.take i) with
      | none | some .null => false
      | some (.table _) => go rest
      | some _ => true
  go ((List.range (path.length - 1)).map (· + 1))

/-- An integer literal with a zero fraction dropped, as lenient conversion reads it. From the
end, zeros and points are passed over, and the first point after a zero cuts the text there;
any other character, or reaching the start, leaves the text whole. So `12.00` and `12.0.`
read as `12`, while `12.50` and `12.` stay as they are. -/
def trimZeroFraction (s : String) : String :=
  let rec scan : List Char → Bool → String
    | [], _ => s
    | '.' :: rest, seenZero => if seenZero then String.ofList rest.reverse else scan rest false
    | '0' :: rest, _ => scan rest true
    | _ :: _, _ => s
  scan s.toList.reverse false

/-- The least 64-bit integer, which a float out of range converts to. -/
def minInt64 : Int := -9223372036854775808

/-- A float cut toward zero to a 64-bit integer. -/
def truncate (x : Float) : Int :=
  if x.isNaN || x.isInf || x ≥ 9223372036854775808.0 || x < -9223372036854775808.0 then minInt64
  else if x < 0 then -((-x).floor.toUInt64.toNat : Int) else (x.floor.toUInt64.toNat : Int)

/-- An integer in a 64-bit word: an unsigned value past the signed range wraps around. -/
def wrap64 (n : Int) : Int :=
  -- the bounds are `2^63` and `2^64`
  if n ≥ 9223372036854775808 then n - 18446744073709551616 else n

/-- A value as an integer. -/
def toInt : Option SettingValue → Int
  | some (.int n) => wrap64 n
  | some (.float x) => truncate x
  | some (.bool b) => if b then 1 else 0
  | some (.str s) => match Cli.readInt (trimZeroFraction s) with
    | .ok n => n
    | .error _ => 0
  | _ => 0

/-- A value as a float. -/
def toFloat : Option SettingValue → Float
  | some (.int n) => Float.ofInt n
  | some (.float x) => x
  | some (.bool b) => if b then 1 else 0
  | some (.str s) => match Cli.readFloat s with
    | .ok x => x
    | .error _ => 0
  | _ => 0

/-- A float in positional notation with its shortest digits. -/
def positional (x : Float) : String :=
  match Binary64.parts x with
  | .nan => "NaN"
  | .inf neg => if neg then "-Inf" else "+Inf"
  | .finite _ _ _ => Binary64.writeFinite ⟨fun _ _ => true, 0⟩ x

/-- A value as a text. -/
def toText : Option SettingValue → String
  | some (.str s) => s
  | some (.bool b) => if b then "true" else "false"
  | some (.int n) => toString n
  | some (.float x) => positional x
  | some (.moment _ shown) => shown
  | _ => ""

/-- A value as a truth value. -/
def toBool : Option SettingValue → Bool
  | some (.bool b) => b
  | some (.int n) => n != 0
  | some (.float x) => x != 0
  | some (.str s) => (Cli.readBool s).toOption.getD false
  | _ => false

end SettingValue

namespace Settings

/-- The environment variable of a key. -/
def envName (s : Settings) (key : String) : String :=
  ((s.envPrefix ++ "_" ++ key).map Char.toUpper).map fun c => if c == '.' then '_' else c

/-- The environment's value for a key, an empty value counting as unset. -/
def envValue? (s : Settings) (key : String) : Option String :=
  match s.env.find? (·.1 == s.envName key) with
  | some (_, v) => if v.isEmpty then none else some v
  | none => none

/-- The value of a bound flag whose values are given as texts. -/
def flagSetting (f : Cli.Flag) (texts : List String) : SettingValue :=
  let last := texts.getLastD f.default
  match f.kind with
  | .int | .int64 => .int (SettingValue.toInt (some (.str last)))
  | .bool => .bool (SettingValue.toBool (some (.str last)))
  | .texts => .list (texts.map .str)
  | _ => .str last

/-- Look a key up in the layers; `withDefaults` lets the flag defaults answer last. -/
def find (s : Settings) (key : String) (withDefaults : Bool) : Option SettingValue := Id.run do
  let key := key.map Char.toLower
  let path := key.splitOn "."
  let nested := path.length > 1
  let parentKeys :=
    ((List.range (path.length - 1)).map (· + 1)).map fun i => ".".intercalate (path.take i)
  let bound := s.bindings.find? (·.key == key)
  if let some b := bound then
    if let some texts := b.given then return some (flagSetting b.flag texts)
  if nested && parentKeys.any (fun p => s.bindings.any (·.key == p)) then return none
  if let some v := s.envValue? (".".intercalate (s.parents ++ [key])) then return some (.str v)
  if nested && parentKeys.any (fun p => (s.envValue? p).isSome) then return none
  if let some v := SettingValue.lookupPath (path.length + 64) s.file path then return some v
  if nested && s.file.shadows path then return none
  if withDefaults then
    if let some b := bound then return some (flagSetting b.flag [b.flag.default])
  return none

/-- The value of a key. -/
def get (s : Settings) (key : String) : Option SettingValue := s.find key true

/-- Whether some layer other than the flag defaults has a key. -/
def isSet (s : Settings) (key : String) : Bool := (s.find key false).isSome

/-- A key's value as an integer. -/
def getInt (s : Settings) (key : String) : Int := SettingValue.toInt (s.get key)

/-- A key's value as a float. -/
def getFloat (s : Settings) (key : String) : Float := SettingValue.toFloat (s.get key)

/-- A key's value as a text. -/
def getText (s : Settings) (key : String) : String := SettingValue.toText (s.get key)

/-- A key's value as a truth value. -/
def getBool (s : Settings) (key : String) : Bool := SettingValue.toBool (s.get key)

/-- The view of the table at a key, if the key holds a table. -/
def view (s : Settings) (key : String) : Option Settings :=
  match s.get key with
  | some (.table es) =>
    some { envPrefix := s.envPrefix, env := s.env, file := .table es,
           parents := s.parents ++ [key.map Char.toLower] }
  | _ => none

mutual

/-- The dotted keys of the plain values of a tree, a table's keys after its own prefix. -/
def leafKeys : String → SettingValue → List String
  | pre, .table es => leafEntries pre es
  | pre, _ => [pre]

/-- The dotted keys of the plain values of a table's entries. -/
def leafEntries : String → List (String × SettingValue) → List String
  | _, [] => []
  | pre, (k, v) :: rest =>
    let full := if pre.isEmpty then k else pre ++ "." ++ k
    (match v with
     | .table _ => leafKeys full v
     | _ => [full]) ++ leafEntries pre rest

end

/-- Put a value at a dotted path of a table's entries, making tables along it. -/
def putPath :
    List String → SettingValue → List (String × SettingValue) → List (String × SettingValue)
  | [], _, es => es
  | [k], v, es => SettingValue.setEntry es k v
  | k :: more, v, es =>
    let inner := match es.find? (·.1 == k) with
      | some (_, .table inner) => inner
      | _ => []
    SettingValue.setEntry es k (.table (putPath more v inner))

/-- Every setting of the file's keys, as the layers answer them, in a table. -/
def all (s : Settings) : List (String × SettingValue) :=
  let keys := (leafKeys "" s.file).filter (!·.isEmpty)
  keys.foldl (fun es k => match s.get k with
    | some v => putPath ((k.map Char.toLower).splitOn ".") v es
    | none => es) []

end Settings

end TraceSynth
