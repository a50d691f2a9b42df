import TraceSynth.Cli.Flag

/-!
# Commands and their arguments

A command line names a command by walking down a tree of commands: each word that is no flag
and no flag's value names a subcommand of the command reached so far, until one names none.
What is left is parsed against the flags the command knows: its own, the persistent flags of
it and of its ancestors, a `-h, --help` switch, and on the root a `-v, --version` switch.

Flags are written `--name value`, `--name=value`, `-n value`, `-nvalue` or `-n=value`; a switch
needs no value, several short switches may share one dash, and `--` ends the flags. Words that
are not flags are the command's arguments, wherever they stand.

While the command is being found, the help and version switches are not yet known, so a word
after them is taken for their value; once the command is found they are switches again.
-/

namespace TraceSynth

namespace Cli

/-- How many arguments a command takes. -/
inductive Arity where
  /-- Any number; a root with subcommands refuses an argument as an unknown command. -/
  | free
  /-- None: an argument is an unknown command. -/
  | none
  /-- Exactly this many. -/
  | exactly (n : Nat)
  deriving Inhabited

/-- A command of a command tree. -/
structure Command where
  name : String
  /-- The one-line synopsis, starting with the name. -/
  use : String
  short : String
  long : String := ""
  /-- The flags of this command alone. -/
  flags : List Flag := []
  /-- The flags of this command that its subcommands inherit. -/
  persistent : List Flag := []
  arity : Arity := .free
  runnable : Bool := true
  /-- Whether the synopsis in usage text ends in `[flags]`. -/
  flagsInUse : Bool := true
  hidden : Bool := false
  /-- The version the root reports, if any. -/
  version : String := ""
  /-- The subcommands, in the order they were added. -/
  subcommands : List Command := []
  deriving Inhabited

/-- A command with its ancestors: the root first, the command last. -/
abbrev Lineage := List Command

namespace Lineage

/-- The command itself. -/
def command (l : Lineage) : Command := l.getLastD default

/-- Whether the command is the root. -/
def isRoot (l : Lineage) : Bool := l.length ≤ 1

/-- The names from the root to the command, separated by spaces. -/
def path (l : Lineage) : String := " ".intercalate (l.map (·.name))

/-- The persistent flags the command inherits from its ancestors. -/
def inherited (l : Lineage) : List Flag :=
  let own := l.command.flags ++ l.command.persistent
  (l.dropLast.flatMap (·.persistent)).filter fun f => !own.any (·.name == f.name)

/-- The flags the command declares, its inherited ones included. -/
def declared (l : Lineage) : List Flag :=
  l.command.flags ++ l.command.persistent ++ l.inherited

/-- The help switch, and on a command with a version the version switch. -/
def switches (l : Lineage) : List Flag :=
  let c := l.command
  let own := l.declared
  let shortTaken (ch : Char) := own.any (·.short == some ch)
  let help : List Flag := if own.any (·.name == "help") then [] else
    [Flag.switch "help" (if shortTaken 'h' then none else some 'h') ("help for " ++ c.name)]
  let version : List Flag :=
    if c.version.isEmpty || own.any (·.name == "version") then []
    else
      [Flag.switch "version" (if shortTaken 'v' then none else some 'v') ("version for " ++ c.name)]
  help ++ version

/-- Every flag of the command once it is found. -/
def allFlags (l : Lineage) : List Flag := l.declared ++ l.switches

end Lineage

/-- The flag of a long name. -/
def findLong (flags : List Flag) (name : String) : Option Flag := flags.find? (·.name == name)

/-- The flag of a short name. -/
def findShort (flags : List Flag) (c : Char) : Option Flag := flags.find? (·.short == some c)

/-- Whether a word is a flag that takes the next word as its value when written alone. -/
def takesValue (flags : List Flag) (w : String) : Bool :=
  if w.startsWith "--" && !w.contains '=' then
    match findLong flags (w.drop 2).toString with
    | some f => f.kind != .bool
    | none => true
  else if w.startsWith "-" && !w.contains '=' && w.length == 2 then
    match findShort flags ((w.toList.getD 1 ' ')) with
    | some f => f.kind != .bool
    | none => true
  else false

/-- The words of a command line that are neither flags nor flag values, up to `--`. -/
def bareWords (flags : List Flag) : List String → List String
  | [] => []
  | w :: rest =>
    if w == "--" then []
    else if takesValue flags w then
      match rest with
      | [] | [_] => []
      | _ :: more => bareWords flags more
    else if w != "" && !w.startsWith "-" then w :: bareWords flags rest
    else bareWords flags rest

/-- The words without the first bare occurrence of `x`. -/
def dropWord (flags : List Flag) (x : String) : List String → List String
  | [] => []
  | w :: rest =>
    if w == "--" then w :: rest
    else if takesValue flags w then
      match rest with
      | [] => [w]
      | v :: more => w :: v :: dropWord flags x more
    else if !w.startsWith "-" && w == x then rest
    else w :: dropWord flags x rest

/-- The edit distance of two texts, ignoring ASCII case. -/
def editDistance (a b : String) : Nat :=
  let s := a.toList.map Char.toLower
  let t := b.toList.map Char.toLower
  let first := List.range (t.length + 1)
  let last := s.foldl (fun (prev : List Nat) (c : Char) =>
    let start := prev.headD 0 + 1
    let (row, _) := (t.zip (prev.zip prev.tail)).foldl (fun (row, left) (d, diag, up) =>
      let v := min (min (up + 1) (left + 1)) (diag + if c == d then 0 else 1)
      (row ++ [v], v)) ([start], start)
    row) first
  last.getLastD 0

/-- Whether a command is offered in listings and suggestions. -/
def Command.available (c : Command) : Bool :=
  !c.hidden && c.name != "help" && (c.runnable || c.subcommands.any fun s => !s.hidden)

/-- The subcommands whose names are close to a mistyped word. -/
def Command.suggestions (c : Command) (w : String) : List String :=
  let close (s : Command) : Bool :=
    editDistance w s.name ≤ 2 || (s.name.map Char.toLower).startsWith (w.map Char.toLower)
  (c.subcommands.filter fun s => s.available && close s).map (·.name)

/-- Why a command line names no command. -/
def unknownCommand (l : Lineage) (w : String) : String :=
  let hints := l.command.suggestions w
  "unknown command " ++ Quoted.quote (Bytes.ofString w) ++ " for " ++
    Quoted.quote (Bytes.ofString l.path) ++
    (if hints.isEmpty then ""
     else "\n\nDid you mean this?\n" ++ String.join (hints.map fun h => "\t" ++ h ++ "\n"))

/-- Walk down from a command to the one the words name, with the words left for it. -/
def descend : Nat → Lineage → List String → Lineage × List String
  | 0, l, ws => (l, ws)
  | fuel + 1, l, ws =>
    match bareWords l.declared ws with
    | [] => (l, ws)
    | next :: _ =>
      match l.command.subcommands.find? (·.name == next) with
      | some sub => descend fuel (l ++ [sub]) (dropWord l.declared next ws)
      | none => (l, ws)

/-- The command a command line names, with its words, or why it names none. -/
def find (root : Command) (ws : List String) : Lineage × List String × Option String :=
  let (l, rest) := descend (ws.length + 1) [root] ws
  let c := l.command
  match c.arity, bareWords l.declared rest with
  | .free, w :: _ => if !c.subcommands.isEmpty && l.isRoot then (l, rest, some (unknownCommand l w))
    else (l, rest, none)
  | _, _ => (l, rest, none)

/-- The flags given on a command line and its arguments. -/
structure Parsed where
  /-- Each flag given, by name, with the values given in order. -/
  given : List (String × List String) := []
  args : List String := []
  deriving Inhabited

namespace Parsed

/-- Record a value for a flag. -/
def give (p : Parsed) (f : Flag) (v : String) : Except String Parsed :=
  match f.kind.read v with
  | .error e =>
    .error ("invalid argument " ++ Quoted.quote (Bytes.ofString v) ++ " for " ++
      Quoted.quote (Bytes.ofString f.label) ++ " flag: " ++ e)
  | .ok text =>
    if p.given.any (·.1 == f.name) then
      .ok { p with
        given := p.given.map fun (n, vs) => if n == f.name then (n, vs ++ [text]) else (n, vs) }
    else .ok { p with given := p.given ++ [(f.name, [text])] }

/-- The values given for a flag. -/
def values (p : Parsed) (name : String) : Option (List String) :=
  (p.given.find? (·.1 == name)).map (·.2)

/-- The last value given for a flag. -/
def value? (p : Parsed) (name : String) : Option String := (p.values name).bind List.getLast?

/-- Whether a switch was turned on. -/
def isOn (p : Parsed) (name : String) : Bool := p.value? name == some "true"

end Parsed

/-- Parse a run of short flags sharing one dash, given what follows the dash; an error names
the part of the run not yet read. -/
def parseShorts (flags : List Flag) :
    Nat → List Char → List String → Parsed → Except String (List String × Parsed)
  | 0, _, rest, p => .ok (rest, p)
  | _ + 1, [], rest, p => .ok (rest, p)
  | fuel + 1, c :: more, rest, p =>
    match findShort flags c with
    | none =>
      .error ("unknown shorthand flag: '" ++ c.toString ++ "' in -" ++ String.ofList (c :: more))
    | some f =>
      match more with
      | '=' :: v@(_ :: _) => do pure (rest, ← p.give f (String.ofList v))
      | _ =>
        if f.kind == .bool then do parseShorts flags fuel more rest (← p.give f "true")
        else if !more.isEmpty then do pure (rest, ← p.give f (String.ofList more))
        else match rest with
          | v :: rest' => do pure (rest', ← p.give f v)
          | [] => .error ("flag needs an argument: '" ++ c.toString ++ "' in -" ++ c.toString)

/-- Parse the flags and arguments of a command line. -/
def parseWords (flags : List Flag) : Nat → List String → Parsed → Except String Parsed
  | 0, _, p => .ok p
  | _ + 1, [], p => .ok p
  | fuel + 1, w :: rest, p =>
    if w.length ≤ 1 || !w.startsWith "-" then
      parseWords flags fuel rest { p with args := p.args ++ [w] }
    else if w == "--" then .ok { p with args := p.args ++ rest }
    else if w.startsWith "--" then
      let body := (w.drop 2).toString
      if body.startsWith "-" || body.startsWith "=" then .error ("bad flag syntax: " ++ w)
      else
        let (name, inline) := match body.splitOn "=" with
          | n :: v :: more => (n, some ("=".intercalate (v :: more)))
          | _ => (body, none)
        match findLong flags name with
        | none => .error ("unknown flag: --" ++ name)
        | some f =>
          match inline with
          | some v => do parseWords flags fuel rest (← p.give f v)
          | none =>
            if f.kind == .bool then do parseWords flags fuel rest (← p.give f "true")
            else match rest with
              | v :: rest' => do parseWords flags fuel rest' (← p.give f v)
              | [] => .error ("flag needs an argument: " ++ w)
    else do
      let (rest, p) ← parseShorts flags (w.length + 1) (w.drop 1).toString.toList rest p
      parseWords flags fuel rest p

/-- Parse a command line against the flags of a command. -/
def Lineage.parse (l : Lineage) (ws : List String) : Except String Parsed :=
  parseWords l.allFlags (ws.length + 1) ws {}

/-- Why the arguments do not suit the command, if they do not. -/
def Lineage.checkArgs (l : Lineage) (args : List String) : Option String :=
  match l.command.arity, args with
  | .none, a :: _ =>
    some ("unknown command " ++ Quoted.quote (Bytes.ofString a) ++ " for " ++
      Quoted.quote (Bytes.ofString l.path))
  | .exactly n, _ =>
    if args.length == n then none
    else some ("accepts " ++ toString n ++ " arg(s), received " ++ toString args.length)
  | _, _ => none

end Cli

end TraceSynth
