import TraceSynth.Files.Path
import TraceSynth.Files.Pattern
import TraceSynth.Text.Bytes

/-!
# A file tree

A working directory holding directories and files, addressed by relative paths or by absolute
paths under the directory's own absolute name. The operations follow the usual system calls and
fail with their error numbers:

* a path through a file is `not a directory`, a missing step `no such file or directory`;
* making a directory that exists is `file exists`;
* creating a file over a directory is `is a directory`;
* removing a directory with entries is `directory not empty`;
* a name of more than 255 bytes, once the walk reaches it, is `file name too long`;
* a path holding a NUL byte is refused before anything is looked at, `invalid argument`.

`mkdirAll` makes a directory and its missing parents, `glob` lists the paths matching a
pattern (its directory part may itself be a pattern) in sorted order, and `listing` walks the whole tree in byte order of paths.
-/

namespace TraceSynth

/-- An entry of a file tree. -/
inductive FileNode where
  | dir
  | file (content : Bytes)
  deriving Inhabited

/-- Why a file operation failed. -/
inductive Errno where
  | noEntry
  | notDir
  | isDir
  | exists
  | notEmpty
  | nameTooLong
  | invalid
  deriving DecidableEq, Inhabited, Repr

/-- The text of an error number. -/
def Errno.text : Errno → String
  | .noEntry => "no such file or directory"
  | .notDir => "not a directory"
  | .isDir => "is a directory"
  | .exists => "file exists"
  | .notEmpty => "directory not empty"
  | .nameTooLong => "file name too long"
  | .invalid => "invalid argument"

/-- A failed operation on a path. -/
structure PathError where
  op : String
  path : String
  errno : Errno
  deriving Inhabited

/-- The message of a failed operation: `op path: error`. -/
def PathError.message (e : PathError) : String := e.op ++ " " ++ e.path ++ ": " ++ e.errno.text

/-- A working directory and what it holds. -/
structure FileTree where
  /-- The absolute name of the working directory. -/
  root : String
  /-- The entries by cleaned relative path, the directory itself excluded. -/
  nodes : List (String × FileNode) := []
  deriving Inhabited

namespace FileTree

/-- The relative path of a path inside the tree, `.` for the directory itself; none outside. -/
def locate (t : FileTree) (p : String) : Option String :=
  let rel := if p == t.root then some "."
    else if p.startsWith (t.root ++ "/") then some ((p.drop (t.root.length + 1)).toString)
    else if Path.isAbsolute p then none
    else some p
  rel.bind fun r =>
    let c := Path.clean r
    if c == ".." || c.startsWith "../" then none else some c

/-- The entry at a cleaned relative path. -/
def entry? (t : FileTree) (rel : String) : Option FileNode :=
  if rel == "." then some .dir else (t.nodes.find? (·.1 == rel)).map (·.2)

/-- The proper ancestors of a cleaned relative path, outermost first. -/
def ancestors (rel : String) : List String :=
  let parts := if rel == "." then [] else rel.splitOn "/"
  (List.range (parts.length - 1)).map fun i => "/".intercalate (parts.take (i + 1))

/-- Whether the last name of a cleaned relative path is longer than a name may be. -/
def nameTooLong (rel : String) : Bool :=
  ((rel.splitOn "/").getLastD "").utf8ByteSize > 255

/-- Whether a path holds a NUL byte, which no system call accepts. -/
def hasNul (p : String) : Bool := p.contains '\x00'

/-- Walk to a path: its entry, or why it cannot be reached. -/
def lookup (t : FileTree) (p : String) : Except Errno FileNode :=
  if hasNul p then .error .invalid else
  match t.locate p with
  | none => .error .noEntry
  | some rel => do
    for a in ancestors rel do
      if nameTooLong a then throw .nameTooLong
      match t.entry? a with
      | some .dir => pure ()
      | some (.file _) => throw .notDir
      | none => throw .noEntry
    if nameTooLong rel then throw .nameTooLong
    match t.entry? rel with
    | some n => pure n
    | none => throw .noEntry

/-- Whether a path is a directory. -/
def isDir (t : FileTree) (p : String) : Bool :=
  match t.lookup p with
  | .ok .dir => true
  | _ => false

/-- The parent of a path: everything before its last element. -/
def parentOf (p : String) : String :=
  let (dir, _) := Path.split p
  if dir.isEmpty then "." else dir

/-- Set the entry of a relative path. -/
def put (t : FileTree) (rel : String) (n : FileNode) : FileTree :=
  if t.nodes.any (·.1 == rel) then
    { t with nodes := t.nodes.map fun (k, v) => if k == rel then (k, n) else (k, v) }
  else { t with nodes := t.nodes ++ [(rel, n)] }

/-- Make a directory whose parent exists. -/
def mkdir (t : FileTree) (p : String) : Except PathError FileTree :=
  let fail (e : Errno) : Except PathError FileTree :=
    .error { op := "mkdir", path := p, errno := e }
  if hasNul p then fail .invalid else
  match t.locate p with
  | none => fail .noEntry
  | some rel =>
    match t.lookup (parentOf p) with
    | .error e => fail e
    | .ok (.file _) => fail .notDir
    | .ok .dir =>
      if nameTooLong rel then fail .nameTooLong else
      match t.entry? rel with
      | some _ => fail .exists
      | none => .ok (t.put rel .dir)

/-- Make a directory and its missing parents; an existing directory is fine. -/
def mkdirAll (t : FileTree) (p : String) : Nat → Except PathError FileTree
  | 0 => .ok t
  | fuel + 1 =>
    match t.lookup p with
    | .ok .dir => .ok t
    | .ok (.file _) => .error { op := "mkdir", path := p, errno := .notDir }
    | .error _ =>
      let cs := p.toList
      let trimmed := (cs.reverse.dropWhile (· == '/')).reverse
      let parent := (trimmed.reverse.dropWhile (· != '/')).reverse
      let parent := if parent.isEmpty then [] else parent.dropLast
      let parentText := String.ofList parent
      let step : Except PathError FileTree :=
        if parent.isEmpty then .ok t else mkdirAll t parentText fuel
      match step with
      | .error e => .error e
      | .ok t' =>
        match t'.mkdir p with
        | .ok t'' => .ok t''
        | .error e => if t'.isDir p then .ok t' else .error e

/-- Create or empty a file. -/
def create (t : FileTree) (p : String) : Except PathError FileTree :=
  let fail (e : Errno) : Except PathError FileTree := .error { op := "open", path := p, errno := e }
  if hasNul p then fail .invalid else
  match t.locate p with
  | none => fail .noEntry
  | some rel =>
    match t.lookup (parentOf p) with
    | .error e => fail e
    | .ok (.file _) => fail .notDir
    | .ok .dir =>
      if nameTooLong rel then fail .nameTooLong else
      match t.entry? rel with
      | some .dir => fail .isDir
      | _ => .ok (t.put rel (.file Bytes.empty))

/-- Open a file for appending, creating it when missing. -/
def openAppend (t : FileTree) (p : String) : Except PathError FileTree :=
  match t.locate p with
  | some rel =>
    match t.entry? rel, t.lookup p with
    | some (.file _), .ok _ => .ok t
    | _, _ => t.create p
  | none => t.create p

/-- Append to a file that exists. -/
def append (t : FileTree) (p : String) (b : Bytes) : FileTree :=
  match t.locate p with
  | some rel =>
    match t.entry? rel with
    | some (.file c) => t.put rel (.file (c ++ b))
    | _ => t
  | none => t

/-- The content of a file. -/
def read? (t : FileTree) (p : String) : Option Bytes :=
  match t.lookup p with
  | .ok (.file c) => some c
  | _ => none

/-- The content of a file, or why it cannot be read. -/
def readFile (t : FileTree) (p : String) : Except PathError Bytes :=
  match t.lookup p with
  | .ok (.file c) => .ok c
  | .ok .dir => .error { op := "read", path := p, errno := .isDir }
  | .error e => .error { op := "open", path := p, errno := e }

/-- The names directly inside a directory, sorted. -/
def children (t : FileTree) (rel : String) : List String :=
  let pre := if rel == "." then "" else rel ++ "/"
  let names := t.nodes.filterMap fun (k, _) =>
    if k.startsWith pre then
      let rest := (k.drop pre.length).toString
      if rest.isEmpty || rest.contains '/' then none else some rest
    else none
  names.mergeSort fun a b => !(Bytes.ofString b < Bytes.ofString a)

/-- Remove a file or an empty directory. -/
def remove (t : FileTree) (p : String) : Except PathError FileTree :=
  let fail (e : Errno) : Except PathError FileTree :=
    .error { op := "remove", path := p, errno := e }
  match t.lookup p, t.locate p with
  | .error e, _ => fail e
  | .ok _, none => fail .noEntry
  | .ok n, some rel =>
    match n with
    | .dir => if !(t.children rel).isEmpty then fail .notEmpty
      else .ok { t with nodes := t.nodes.filter (·.1 != rel) }
    | .file _ => .ok { t with nodes := t.nodes.filter (·.1 != rel) }

/-- The paths in a directory whose names match a pattern, joined to the directory. -/
def globIn (t : FileTree) (dir pattern : String) : Except String (List String) :=
  match t.lookup dir, t.locate dir with
  | .ok .dir, some rel =>
    (t.children rel).foldlM (fun acc n => do
      if ← Pattern.accepts? pattern n then pure (acc ++ [Path.join [dir, n]]) else pure acc) []
  | _, _ => .ok []

/-- The paths matching a pattern, with at most `fuel` levels of directory patterns: a
directory part with pattern characters is matched first, and the last element is then
matched in each directory it gives. Each level's directory part is shorter than its pattern,
so the pattern's length in fuel is enough. -/
def globUpTo (t : FileTree) : Nat → String → Except String (List String)
  | 0, _ => throw Pattern.badPattern
  | fuel + 1, pattern => do
    let _ ← Pattern.accepts? pattern ""
    if !Pattern.hasMeta pattern then
      return (match t.lookup pattern with
        | .ok _ => [pattern]
        | .error _ => [])
    let (dir, file) := Path.split pattern
    let dir := if dir.isEmpty then "." else if dir == "/" then dir else (dir.dropEnd 1).toString
    if !Pattern.hasMeta dir then t.globIn dir file
    else if dir == pattern then throw Pattern.badPattern
    else
      let dirs ← t.globUpTo fuel dir
      dirs.foldlM (fun acc d => do pure (acc ++ (← t.globIn d file))) []

/-- The paths matching a pattern, in sorted order within each matched directory. -/
def glob (t : FileTree) (pattern : String) : Except String (List String) :=
  t.globUpTo (pattern.length + 1) pattern

/-- Every entry, directories with a trailing slash, in byte order of their names. -/
def listing (t : FileTree) : List (String × Option Bytes) :=
  let named := t.nodes.map fun (k, n) => match n with
    | .dir => (k ++ "/", none)
    | .file c => (k, some c)
  named.mergeSort fun a b => !(Bytes.ofString b.1 < Bytes.ofString a.1)

/-- Put files and directories in place, making parents as needed. -/
def seed (t : FileTree) (entries : List (String × Option Bytes)) : FileTree :=
  entries.foldl (fun t (name, content) =>
    match t.locate name with
    | none => t
    | some rel =>
      let t := (ancestors rel).foldl (fun t a => if (t.entry? a).isSome then t else t.put a .dir) t
      match content with
      | some c => t.put rel (.file c)
      | none => if (t.entry? rel).isSome then t else t.put rel .dir) t

end FileTree

end TraceSynth
