/-!
# Slash-separated paths

Lexical path handling: `clean` gives the shortest equivalent path by collapsing repeated
slashes, dropping `.` elements and cancelling each `..` against the element before it (a `..`
at the start of a rooted path is dropped, one at the start of a relative path is kept); the
empty path is `.`. `join` joins the non-empty elements with slashes and cleans the result.
`split` cuts a path after its last slash.
-/

namespace TraceSynth

namespace Path

/-- The elements of a path between slashes, empty ones included. -/
def elements (p : String) : List String := p.splitOn "/"

/-- Push an element onto the stack of a cleaned path (innermost first). -/
def pushElement (rooted : Bool) (stack : List String) (e : String) : List String :=
  if e == "" || e == "." then stack
  else if e == ".." then
    match stack with
    | top :: rest => if top == ".." then e :: stack else rest
    | [] => if rooted then [] else [e]
  else e :: stack

/-- The shortest path equivalent to `p` by lexical processing alone. -/
def clean (p : String) : String :=
  let rooted := p.startsWith "/"
  let stack := (elements p).foldl (pushElement rooted) []
  let body := "/".intercalate stack.reverse
  if rooted then "/" ++ body
  else if body.isEmpty then "."
  else body

/-- Join path elements with slashes, ignoring empty ones, and clean the result; all empty gives
the empty path. -/
def join (parts : List String) : String :=
  match parts.filter (· != "") with
  | [] => ""
  | ps => clean ("/".intercalate ps)

/-- A path cut after its last slash: the directory (with the slash) and the final element. -/
def split (p : String) : String × String :=
  let cs := p.toList
  let file := (cs.reverse.takeWhile (· != '/')).reverse
  (String.ofList (cs.take (cs.length - file.length)), String.ofList file)

/-- Whether a path is rooted. -/
def isAbsolute (p : String) : Bool := p.startsWith "/"

end Path

end TraceSynth
