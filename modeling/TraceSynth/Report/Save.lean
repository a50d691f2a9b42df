import TraceSynth.Report.Html
import TraceSynth.Files.Tree
import TraceSynth.Time.Strftime
import TraceSynth.Report.Sink

/-!
# Saving reports

Reports are saved into a directory, made with its parents when missing, under names given by
the generation time formatted with a `%` pattern (by default `%Y-%m-%d_%H-%M-%S`) and the
target: `<time>_<target>.yaml` and `.json`, the `_<target>` part left out for an unnamed
target. The dashboard page goes to `<time>_<target>.html`, the underscore always present.

A file that cannot be created stops the saving with the system's message; the paths written
before it are still reported. A JSON encoding failure leaves its file empty.
-/

namespace TraceSynth

namespace Report

/-- The pattern used when none is given. -/
def defaultPattern : String := "%Y-%m-%d_%H-%M-%S"

/-- The pattern, or the default for the empty one. -/
def patternOr (p : String) : String := if p.isEmpty then defaultPattern else p

/-- The forms a report is written in. -/
inductive Format where
  | yaml
  | json
  | table
  | html
  deriving DecidableEq, Inhabited

/-- The form of a name. -/
def Format.ofName? : String → Option Format
  | "yaml" => some .yaml
  | "json" => some .json
  | "table" => some .table
  | "html" => some .html
  | _ => none

/-- Write a report to a writer in a form; failures carry the context each writer gives them. -/
def writeTo (r : Report) (f : Format) (s : Sink) : Except String Sink :=
  match f with
  | .yaml => (s.write (Bytes.ofString r.yamlText)).mapError
      ("failed to encode report: yaml: write error: " ++ ·)
  | .json => match r.jsonText with
    | .ok t => (s.write (Bytes.ofString t)).mapError ("failed to encode report: " ++ ·)
    | .error e => .error ("failed to encode report: " ++ e)
  | .table => s.writeAll r.tablePieces
  | .html => (s.writeAll (Dashboard.pieces r)).mapError ("failed to execute template: " ++ ·)

/-- Create a file and write a text into it. -/
def writeFile (t : FileTree) (path : String) (content : Except String String) :
    FileTree × Except String Unit :=
  match t.create path with
  | .error e => (t, .error ("failed to create " ++ path ++ ": " ++ e.message))
  | .ok t =>
    match content with
    | .ok text => (t.append path (Bytes.ofString text), .ok ())
    | .error e => (t, .error e)

/-- Save a report as YAML and JSON: the tree after, the paths written, and the failure that
stopped the saving, if any. -/
def save (r : Report) (t : FileTree) (dir pattern : String) :
    FileTree × List String × Option String :=
  match t.mkdirAll dir (dir.length + 1) with
  | .error e => (t, [], some ("failed to create report directory: " ++ e.message))
  | .ok t =>
    let base := Strftime.formatText r.generatedAt (patternOr pattern) ++
      (if r.target.isEmpty then "" else "_" ++ r.target)
    let writers : List (String × Except String String) :=
      [(".yaml", .ok r.yamlText),
       (".json", (r.jsonText).mapError ("failed to encode report: " ++ ·))]
    writers.foldl (fun (t, paths, err) (ext, content) =>
      match err with
      | some _ => (t, paths, err)
      | none =>
        let path := Path.join [dir, base ++ ext]
        match writeFile t path content with
        | (t, .ok ()) => (t, paths ++ [path], none)
        | (t, .error e) => (t, paths, some e)) (t, [], none)

/-- Write the dashboard page of a report into a directory: the tree after and the page's path. -/
def saveDashboard (r : Report) (t : FileTree) (dir pattern : String) :
    FileTree × Except String String :=
  match t.mkdirAll dir (dir.length + 1) with
  | .error e => (t, .error ("failed to create output directory: " ++ e.message))
  | .ok t =>
    let name := Strftime.formatText r.generatedAt (patternOr pattern) ++ "_" ++ r.target ++ ".html"
    let path := Path.join [dir, name]
    match writeFile t path (.ok (Dashboard.render r)) with
    | (t, .ok ()) => (t, .ok path)
    | (t, .error e) => (t, .error e)

end Report

end TraceSynth
