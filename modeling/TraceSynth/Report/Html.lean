import TraceSynth.Report.Basic

/-!
# The dashboard page

A report as one static HTML page: the target and description, the run and when it was
generated, the score (marked exact or approximate), the counters, a table of the phases when
there are any, and the program. Every inserted text is escaped for HTML: `<`, `>`, `&`, both
quotes and `+` become character references, and a NUL byte the replacement character.

The page is produced as the pieces a template writes one after another.
-/

namespace TraceSynth

namespace Dashboard

/-- Text escaped for HTML. -/
def escape (s : String) : String :=
  String.join (s.toList.map fun c => match c with
    | '<' => "&lt;"
    | '>' => "&gt;"
    | '&' => "&amp;"
    | '"' => "&#34;"
    | '\'' => "&#39;"
    | '+' => "&#43;"
    | '\x00' => "\uFFFD"
    | c => String.singleton c)

/-- Template text. -/
def pageHead : String :=
  "<!DOCTYPE html>\n<html lang=\"en\">\n<head>\n    <meta charset=\"UTF-8\">\n    <title>"

/-- Template text. -/
def pageStyle : String :=
  " - Akaylee Mimic</title>\n" ++
  "    <style>\n" ++
  "        body \x7b font-family: 'Segoe UI', Tahoma, Geneva, Verdana, sans-serif; " ++
  "background: #f4f5fb; color: #333; \x7d\n" ++
  "        .container \x7b max-width: 1100px; margin: 0 auto; padding: 20px; \x7d\n" ++
  "        .card \x7b background: #fff; border-radius: 12px; padding: 20px; margin-bottom: " ++
  "20px; box-shadow: 0 4px 16px rgba(0, 0, 0, 0.08); \x7d\n" ++
  "        .exact \x7b color: #2f855a; \x7d\n" ++
  "        .approx \x7b color: #c05621; \x7d\n" ++
  "        table \x7b border-collapse: collapse; width: 100%; \x7d\n" ++
  "        th, td \x7b text-align: left; padding: 6px 10px; border-bottom: 1px solid " ++
  "#e2e8f0; \x7d\n" ++
  "        pre \x7b background: #1a202c; color: #e2e8f0; padding: 16px; border-radius: 8px; " ++
  "overflow-x: auto; \x7d\n" ++
  "    </style>\n" ++
  "</head>\n" ++
  "<body>\n" ++
  "<div class=\"container\">\n" ++
  "    <div class=\"card\">\n" ++
  "        <h1>"

/-- Template text. -/
def afterTitle : String :=
  "</h1>\n        "

/-- Template text. -/
def afterDescription : String :=
  "\n        <p>Run "

/-- Template text. -/
def afterRun : String :=
  " generated "

/-- Template text. -/
def afterStamp : String :=
  "</p>\n        <h2 class=\""

/-- Template text. -/
def afterClass : String :=
  "\">Score "

/-- Template text. -/
def afterScore : String :=
  "</h2>\n    </div>\n    <div class=\"card\">\n        <table>\n" ++
    "            <tr><th>Inputs</th><td>"

/-- Template text. -/
def afterInputs : String :=
  "</td></tr>\n            <tr><th>Categories</th><td>"

/-- Template text. -/
def afterCategories : String :=
  "</td></tr>\n            <tr><th>Proposals</th><td>"

/-- Template text. -/
def afterProposals : String :=
  "</td></tr>\n            <tr><th>Iterations</th><td>"

/-- Template text. -/
def afterIterations : String :=
  "</td></tr>\n            <tr><th>Executions</th><td>"

/-- Template text. -/
def afterExecutions : String :=
  "</td></tr>\n            <tr><th>Elapsed</th><td>"

/-- Template text. -/
def afterElapsed : String :=
  "</td></tr>\n        </table>\n    </div>\n    "

/-- Template text. -/
def phasesHead : String :=
  "\n" ++
  "    <div class=\"card\">\n" ++
  "        <table>\n" ++
  "            <tr><th>Phase</th><th>Inputs</th><th>Iterations</th>" ++
  "<th>Executions</th><th>Score</th><th>Elapsed</th></tr>\n" ++
  "            "

/-- Template text. -/
def rowStart : String :=
  "\n            <tr><td>"

/-- Template text. -/
def cell : String :=
  "</td><td>"

/-- Template text. -/
def rowEnd : String :=
  "</td></tr>\n            "

/-- Template text. -/
def phasesTail : String :=
  "\n        </table>\n    </div>\n    "

/-- Template text. -/
def programHead : String :=
  "\n    <div class=\"card\">\n        <pre>"

/-- Template text. -/
def pageTail : String :=
  "</pre>\n    </div>\n</div>\n</body>\n</html>\n"

/-- The pieces of one phase row. -/
def phaseRow (p : PhaseStats) : List String :=
  [rowStart, escape p.phase, cell, toString p.inputs, cell, toString p.iterations, cell,
    toString p.executions, cell, escape (Binary64.fixed p.score 4), cell, escape p.elapsed.text,
    rowEnd]

/-- The pieces of the page of a report, in the order they are written. -/
def pieces (r : Report) : List String :=
  [pageHead, escape r.target, pageStyle, escape r.target, afterTitle] ++
    (if r.description.isEmpty then [] else ["<p>", escape r.description, "</p>"]) ++
    [afterDescription, escape r.runId, afterRun,
      escape (r.generatedAt.dateText ++ " " ++ r.generatedAt.timeText), afterStamp,
      if r.exact then "exact" else "approx", afterClass, escape (Binary64.fixed r.score 4),
      afterScore, toString r.inputs, afterInputs, toString r.categories, afterCategories,
      toString r.proposals, afterProposals, toString r.iterations, afterIterations,
      toString r.executions, afterExecutions, escape r.elapsed, afterElapsed] ++
    (if r.phases.isEmpty then [] else
      [phasesHead] ++ r.phases.flatMap phaseRow ++ [phasesTail]) ++
    [programHead, escape r.program, pageTail]

/-- The page of a report. -/
def render (r : Report) : String := String.join (pieces r)

end Dashboard

end TraceSynth
