import ApiConventions.CommandLine.Arguments
import ApiConventions.Json.Writer
import ApiConventions.Report.Basic
import ApiConventions.Rule.Basic

/-!
# ApiConventions.CommandLine.Output

What the commands print: a report in one of three formats, and the list of rules. Colours are
ANSI escape sequences.
-/

namespace ApiConventions

/-- The colours of the text format. -/
inductive Colour where
  | red
  | green
  | yellow
  | blue
deriving DecidableEq, Repr

def Colour.code : Colour → String
  | .red => "\x1b[31m"
  | .green => "\x1b[32m"
  | .yellow => "\x1b[33m"
  | .blue => "\x1b[34m"

def Colour.paint (c : Colour) (text : String) : String :=
  c.code ++ text ++ "\x1b[0m"

def Severity.colour : Severity → Colour
  | .error => .red
  | .warning => .yellow
  | .info => .blue

/-- The text of lines, each with its end. -/
def unlines (lines : List String) : String :=
  String.join (lines.map (· ++ "\n"))

namespace Violation

/-- The violation in the text format, with an empty line at the end. -/
def paragraph (v : Violation) : List String :=
  let label := v.severity.colour.paint v.severity.name
  [v.code ++ " " ++ v.rule ++ " at " ++ v.location.text, "  " ++ label ++ ": " ++ v.message] ++
    v.fact.toList.map ("  = note: " ++ ·) ++ v.suggestion.toList.map ("  = help: " ++ ·) ++ [""]

end Violation

namespace Report

/-- The colour of the worst severity that is worth one. -/
def colour (r : Report) : Colour :=
  if 0 < r.count .error then .red
  else if 0 < r.count .warning then .yellow
  else .green

def summary (r : Report) : String :=
  let errors := toString (r.count .error)
  let warnings := toString (r.count .warning)
  let infos := toString (r.count .info)
  let files := toString r.filesChecked
  r.colour.paint
    s!"Found {errors} error(s), {warnings} warning(s), {infos} info(s) in {files} file(s)"

/-- The report in a format. -/
def render (r : Report) : OutputFormat → String
  | .text => unlines (r.violations.flatMap (·.paragraph) ++ [r.summary])
  | .json => r.toJson.pretty ++ "\n"
  | .compact => unlines (r.violations.map (·.text))

end Report

/-- A text with blanks after it, up to a width. -/
def padTo (width : Nat) (text : String) : String :=
  text ++ String.ofList (List.replicate (width - text.length) ' ')

namespace RuleId

/-- The line of a rule in the list of rules. -/
def listing (id : RuleId) : String :=
  padTo 8 id.code ++ " " ++ padTo 20 id.name ++ " " ++ id.defaultSeverity.name ++ " " ++
    id.description

end RuleId

namespace Preset

/-- The line of a preset in the list of rules. -/
def listing (p : Preset) : String :=
  "  " ++ padTo 12 p.name ++ " " ++ String.intercalate ", " (p.rules.map (·.name)) ++
    (if p = .recommended then " (default)" else "")

end Preset

/-- The list of rules and presets. -/
def ruleListing : String :=
  let heading := padTo 8 "Code" ++ " " ++ padTo 20 "Name" ++ " " ++ padTo 8 "Severity" ++
    " Description"
  unlines
    (["Available rules:", "", heading, String.ofList (List.replicate 80 '-')] ++
      RuleId.all.map (·.listing) ++ ["", "Presets:"] ++ Preset.all.map (·.listing) ++
      ["", "Use --rules to filter specific rules, e.g.:",
        "  api-lint check --rules nomaps,ssatags", "  api-lint check --rules KAL003,KAL007"])

end ApiConventions
