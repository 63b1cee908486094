import ApiConventions.Report.Basic
import ApiConventions.Rule.Selection

/-!
# ApiConventions.Analysis

Running rules over a program. Every file is checked by every rule that the configuration does
not disable, and a severity in the section of a rule replaces the rule's own. The report is in
order of place.
-/

namespace ApiConventions

/-- The rules of an analysis and what they run under. -/
structure Analysis where
  rules : List Rule
  config : Config
  registry : Registry

namespace Analysis

/-- The analysis under a configuration, with the markers that are registered there. -/
def ofConfig (config : Config) (rules : List Rule) : Analysis :=
  { rules, config, registry := config.registry }

/-- A violation with the severity that the configuration sets for its rule. -/
def adjust (a : Analysis) (r : Rule) (v : Violation) : Violation :=
  { v with severity := (a.config.severity? r.name).getD v.severity }

/-- The violations of one rule in a file. -/
def runRule (a : Analysis) (ctx : FileContext) (r : Rule) : List Violation :=
  if a.config.isEnabled r.name then (r.run ctx).map (a.adjust r) else []

/-- The violations in a file, rule by rule. -/
def runFile (a : Analysis) (ctx : FileContext) : List Violation :=
  a.rules.flatMap (a.runRule ctx)

/-- The files of a program, each with its package. -/
def contexts (a : Analysis) (program : Program) : List FileContext :=
  program.packages.flatMap fun package =>
    package.files.map fun file => { program, package, file, registry := a.registry }

/-- The report on a program. -/
def run (a : Analysis) (program : Program) : Report :=
  let contexts := a.contexts program
  Report.sort { violations := contexts.flatMap a.runFile, filesChecked := contexts.length }

end Analysis
end ApiConventions
