import ApiConventions.Config.Toml
import ApiConventions.Marker.Registry
import ApiConventions.Report.Severity

/-!
# ApiConventions.Config.Basic

The configuration of an analysis. `Config.ofSetting?` reads it from a configuration value; it
fails on a value of the wrong type, and skips what it does not know. Inside the section of a
rule every other key is an option of that rule.
-/

namespace ApiConventions

/-- The section on the analysis itself. -/
structure AnalyzerConfig where
  /-- Directory to analyse. -/
  root : String := "."
  /-- Globs for what is left out. -/
  exclude : List String := []
  /-- Globs for what is analysed; with none of them, everything is. -/
  included : List String := []
  /-- Whether ignore files count. -/
  respectGitignore : Bool := true
  /-- How many files to analyse at a time. -/
  parallelism : Option UInt64 := none
deriving DecidableEq, Repr

/-- The section of one rule. -/
structure RuleConfig where
  enabled : Option Bool := none
  severity : Option Severity := none
  options : List (String × Setting) := []
deriving Repr

structure Config where
  preset : Option String := none
  /-- The name of the severity at which a run fails. -/
  failOn : Option String := none
  /-- Without a section, the usual directories of dependencies are left out. -/
  analyzer : AnalyzerConfig := { exclude := ["**/vendor/**", "**/node_modules/**"] }
  /-- Further expression markers. -/
  expressionMarkers : List String := []
  rules : List (String × RuleConfig) := []
deriving Repr

/-- `fail_on` names no severity. -/
structure UnknownSeverity where
  name : String
deriving DecidableEq, Repr

def UnknownSeverity.message (e : UnknownSeverity) : String :=
  "Invalid config: unknown fail_on severity \"" ++ e.name ++ "\""

/-! ## Reading -/

def AnalyzerConfig.ofSetting? (s : Setting) : Option AnalyzerConfig :=
  match s.fields? ["root", "exclude", "include", "respect_gitignore", "parallelism"] with
  | none => none
  | some fields =>
    match Setting.field? fields "root" "." Setting.text?,
        Setting.field? fields "exclude" [] Setting.texts?,
        Setting.field? fields "include" [] Setting.texts?,
        Setting.field? fields "respect_gitignore" true Setting.bool?,
        Setting.field? fields "parallelism" none (Setting.nullable? Setting.uint64?) with
    | some root, some exclude, some included, some respectGitignore, some parallelism =>
      some { root, exclude, included, respectGitignore, parallelism }
    | _, _, _, _, _ => none

def severityOfSetting? (s : Setting) : Option Severity :=
  s.word?.bind Severity.ofExactName?

def RuleConfig.ofSetting? : Setting → Option RuleConfig
  | .table entries =>
    let options := entries.filter fun (key, _) => key != "enabled" && key != "severity"
    match Setting.field? entries "enabled" none (Setting.nullable? Setting.bool?),
        Setting.field? entries "severity" none (Setting.nullable? severityOfSetting?) with
    | some enabled, some severity =>
      if Setting.entriesPlain options then some { enabled, severity, options } else none
    | _, _ => none
  | _ => none

/-- The section on markers: the identifiers of further expression markers. -/
def expressionMarkers? (s : Setting) : Option (List String) :=
  (s.fields? ["expression_markers"]).bind fun fields =>
    Setting.field? fields "expression_markers" [] Setting.texts?

def ruleSections? (s : Setting) : Option (List (String × RuleConfig)) :=
  s.table?.bind (·.mapM fun (name, body) => (RuleConfig.ofSetting? body).map (name, ·))

namespace Config

def ofSetting? (s : Setting) : Option Config :=
  let default : Config := {}
  match s.fields? ["preset", "fail_on", "analyzer", "markers", "rules"] with
  | none => none
  | some fields =>
    match Setting.field? fields "preset" none (Setting.nullable? Setting.text?),
        Setting.field? fields "fail_on" none (Setting.nullable? Setting.text?),
        Setting.field? fields "analyzer" default.analyzer AnalyzerConfig.ofSetting?,
        Setting.field? fields "markers" [] expressionMarkers?,
        Setting.field? fields "rules" [] ruleSections? with
    | some preset, some failOn, some analyzer, some expressionMarkers, some rules =>
      some { preset, failOn, analyzer, expressionMarkers, rules }
    | _, _, _, _, _ => none

/-- Reads a configuration from TOML text. -/
def read? (text : String) : Option Config :=
  (Toml.read? text).bind ofSetting?

def ofJson? (j : Json) : Option Config :=
  (Setting.ofJson? j).bind ofSetting?

/-! ## Questions -/

/-- The section of a rule. -/
def section? (c : Config) (rule : String) : Option RuleConfig :=
  c.rules.lookup rule

/-- A rule is enabled unless its section says otherwise. -/
def isEnabled (c : Config) (rule : String) : Bool :=
  ((c.section? rule).bind (·.enabled)).getD true

/-- The severity that the section of a rule sets. -/
def severity? (c : Config) (rule : String) : Option Severity :=
  (c.section? rule).bind (·.severity)

/-- The severity at which a run fails. -/
def threshold (c : Config) : Except UnknownSeverity Severity :=
  match c.failOn with
  | none => .ok .error
  | some name =>
    match Severity.ofName? name with
    | some s => .ok s
    | none => .error ⟨name⟩

/-- The registry with the further expression markers. -/
def registry (c : Config) : Registry :=
  Registry.standard.registerAll c.expressionMarkers

end Config

namespace RuleConfig

def ofJson? (j : Json) : Option RuleConfig :=
  (Setting.ofJson? j).bind ofSetting?

/-- An option, if it is set and can be read. -/
def option? {α : Type} (c : RuleConfig) (key : String) (decode : Setting → Option α) : Option α :=
  (c.options.lookup key).bind decode

/-- An option that is a text, or else a default. -/
def textOr (c : RuleConfig) (key default : String) : String :=
  (c.option? key Setting.text?).getD default

/-- The texts in an option that is a list; everything else in it is skipped. -/
def texts (c : RuleConfig) (key : String) : List String :=
  ((c.option? key Setting.list?).getD []).filterMap Setting.text?

def has (c : RuleConfig) (key : String) : Bool :=
  (c.options.lookup key).isSome

end RuleConfig
end ApiConventions
