import ApiConventions.CommandLine.Output
import ApiConventions.CommandLine.Starter
import ApiConventions.Discovery

/-!
# ApiConventions.CommandLine.Run

What an invocation does to the files, prints and answers. A check loads its configuration, then
selects rules, then reads globs, then analyses; the first of these that fails decides the error.
-/

namespace ApiConventions
namespace CommandLine

/-- What a run can see of the world around it. -/
structure Surroundings where
  files : FileSystem
  /-- The environment variables that are set. -/
  environment : List (String × String)

/-- What comes of a run. -/
structure Outcome where
  exitCode : UInt32 := 0
  output : String := ""
  error : Option String := none
  files : FileSystem

/-- Why a command fails. -/
inductive Failure where
  | configuration (path : String)
  | threshold
  | preset (name : String)
  | noRules
  | globs
  | analysis (cause : AnalysisError)
  | alreadyThere (path : String)
  | unwritable (path : String)
deriving DecidableEq, Repr

def Failure.message : Failure → String
  | .configuration path => s!"Failed to load config: {path}"
  | .threshold => "Invalid fail_on in configuration"
  | .preset name => "Unknown preset \"" ++ name ++ "\""
  | .noRules => "No rules selected"
  | .globs => "Failed to build analyzer"
  | .analysis _ => "Analysis failed"
  | .alreadyThere path =>
    s!"Configuration file already exists at {path}. Use --force to overwrite."
  | .unwritable path => s!"Failed to write {path}"

/-! ## Configuration -/

/-- Names of the configuration file of a project, in the order in which they are looked for. -/
def projectConfigNames : List String :=
  ["api-lint.toml", ".api-lint.toml"]

/-- The directory of the configuration that all projects share. -/
def sharedConfigDirectory? (s : Surroundings) : Option String :=
  (s.environment.lookup "API_LINT_CONFIG_DIR").or
    ((s.environment.lookup "HOME").map (Path.join · ".api-lint"))

/-- The configuration files that are looked for when none is named. -/
def configCandidates (s : Surroundings) (path : String) : List String :=
  projectConfigNames.map (Path.join path) ++
    (sharedConfigDirectory? s).toList.map (Path.join · "config.toml")

/-- The path of the configuration, which has to exist only if it is not named. -/
def configPath? (s : Surroundings) (given : Option String) (path : String) : Option String :=
  given.or ((configCandidates s path).find? s.files.hasFile)

def loadConfig (s : Surroundings) (given : Option String) (path : String) :
    Except Failure Config :=
  match configPath? s given path with
  | none => .ok {}
  | some file =>
    match (s.files.read? file).bind Config.read? with
    | some config => .ok config
    | none => .error (.configuration file)

/-! ## Commands -/

section Commands

variable [RegexLibrary]

/-- The names in a list with commas, without the blanks around them. -/
def requestedNames (list : String) : List String :=
  ((Text.fieldsOf ',' list).map Text.trimmed).filter (!·.isEmpty)

/-- The rules that a check runs: those it asks for, or those of the configuration. -/
def rulesFor (config : Config) (requested : Option String) : Except Failure (List Rule) :=
  match requested with
  | some list => .ok (config.rulesNamed (requestedNames list))
  | none =>
    match config.selectedRules? with
    | some rules => .ok rules
    | none => .error (.preset (config.preset.getD ""))

/-- The report of a check, and whether it passes. -/
def check (s : Surroundings) (given : Option String) (request : CheckRequest) :
    Except Failure (Report × Bool) :=
  match loadConfig s given request.path with
  | .error failure => .error failure
  | .ok config =>
    match config.threshold, rulesFor config request.rules with
    | .error _, _ => .error .threshold
    | .ok _, .error failure => .error failure
    | .ok _, .ok [] => .error .noRules
    | .ok threshold, .ok rules =>
      match FileFilter.ofConfig? config request.exclude [] with
      | none => .error .globs
      | some filter =>
        match (Analysis.ofConfig config rules).runDirectory s.files request.path filter false with
        | .error cause => .error (.analysis cause)
        | .ok report => .ok (report, !report.hasAtLeast threshold)

/-- Path of the configuration file that is written to start from. -/
def starterPath : String := "./api-lint.toml"

/-- Writes a configuration file to start from, over an older one only by force. -/
def init (files : FileSystem) (force : Bool) : Except Failure FileSystem :=
  let place := files.workingDirectory ++ ["api-lint.toml"]
  if files.isDirectory place then
    .error (if force then .unwritable starterPath else .alreadyThere starterPath)
  else if files.isFile place && !force then .error (.alreadyThere starterPath)
  else .ok (files.write place starterConfig)

def initOutput : String :=
  unlines
    ["Created " ++ starterPath, "", "Next steps:", "  1. Edit api-lint.toml to configure rules",
      "  2. Run: api-lint check"]

def failed (files : FileSystem) (failure : Failure) : Outcome :=
  { exitCode := 1, error := some failure.message, files }

/-- Carries out an invocation. -/
def runInvocation (s : Surroundings) (i : Invocation) : Outcome :=
  match i.command with
  | .listRules => { output := ruleListing, files := s.files }
  | .init force =>
    match init s.files force with
    | .error failure => failed s.files failure
    | .ok files => { output := initOutput, files }
  | .check request =>
    match check s i.config request with
    | .error failure => failed s.files failure
    | .ok (report, passes) =>
      { exitCode := if passes then 0 else 1
        output := report.render request.format
        files := s.files }

/-- Carries out a command line. One that is no invocation is refused with exit code 2. -/
def run (s : Surroundings) (args : List String) : Outcome :=
  match invocation? (s.environment.lookup "API_LINT_CONFIG") args with
  | some i => runInvocation s i
  | none => { exitCode := 2, files := s.files }

end Commands

end CommandLine
end ApiConventions
