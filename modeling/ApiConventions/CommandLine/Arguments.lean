/-!
# ApiConventions.CommandLine.Arguments

The grammar of the command line. An option has a long name, and may have a short one of a single
letter. Short options can be written in one cluster, of which only the last takes a value. The
value of an option is the next argument, or follows a `=` or, in a cluster, the letter. After
`--` every argument is an operand.

Options before the command belong to the program, and those after it to the command. What does
not fit is no invocation at all.
-/

namespace ApiConventions

inductive OutputFormat where
  | text
  | json
  | compact
deriving DecidableEq, Repr

def OutputFormat.ofName? : String → Option OutputFormat
  | "text" => some .text
  | "json" => some .json
  | "compact" => some .compact
  | _ => none

/-- What a check is asked to do. -/
structure CheckRequest where
  path : String := "."
  format : OutputFormat := .text
  /-- Names and codes of rules, separated by commas. -/
  rules : Option String := none
  /-- Further globs for what is left out. -/
  exclude : List String := []
deriving DecidableEq, Repr

inductive Command where
  | check (request : CheckRequest)
  | listRules
  | init (force : Bool)
deriving DecidableEq, Repr

structure Invocation where
  verbose : Bool
  /-- The configuration file that is named on the command line or by the environment. -/
  config : Option String
  command : Command
deriving DecidableEq, Repr

namespace CommandLine

/-- An option that can be given. -/
structure OptionSpec where
  name : String
  short : Option Char := none
  takesValue : Bool := false
  /-- Whether it can be given more than once. -/
  isRepeatable : Bool := false

/-- One part of a command line. -/
inductive Item where
  | option (name value : String)
  | operand (value : String)
deriving DecidableEq, Repr

/-- Options in one argument, and the option that takes the next argument as its value. -/
structure Cluster where
  items : List Item
  pending : Option String

/-- The options of a cluster of letters. -/
def cluster? (specs : List OptionSpec) : List Char → Option Cluster
  | [] => some ⟨[], none⟩
  | c :: rest =>
    match specs.find? (·.short == some c) with
    | none => none
    | some spec =>
      if spec.takesValue then
        match rest with
        | [] => some ⟨[], some spec.name⟩
        | '=' :: value => some ⟨[.option spec.name (String.ofList value)], none⟩
        | value => some ⟨[.option spec.name (String.ofList value)], none⟩
      else (cluster? specs rest).map fun c => { c with items := .option spec.name "" :: c.items }

/-- The option of a long name, after which a value may be attached. -/
def long? (specs : List OptionSpec) (body : List Char) : Option Cluster :=
  let (name, value) := body.span (· != '=')
  match specs.find? (·.name.toList == name), value with
  | none, _ => none
  | some spec, '=' :: value =>
    if spec.takesValue then some ⟨[.option spec.name (String.ofList value)], none⟩ else none
  | some spec, _ =>
    if spec.takesValue then some ⟨[], some spec.name⟩ else some ⟨[.option spec.name ""], none⟩

/-- Whether an argument is an option and thus no value of one. -/
def isOption (arg : String) : Bool :=
  arg.toList.head? == some '-' && arg != "-"

/-- The options of an argument that is an option. -/
def optionArgument? (specs : List OptionSpec) (arg : String) : Option Cluster :=
  match arg.toList with
  | '-' :: '-' :: body => long? specs body
  | '-' :: body => cluster? specs body
  | _ => none

/-- The items up to an argument that `stops` holds of, and the arguments from there on. -/
def items? (specs : List OptionSpec) (stops : String → Bool) :
    List String → Option (List Item × List String)
  | [] => some ([], [])
  | arg :: rest =>
    if stops arg then some ([], arg :: rest)
    else if arg = "--" then some (rest.map .operand, [])
    else if !isOption arg then
      (items? specs stops rest).map fun (items, rest) => (.operand arg :: items, rest)
    else
      match optionArgument? specs arg with
      | none => none
      | some ⟨found, none⟩ =>
        (items? specs stops rest).map fun (items, rest) => (found ++ items, rest)
      | some ⟨found, some name⟩ =>
        match rest with
        | [] => none
        | value :: rest =>
          if isOption value then none
          else
            (items? specs stops rest).map fun (items, rest) =>
              (found ++ .option name value :: items, rest)

/-- The values of an option, in order. -/
def valuesOf (items : List Item) (name : String) : List String :=
  items.filterMap fun
    | .option n value => if n = name then some value else none
    | .operand _ => none

def operands (items : List Item) : List String :=
  items.filterMap fun
    | .option _ _ => none
    | .operand value => some value

/-- No option is given more often than it can be. -/
def respects (specs : List OptionSpec) (items : List Item) : Bool :=
  specs.all fun spec => spec.isRepeatable || (valuesOf items spec.name).length ≤ 1

/-! ## The program -/

/-- Options of the program, which its commands take as well. -/
def programSpecs : List OptionSpec :=
  [{ name := "verbose", short := some 'v' },
   { name := "config", short := some 'c', takesValue := true }]

def checkSpecs : List OptionSpec :=
  [{ name := "format", short := some 'f', takesValue := true },
   { name := "rules", takesValue := true },
   { name := "exclude", short := some 'e', takesValue := true, isRepeatable := true }]

def initSpecs : List OptionSpec :=
  [{ name := "force" }]

/-- The options of a command, if there is such a command. -/
def commandSpecs? : String → Option (List OptionSpec)
  | "check" => some checkSpecs
  | "list-rules" => some []
  | "init" => some initSpecs
  | _ => none

/-- The operand of a check: at most one path, which is not empty. -/
def pathOperand? : List String → Option String
  | [] => some "."
  | [path] => if path.isEmpty then none else some path
  | _ => none

def checkRequest? (items : List Item) : Option CheckRequest :=
  let format? := match valuesOf items "format" with
    | name :: _ => OutputFormat.ofName? name
    | [] => some .text
  match pathOperand? (operands items), format? with
  | some path, some format =>
    some
      { path
        format
        rules := (valuesOf items "rules").head?
        exclude := valuesOf items "exclude" }
  | _, _ => none

def command? (name : String) (items : List Item) : Option Command :=
  match name with
  | "check" => (checkRequest? items).map .check
  | "list-rules" => if (operands items).isEmpty then some .listRules else none
  | "init" =>
    if (operands items).isEmpty then some (.init (!(valuesOf items "force").isEmpty)) else none
  | _ => none

/--
Whether a part of the command line names the empty configuration file, by itself or by leaving
it to the environment.
-/
def namesEmptyConfig (environment : Option String) (items : List Item) : Bool :=
  ((valuesOf items "config").head?).or environment == some ""

/-- Whether the options in front of a command and after it can stand there. -/
def areValid (environment : Option String) (specs : List OptionSpec) (outer inner : List Item) :
    Bool :=
  (operands outer).isEmpty && respects programSpecs outer && respects specs inner &&
    !namesEmptyConfig environment outer && !namesEmptyConfig environment inner

/--
The invocation of a command line, where `environment` is the configuration file that the
environment names. A file that is named after the command counts before one named in front.
-/
def invocation? (environment : Option String) (args : List String) : Option Invocation :=
  match items? programSpecs (fun arg => (commandSpecs? arg).isSome) args with
  | some (outer, name :: rest) =>
    let specs := programSpecs ++ (commandSpecs? name).getD []
    match items? specs (fun _ => false) rest with
    | some (inner, _) =>
      if areValid environment specs outer inner then
        (command? name inner).map fun command =>
          { verbose := !(valuesOf (outer ++ inner) "verbose").isEmpty
            config := ((valuesOf (outer ++ inner) "config").getLast?).or environment
            command }
      else none
    | none => none
  | _ => none

end CommandLine
end ApiConventions
