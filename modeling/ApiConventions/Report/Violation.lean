import ApiConventions.Json.Record
import ApiConventions.Report.PathOrder
import ApiConventions.Report.Severity

/-!
# ApiConventions.Report.Violation

Violations of a convention, and their text and JSON forms.
-/

namespace ApiConventions

/-- A place in a file. -/
structure Location where
  file : String
  line : UInt64
  column : UInt64
deriving DecidableEq, Repr

structure Violation where
  /-- Code of the rule. -/
  code : String
  /-- Name of the rule. -/
  rule : String
  severity : Severity
  location : Location
  message : String
  /-- How to mend it. -/
  suggestion : Option String := none
  /-- The part of a type in which it was found. -/
  fact : Option String := none
deriving DecidableEq, Repr

namespace Location

/-- Order by file, then line, then column. -/
def le (a b : Location) : Bool :=
  if Path.parts a.file = Path.parts b.file then
    if a.line = b.line then a.column ≤ b.column else a.line ≤ b.line
  else Path.le a.file b.file

def text (l : Location) : String :=
  l.file ++ ":" ++ toString l.line.toNat ++ ":" ++ toString l.column.toNat

def toJson (l : Location) : Json :=
  .object [("file", .string l.file), ("line", .ofNat l.line.toNat),
    ("column", .ofNat l.column.toNat)]

def ofJson? (j : Json) : Option Location :=
  match j.record? ["file", "line", "column"] with
  | none => none
  | some r =>
    match r.required? "file" Json.string?, r.required? "line" Json.uint64?,
        r.required? "column" Json.uint64? with
    | some file, some line, some column => some { file, line, column }
    | _, _, _ => none

end Location

/-- A severity, written as its name or as an object whose only key is the name. -/
def Severity.ofJson? : Json → Option Severity
  | .string s => Severity.ofExactName? s
  | .object [(s, .null)] => Severity.ofExactName? s
  | _ => none

namespace Violation

/-- The violation on one line. -/
def text (v : Violation) : String :=
  v.location.text ++ ": " ++ v.severity.name ++ " [" ++ v.code ++ "] " ++ v.message

def suggestionToJson (message : String) : Json :=
  .object [("message", .string message)]

def suggestionOfJson? (j : Json) : Option String :=
  (j.record? ["message"]).bind fun r => r.required? "message" Json.string?

def toJson (v : Violation) : Json :=
  .object ([("code", .string v.code), ("rule", .string v.rule),
    ("severity", .string v.severity.name), ("location", v.location.toJson),
    ("message", .string v.message),
    ("suggestion", Json.ofOption suggestionToJson v.suggestion)] ++
    v.fact.toList.map fun fact => ("fact", .string fact))

def ofJson? (j : Json) : Option Violation :=
  match j.record? ["code", "rule", "severity", "location", "message", "suggestion", "fact"] with
  | none => none
  | some r =>
    match r.required? "code" Json.string?, r.required? "rule" Json.string?,
        r.required? "severity" Severity.ofJson?, r.required? "location" Location.ofJson?,
        r.required? "message" Json.string?, r.optional? "suggestion" suggestionOfJson?,
        r.withDefault? "fact" none (Json.nullable? Json.string?) with
    | some code, some rule, some severity, some location, some message, some suggestion,
        some fact =>
      some { code, rule, severity, location, message, suggestion, fact }
    | _, _, _, _, _, _, _ => none

end Violation
end ApiConventions
