import ApiConventions.Marker.Quoted
import ApiConventions.Number.Decimal
import ApiConventions.Text.Blank

/-!
# ApiConventions.Marker.Basic

Markers: comment lines of the form `+identifier` or `+identifier=value`. A marker keeps its value
as written; a reader asks for it as an integer, a finite number, a boolean, a string or a list of
strings, and gets a `ValueError` when it is none. A marker without a value counts as `true`.
-/

namespace ApiConventions

/-- What a reader wants the value of a marker to be. -/
inductive ValueKind where
  | integer
  | float
  | boolean
  | string
  | stringList
deriving DecidableEq, Repr

def ValueKind.name : ValueKind → String
  | .integer => "integer"
  | .float => "float"
  | .boolean => "boolean"
  | .string => "string"
  | .stringList => "string list"

/-- The value of a marker is not of the wanted kind. -/
structure ValueError where
  identifier : String
  /-- The value as written, and empty when there is none. -/
  raw : String
  expected : ValueKind
deriving DecidableEq, Repr

def ValueError.message (e : ValueError) : String :=
  let kind := e.expected.name
  "invalid value \"" ++ e.raw ++ "\" for marker " ++ e.identifier ++ ": not a valid " ++ kind

structure Marker where
  identifier : String
  /-- What follows the first `=`, or the arguments of an expression marker. -/
  value : Option String
  /-- The `name=value` arguments of an expression marker, in order. -/
  expressions : List (String × String)
  /-- The whole marker without its leading `+`. -/
  raw : String
deriving DecidableEq, Repr

namespace Marker

def error (m : Marker) (expected : ValueKind) : ValueError :=
  { identifier := m.identifier, raw := m.value.getD "", expected }

/-- A value that `read?` accepts, and the error of the wanted kind otherwise. -/
def coerce {α : Type} (m : Marker) (expected : ValueKind) (read? : List Char → Option α) :
    Except ValueError α :=
  match m.value.bind (read? ·.toList) with
  | some a => .ok a
  | none => .error (m.error expected)

def asInt (m : Marker) : Except ValueError Int :=
  m.coerce .integer fun v => Number.readInt64? (Text.trim v)

/-- The value as a finite number. -/
def asFloat (m : Marker) : Except ValueError Number.Binary64 :=
  m.coerce .float fun v => (Number.readBinary64? (Text.trim v)).filter (·.isFinite)

def asBool (m : Marker) : Except ValueError Bool :=
  match m.value.map Text.trimmed with
  | none => .ok true
  | some "true" => .ok true
  | some "false" => .ok false
  | some _ => .error (m.error .boolean)

def asString (m : Marker) : Except ValueError String :=
  m.coerce .string fun v => some (String.ofList (Quoted.unquote (Text.trim v)))

/-- The parts between semicolons outside quotes, each without its quotes. -/
def asList (m : Marker) : Except ValueError (List String) :=
  m.coerce .stringList fun v =>
    (Quoted.split ';' v).map (·.map fun part => String.ofList (Quoted.unquote (Text.trim part)))

/-- The first argument with this name. -/
def expression? (m : Marker) (name : String) : Option String :=
  m.expressions.lookup name

/-- Two markers repeat each other when they agree on this. -/
def key (m : Marker) : String × Option String :=
  (m.identifier, m.value)

end Marker
end ApiConventions
