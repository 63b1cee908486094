import ApiConventions.Marker.Basic
import ApiConventions.Model.Basic

/-!
# ApiConventions.Rule.Diagnostic

What a rule has to say about a place in a file, before it is known how serious that is.
-/

namespace ApiConventions

structure Diagnostic where
  pos : Position
  message : String
  suggestion : Option String := none
  fact : Option String := none
deriving DecidableEq, Repr

/-- What a diagnostic is about. -/
inductive Subject where
  | field (name : String)
  | type (name : String)
deriving DecidableEq, Repr

def Subject.text : Subject → String
  | .field name => "field " ++ name
  | .type name => "type " ++ name

/-- Order by line, then column. -/
def Position.le (a b : Position) : Bool :=
  if a.line = b.line then a.column ≤ b.column else a.line ≤ b.line

namespace Diagnostic

/-- Sorts by position; diagnostics at one place keep their order. -/
def sort (ds : List Diagnostic) : List Diagnostic :=
  ds.mergeSort fun a b => a.pos.le b.pos

/-- One diagnostic for each malformed marker value. -/
def ofErrors (pos : Position) (subject : Subject) (errors : List ValueError) : List Diagnostic :=
  errors.map fun e =>
    { pos, message := subject.text ++ " has an invalid validation marker: " ++ e.message }

end Diagnostic
end ApiConventions
