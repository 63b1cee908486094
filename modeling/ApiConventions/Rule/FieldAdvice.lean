import ApiConventions.Advice
import ApiConventions.Inspection
import ApiConventions.Rule.Diagnostic

/-!
# ApiConventions.Rule.FieldAdvice

The serialization of the fields that are marked optional, and of those that are marked required:
see `ApiConventions.Advice`. Their malformed markers are reported here too, since they leave the
advice without its input.
-/

namespace ApiConventions
namespace FieldAdvice

def isSelected (r : Requirement) (c : Constraints) : Bool :=
  match r with
  | .optional => c.optional
  | .required => c.required

def ofFinding (pos : Position) (f : Finding) : Diagnostic :=
  { pos, message := f.message, suggestion := f.suggestion }

def checkField (r : Requirement) (o : AdviceOptions) (ctx : FileContext) (f : Field)
    (scope : TypeDecl) : List Diagnostic :=
  let info := ctx.inspectField f scope
  if f.isSkipped || !isSelected r info.constraints then []
  else
    let facts := FieldFacts.of f.displayName info.resolved info.constraints
    Diagnostic.ofErrors f.pos (.field f.displayName) info.errors ++
      (Advice.evaluate facts r o).map (ofFinding f.pos)

/-- The diagnostics on every field with the requirement. -/
def check (r : Requirement) (o : AdviceOptions) (ctx : FileContext) : List Diagnostic :=
  ctx.file.fields.flatMap fun (f, scope) => checkField r o ctx f scope

end FieldAdvice
end ApiConventions
