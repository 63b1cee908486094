import ApiConventions.Inspection
import ApiConventions.Rule.Diagnostic

/-!
# ApiConventions.Rule.RequirementMarkers

Every field is marked either optional or required, and with the preferred spelling of the marker.
-/

namespace ApiConventions

/-- The preferred spelling of each marker. -/
structure PreferredMarkers where
  optional : String := MarkerName.optional
  required : String := MarkerName.required
deriving DecidableEq, Repr

namespace RequirementMarkers

/-- The message about the presence of the two markers. -/
def presence? (name : String) (optional required : Bool) : Option String :=
  match optional, required with
  | false, false => some s!"field {name} must be marked as optional or required"
  | true, true => some s!"field {name} must not be marked as both optional and required"
  | _, _ => none

/-- A diagnostic for each spelling of a family that is there and not preferred. -/
def misspelled (f : Field) (markers : MarkerSet) (family : List String) (preferred : String) :
    List Diagnostic :=
  let name := f.displayName
  (family.filter fun spelling => spelling != preferred && markers.has spelling).map fun spelling =>
    { pos := f.pos
      message := s!"field {name} should use marker {preferred} instead of {spelling}"
      suggestion := some s!"replace +{spelling} with +{preferred}" }

def checkField (preferred : PreferredMarkers) (ctx : FileContext) (f : Field) : List Diagnostic :=
  if f.isSkipped then []
  else
    let markers := ctx.markers f.doc
    let optional := markers.hasAny MarkerName.optionalFamily
    let required := markers.hasAny MarkerName.requiredFamily
    let presence := (presence? f.displayName optional required).toList.map fun message =>
      { pos := f.pos, message }
    presence ++ misspelled f markers MarkerName.optionalFamily preferred.optional ++
      misspelled f markers MarkerName.requiredFamily preferred.required

def check (preferred : PreferredMarkers) (ctx : FileContext) : List Diagnostic :=
  ctx.file.fields.flatMap fun (f, _) => checkField preferred ctx f

end RequirementMarkers
end ApiConventions
