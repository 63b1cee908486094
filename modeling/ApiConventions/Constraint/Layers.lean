import ApiConventions.Marker.Set

/-!
# ApiConventions.Constraint.Layers

Looking up a marker in layers of markers. The first layer that has the marker decides, with its
first occurrence; a value there that cannot be read is an error and leaves the constraint unset,
whatever the later layers say.
-/

namespace ApiConventions

/-- A value that may be unset, and the errors met in looking for it. -/
structure Reading (α : Type) where
  value : Option α
  errors : List ValueError

namespace Layers

/-- The occurrence that decides. -/
def winner? (layers : List MarkerSet) (identifier : String) : Option Marker :=
  layers.findSome? (·.first? identifier)

/-- The value of the deciding occurrence. -/
def read {α : Type} (layers : List MarkerSet) (identifier : String)
    (coerce : Marker → Except ValueError α) : Reading α :=
  match winner? layers identifier with
  | none => ⟨none, []⟩
  | some marker =>
    match coerce marker with
    | .ok value => ⟨some value, []⟩
    | .error e => ⟨none, [e]⟩

end Layers
end ApiConventions
