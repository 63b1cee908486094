import ApiConventions.Marker.Basic

/-!
# ApiConventions.Marker.Set

The markers of one comment block, in source order. Markers with the same identifier are all kept.
-/

namespace ApiConventions

abbrev MarkerSet := List Marker

namespace MarkerSet

/-- The occurrences of an identifier. -/
def occurrences (ms : MarkerSet) (identifier : String) : List Marker :=
  ms.filter (·.identifier == identifier)

def has (ms : MarkerSet) (identifier : String) : Bool :=
  ms.any (·.identifier == identifier)

def hasAny (ms : MarkerSet) (identifiers : List String) : Bool :=
  identifiers.any ms.has

def first? (ms : MarkerSet) (identifier : String) : Option Marker :=
  ms.find? (·.identifier == identifier)

def last? (ms : MarkerSet) (identifier : String) : Option Marker :=
  ms.findRev? (·.identifier == identifier)

/--
The markers that repeat an earlier one: `seen` holds the keys met so far, and `reported` the keys
of the markers given already.
-/
def duplicatesFrom (seen reported : List (String × Option String)) : MarkerSet → List Marker
  | [] => []
  | m :: rest =>
    if m.key ∉ seen then duplicatesFrom (m.key :: seen) reported rest
    else if m.key ∉ reported then m :: duplicatesFrom seen (m.key :: reported) rest
    else duplicatesFrom seen reported rest

/-- Markers that repeat an earlier one; each repeated key is reported once. -/
def duplicates (ms : MarkerSet) : List Marker :=
  duplicatesFrom [] [] ms

end MarkerSet
end ApiConventions
