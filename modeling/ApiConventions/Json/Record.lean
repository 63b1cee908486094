import ApiConventions.Json.Basic

/-!
# ApiConventions.Json.Record

Records inside JSON values. A record with named fields is written as an object, whose unknown
keys are skipped and whose known keys occur at most once, or as an array that gives the fields
by position. A tagged record carries a tag beside its fields, or in front of them in an array.
-/

namespace ApiConventions
namespace Json

/-- The fields of a record that are present. -/
structure Record where
  entries : List (String × Json)
  isPositional : Bool

/-- Reads a value as a record with the given field names. -/
def record? (names : List String) : Json → Option Record
  | .object members =>
    let known := members.filter (names.contains ·.1)
    if (known.map (·.1)).eraseDups.length = known.length then some ⟨known, false⟩ else none
  | .array items =>
    if items.length ≤ names.length then some ⟨names.zip items, true⟩ else none
  | _ => none

namespace Record

def get? (r : Record) (name : String) : Option Json :=
  r.entries.lookup name

/-- A field that has to be present. -/
def required? {α : Type} (r : Record) (name : String) (decode : Json → Option α) : Option α :=
  (r.get? name).bind decode

/-- A field with a value for when it is absent. -/
def withDefault? {α : Type} (r : Record) (name : String) (default : α)
    (decode : Json → Option α) : Option α :=
  match r.get? name with
  | none => some default
  | some j => decode j

/-- A field that may be absent or `null`; by position it has to be present. -/
def optional? {α : Type} (r : Record) (name : String) (decode : Json → Option α) :
    Option (Option α) :=
  match r.get? name with
  | none => if r.isPositional then none else some none
  | some j => nullable? decode j

end Record

/-- The tag of a record, which occurs exactly once, and the record without it. -/
def tagged? (tag : String) : Json → Option (Json × Json)
  | .object members =>
    match members.filter (·.1 == tag) with
    | [(_, value)] => some (value, .object (members.filter (·.1 != tag)))
    | _ => none
  | .array (value :: items) => some (value, .array items)
  | _ => none

/-- Whether a value is a record without fields: any object, or the empty array. -/
def isFieldless : Json → Bool
  | .object _ => true
  | .array items => items.isEmpty
  | _ => false

end Json
end ApiConventions
