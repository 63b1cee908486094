import ApiConventions.Constraint.Range
import ApiConventions.StructTag

/-!
# ApiConventions.Constraint.Basic

What is asked of the values of a field or a type.
-/

namespace ApiConventions

/-- How the zero value of a struct is serialized. -/
structure StructShape where
  /-- The number of members that are written even when they are zero. -/
  alwaysPresent : Nat := 0
  /-- The required members that are left out when they are zero. -/
  omittedRequired : List String := []
deriving DecidableEq, Repr, Inhabited

structure Constraints where
  numeric : Option NumericBounds := none
  minLength : Option Int := none
  maxLength : Option Int := none
  minItems : Option Int := none
  maxItems : Option Int := none
  minProperties : Option Int := none
  maxProperties : Option Int := none
  enumValues : Option (List String) := none
  /-- What is asked of the elements of a list. -/
  items : Option Constraints := none
  optional : Bool := false
  required : Bool := false
  json : JsonTag := {}
  structShape : Option StructShape := none
deriving Repr

instance : Inhabited Constraints := ⟨{}⟩

end ApiConventions
