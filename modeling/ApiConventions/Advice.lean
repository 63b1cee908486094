import ApiConventions.ZeroValue

/-!
# ApiConventions.Advice

Advice on the serialization of one field: whether it should be a pointer, and whether its tag
should leave it out when it is empty. `evaluate` is the decision table shared by optional and
required fields.

1. A field without `omitempty` or `omitzero` is told so, unless the policy ignores that.
2. Two or more pointer levels are never right, and nothing more is said.
3. A pointer to a list, a slice of bytes or a map is not right either. Without a pointer such a
   field needs `omitempty` where the policy ignores it and its zero value is invalid.
4. Nothing is said about the pointers of interfaces and opaque types.
5. Otherwise a valid zero value asks for a pointer, and an invalid one makes the pointer
   unnecessary, except for a struct without `omitzero`, which cannot be left out without one.
-/

namespace ApiConventions

/-- Whether a field may be left out. -/
inductive Requirement where
  | optional
  | required
deriving DecidableEq, Repr

/-- Which optional fields should be pointers. -/
inductive PointerPreference where
  /-- Every scalar and struct. -/
  | always
  /-- Only those whose zero value is a valid value. -/
  | whenRequired
deriving DecidableEq, Repr

/-- What happens when `omitempty` is missing. -/
inductive OmitEmptyPolicy where
  /-- It is reported with a suggestion. -/
  | suggestFix
  /-- It is reported. -/
  | warn
  /-- It is not reported. -/
  | ignore
deriving DecidableEq, Repr

def PointerPreference.ofName? : String → Option PointerPreference
  | "Always" => some .always
  | "WhenRequired" => some .whenRequired
  | _ => none

def OmitEmptyPolicy.ofName? : String → Option OmitEmptyPolicy
  | "SuggestFix" => some .suggestFix
  | "Warn" => some .warn
  | "Ignore" => some .ignore
  | _ => none

structure AdviceOptions where
  pointers : PointerPreference := .always
  omitEmpty : OmitEmptyPolicy := .suggestFix
deriving DecidableEq, Repr

/-- What the decision table reads about a field. -/
structure FieldFacts where
  name : String
  shape : Shape
  pointerDepth : Nat
  zero : ZeroValidity
  omitEmpty : Bool
  omitZero : Bool
  /-- The zero value of the struct has too few members. -/
  failsMinProperties : Bool
deriving DecidableEq, Repr

namespace FieldFacts

def of (name : String) (r : Resolved) (c : Constraints) : FieldFacts :=
  let shape := Shape.ofResolved r
  { name
    shape
    pointerDepth := r.pointerDepth
    zero := ZeroValidity.of shape c
    omitEmpty := c.json.omitEmpty
    omitZero := c.json.omitZero
    failsMinProperties := shape = .struct && c.failsMinProperties }

def isPointer (f : FieldFacts) : Bool :=
  0 < f.pointerDepth

/-- Some tag leaves the field out. -/
def isOmittable (f : FieldFacts) : Bool :=
  f.omitEmpty || f.omitZero

end FieldFacts

inductive FindingKind where
  | missingOmitEmpty
  | doublePointer
  | pointerToContainer
  | shouldBePointer
  | incompleteValidation
  | needNotBePointer
  | mustHaveOmitEmpty
  | minPropertiesPointer
  | zeroNotAllowedPointer
  | alwaysPointer
deriving DecidableEq, Repr

def FindingKind.name : FindingKind → String
  | .missingOmitEmpty => "MissingOmitEmpty"
  | .doublePointer => "DoublePointer"
  | .pointerToContainer => "PointerToContainer"
  | .shouldBePointer => "ShouldBePointer"
  | .incompleteValidation => "IncompleteValidation"
  | .needNotBePointer => "NeedNotBePointer"
  | .mustHaveOmitEmpty => "MustHaveOmitEmpty"
  | .minPropertiesPointer => "MinPropertiesPointer"
  | .zeroNotAllowedPointer => "ZeroNotAllowedPointer"
  | .alwaysPointer => "AlwaysPointer"

structure Finding where
  kind : FindingKind
  message : String
  suggestion : Option String
deriving DecidableEq, Repr

namespace Advice

def addOmitEmpty : String := "add omitempty to the json tag"
def removePointer : String := "remove the pointer"
def makePointer : String := "convert the field to a pointer"

/-- The validation that would settle whether the zero value is meant. -/
def validationHint : Shape → String
  | .string | .bytes => "minimum length"
  | .integer | .float => "minimum/maximum"
  | .list => "minimum items"
  | .bool | .map | .struct | .other => "minimum properties"

/-- The word for a type that is empty without a pointer. -/
def containerWord? : Shape → Option String
  | .list | .bytes => some "slice"
  | .map => some "map"
  | _ => none

def missingOmitEmpty (name : String) (policy : OmitEmptyPolicy) : Finding :=
  { kind := .missingOmitEmpty
    message := s!"field {name} should have the omitempty tag."
    suggestion := if policy = .suggestFix then some addOmitEmpty else none }

def doublePointer (name : String) : Finding :=
  { kind := .doublePointer
    message := s!"field {name} is a pointer type and should not be a pointer."
    suggestion := some "remove the extra pointer levels" }

def pointerToContainer (name container : String) : Finding :=
  { kind := .pointerToContainer
    message := s!"field {name} is a pointer to a {container} type and should not be a pointer."
    suggestion := some removePointer }

def mustHaveOmitEmpty (name : String) : Finding :=
  { kind := .mustHaveOmitEmpty
    message := s!"field {name} does not allow the zero value. It must have the omitempty tag."
    suggestion := some addOmitEmpty }

def shouldBePointer (name literal : String) : Finding :=
  { kind := .shouldBePointer
    message := s!"field {name} has a valid zero value ({literal}) and should be a pointer."
    suggestion := some makePointer }

def incompleteValidation (name literal hint : String) : Finding :=
  { kind := .incompleteValidation
    message :=
      s!"field {name} has a valid zero value ({literal}), but the validation is not complete " ++
      s!"(e.g. {hint}). The field should be a pointer to allow the zero value to be set. " ++
      "If the zero value is not a valid use case, complete the validation and remove the pointer."
    suggestion := some makePointer }

def needNotBePointer (name : String) : Finding :=
  { kind := .needNotBePointer
    message :=
      s!"field {name} does not allow the zero value. The field does not need to be a pointer."
    suggestion := some removePointer }

def minPropertiesPointer (name : String) : Finding :=
  { kind := .minPropertiesPointer
    message :=
      s!"field {name} has a greater than zero minimum number of properties and should be a pointer."
    suggestion := some makePointer }

def zeroNotAllowedPointer (name : String) : Finding :=
  { kind := .zeroNotAllowedPointer
    message := s!"field {name} does not allow the zero value and should be a pointer."
    suggestion := some makePointer }

def alwaysPointer (name : String) : Finding :=
  { kind := .alwaysPointer
    message := s!"field {name} should be a pointer."
    suggestion := some makePointer }

/-- The remark on a missing `omitempty`. -/
def onOmission (f : FieldFacts) (o : AdviceOptions) : Option Finding :=
  if !f.isOmittable && o.omitEmpty != .ignore then some (missingOmitEmpty f.name o.omitEmpty)
  else none

/-- A field that only its tag could leave out has no such tag, and nothing was said about it. -/
def lacksTag (f : FieldFacts) (o : AdviceOptions) : Bool :=
  o.omitEmpty == .ignore && !f.isOmittable

/-- The remark on a list, a slice of bytes or a map. -/
def onContainer (f : FieldFacts) (o : AdviceOptions) (container : String) : Option Finding :=
  if f.isPointer then some (pointerToContainer f.name container)
  else if lacksTag f o && !f.zero.valid then some (mustHaveOmitEmpty f.name)
  else none

/-- Required fields are pointers only where their zero value is valid. -/
def preference (r : Requirement) (o : AdviceOptions) : PointerPreference :=
  match r with
  | .optional => o.pointers
  | .required => .whenRequired

/-- The remark on a field whose zero value is valid. -/
def onValidZero (f : FieldFacts) : Option Finding :=
  let literal := f.shape.zeroLiteral
  if f.isPointer then none
  else if f.zero.complete then some (shouldBePointer f.name literal)
  else some (incompleteValidation f.name literal (validationHint f.shape))

/-- The remark on a field whose zero value is invalid. -/
def onInvalidZero (f : FieldFacts) (preference : PointerPreference) (o : AdviceOptions) :
    Option Finding :=
  if f.isPointer then
    if preference = .whenRequired && (f.shape != .struct || f.omitZero) then
      some (needNotBePointer f.name)
    else none
  else if f.shape = .struct && !f.omitZero then
    if f.failsMinProperties then some (minPropertiesPointer f.name)
    else some (zeroNotAllowedPointer f.name)
  else if preference = .always then some (alwaysPointer f.name)
  else if lacksTag f o then some (mustHaveOmitEmpty f.name)
  else none

/-- The remark on the pointer levels of a field. -/
def onPointer (f : FieldFacts) (r : Requirement) (o : AdviceOptions) : Option Finding :=
  if 1 < f.pointerDepth then some (doublePointer f.name)
  else
    match containerWord? f.shape with
    | some container => onContainer f o container
    | none =>
      if f.shape = .other then none
      else if f.zero.valid then onValidZero f
      else onInvalidZero f (preference r o) o

/-- The remarks on a field, in order. -/
def evaluate (f : FieldFacts) (r : Requirement) (o : AdviceOptions) : List Finding :=
  (onOmission f o).toList ++ (onPointer f r o).toList

end Advice
end ApiConventions
