/-!
# ApiConventions.Marker.Names

The marker identifiers that carry a meaning.
-/

namespace ApiConventions
namespace MarkerName

def minimum : String := "kubebuilder:validation:Minimum"
def maximum : String := "kubebuilder:validation:Maximum"
def exclusiveMinimum : String := "kubebuilder:validation:ExclusiveMinimum"
def exclusiveMaximum : String := "kubebuilder:validation:ExclusiveMaximum"
def minLength : String := "kubebuilder:validation:MinLength"
def maxLength : String := "kubebuilder:validation:MaxLength"
def minItems : String := "kubebuilder:validation:MinItems"
def maxItems : String := "kubebuilder:validation:MaxItems"
def minProperties : String := "kubebuilder:validation:MinProperties"
def maxProperties : String := "kubebuilder:validation:MaxProperties"
def enum : String := "kubebuilder:validation:Enum"

/-! ## Constraints on the elements of a list -/

def itemsMinLength : String := "kubebuilder:validation:items:MinLength"
def itemsMaxLength : String := "kubebuilder:validation:items:MaxLength"
def itemsMinProperties : String := "kubebuilder:validation:items:MinProperties"
def itemsMaxProperties : String := "kubebuilder:validation:items:MaxProperties"
def itemsEnum : String := "kubebuilder:validation:items:Enum"

/-! ## Markers whose arguments are `name=value` pairs -/

def xValidation : String := "kubebuilder:validation:XValidation"
def itemsXValidation : String := "kubebuilder:validation:items:XValidation"
def printColumn : String := "kubebuilder:printcolumn"

/-! ## Lists under server-side apply -/

def listType : String := "listType"
def listMapKey : String := "listMapKey"

/-! ## Requirement -/

def optional : String := "optional"
def required : String := "required"

/-- Every spelling of the marker for an optional field. -/
def optionalFamily : List String :=
  [optional, "kubebuilder:validation:Optional", "k8s:optional"]

/-- Every spelling of the marker for a required field. -/
def requiredFamily : List String :=
  [required, "kubebuilder:validation:Required", "k8s:required"]

end MarkerName
end ApiConventions
