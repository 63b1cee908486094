import ApiConventions.Report.Severity

/-!
# ApiConventions.Rule.Catalogue

The fifteen rules: their codes, names and descriptions, and the presets that select among them.
-/

namespace ApiConventions

inductive RuleId where
  | minLength
  | noDurations
  | noMaps
  | noReferences
  | optionalFields
  | requiredFields
  | listTags
  | requirementMarkers
  | maxLength
  | noFloats
  | noBools
  | integers
  | duplicateMarkers
  | jsonNames
  | commentStart
deriving DecidableEq, Repr

namespace RuleId

/-- Every rule, in the order of the codes. -/
def all : List RuleId :=
  [.minLength, .noDurations, .noMaps, .noReferences, .optionalFields, .requiredFields, .listTags,
    .requirementMarkers, .maxLength, .noFloats, .noBools, .integers, .duplicateMarkers, .jsonNames,
    .commentStart]

def code : RuleId → String
  | .minLength => "KAL001"
  | .noDurations => "KAL002"
  | .noMaps => "KAL003"
  | .noReferences => "KAL004"
  | .optionalFields => "KAL005"
  | .requiredFields => "KAL006"
  | .listTags => "KAL007"
  | .requirementMarkers => "KAL008"
  | .maxLength => "KAL009"
  | .noFloats => "KAL010"
  | .noBools => "KAL011"
  | .integers => "KAL012"
  | .duplicateMarkers => "KAL013"
  | .jsonNames => "KAL014"
  | .commentStart => "KAL015"

def name : RuleId → String
  | .minLength => "minlength"
  | .noDurations => "nodurations"
  | .noMaps => "nomaps"
  | .noReferences => "noreferences"
  | .optionalFields => "optionalfields"
  | .requiredFields => "requiredfields"
  | .listTags => "ssatags"
  | .requirementMarkers => "optionalorrequired"
  | .maxLength => "maxlength"
  | .noFloats => "nofloats"
  | .noBools => "nobools"
  | .integers => "integers"
  | .duplicateMarkers => "duplicatemarkers"
  | .jsonNames => "jsontags"
  | .commentStart => "commentstart"

def description : RuleId → String
  | .minLength => "Requires MinLength, MinItems and MinProperties markers"
  | .noDurations => "Forbids time.Duration and metav1.Duration"
  | .noMaps => "Forbids map types in favour of keyed lists"
  | .noReferences => "Prefers Ref over Reference in field names"
  | .optionalFields => "Checks pointers and omitempty on optional fields"
  | .requiredFields => "Checks pointers and omitempty on required fields"
  | .listTags => "Checks listType and listMapKey markers on lists"
  | .requirementMarkers => "Requires fields to be marked optional or required"
  | .maxLength => "Requires MaxLength, MaxItems and MaxProperties markers"
  | .noFloats => "Forbids float32 and float64"
  | .noBools => "Forbids bool in favour of string enums"
  | .integers => "Allows only int32 and int64"
  | .duplicateMarkers => "Reports markers repeated with the same value"
  | .jsonNames => "Requires lower camel case json tags on fields"
  | .commentStart => "Requires field comments to start with the JSON name"

/-- The severity of a rule that is not configured. -/
def defaultSeverity : RuleId → Severity
  | .commentStart => .info
  | _ => .warning

/-- The rule with a name or a code. -/
def ofNameOrCode? (s : String) : Option RuleId :=
  all.find? fun id => id.code == s || id.name == s

end RuleId

/-- A named selection of rules. -/
inductive Preset where
  | recommended
  | strict
  | minimal
deriving DecidableEq, Repr

namespace Preset

def all : List Preset := [.recommended, .strict, .minimal]

def name : Preset → String
  | .recommended => "recommended"
  | .strict => "strict"
  | .minimal => "minimal"

def ofName? (s : String) : Option Preset :=
  all.find? (·.name == s)

/-- The rules of a preset, in the order in which they are listed. -/
def rules : Preset → List RuleId
  | .recommended =>
    RuleId.all.filter fun id => id != .minLength && id != .noReferences
  | .strict => RuleId.all
  | .minimal => [.requirementMarkers, .requiredFields, .listTags, .jsonNames]

end Preset
end ApiConventions
