import ApiConventions.Report.Violation
import ApiConventions.Rule.Bounds
import ApiConventions.Rule.Catalogue
import ApiConventions.Rule.CommentStart
import ApiConventions.Rule.DuplicateMarkers
import ApiConventions.Rule.FieldAdvice
import ApiConventions.Rule.JsonNames
import ApiConventions.Rule.ListTags
import ApiConventions.Rule.NoMaps
import ApiConventions.Rule.NoReferences
import ApiConventions.Rule.RequirementMarkers
import ApiConventions.Rule.TypeUsage

/-!
# ApiConventions.Rule.Basic

A rule is a check with its options and a severity. It looks at one file at a time.
-/

namespace ApiConventions

/-- A check with its options. -/
inductive Check where
  | minLength
  | noDurations
  | noMaps (options : MapOptions)
  | noReferences (policy : ReferencePolicy)
  | optionalFields (options : AdviceOptions)
  | requiredFields (omitEmpty : OmitEmptyPolicy)
  | listTags (usage : SetUsage)
  | requirementMarkers (preferred : PreferredMarkers)
  | maxLength
  | noFloats
  | noBools
  | integers
  | duplicateMarkers
  | jsonNames (pattern : NamePattern)
  | commentStart

namespace Check

def id : Check → RuleId
  | .minLength => .minLength
  | .noDurations => .noDurations
  | .noMaps _ => .noMaps
  | .noReferences _ => .noReferences
  | .optionalFields _ => .optionalFields
  | .requiredFields _ => .requiredFields
  | .listTags _ => .listTags
  | .requirementMarkers _ => .requirementMarkers
  | .maxLength => .maxLength
  | .noFloats => .noFloats
  | .noBools => .noBools
  | .integers => .integers
  | .duplicateMarkers => .duplicateMarkers
  | .jsonNames _ => .jsonNames
  | .commentStart => .commentStart

/-- The check of a rule that is not configured. -/
def default [RegexLibrary] : RuleId → Check
  | .minLength => .minLength
  | .noDurations => .noDurations
  | .noMaps => .noMaps {}
  | .noReferences => .noReferences .preferAbbreviatedReference
  | .optionalFields => .optionalFields {}
  | .requiredFields => .requiredFields .suggestFix
  | .listTags => .listTags .warn
  | .requirementMarkers => .requirementMarkers {}
  | .maxLength => .maxLength
  | .noFloats => .noFloats
  | .noBools => .noBools
  | .integers => .integers
  | .duplicateMarkers => .duplicateMarkers
  | .jsonNames => .jsonNames NamePattern.lowerCamel
  | .commentStart => .commentStart

/-- What the check has to say about a file. -/
def diagnostics (c : Check) (ctx : FileContext) : List Diagnostic :=
  match c with
  | .minLength => Bounds.check .minimum ctx
  | .noDurations => TypeUsage.check TypeUsage.durationComplaint? ctx
  | .noMaps options => NoMaps.check options ctx
  | .noReferences policy => NoReferences.check policy ctx
  | .optionalFields options => FieldAdvice.check .optional options ctx
  | .requiredFields omitEmpty => FieldAdvice.check .required { omitEmpty } ctx
  | .listTags usage => ListTags.check usage ctx
  | .requirementMarkers preferred => RequirementMarkers.check preferred ctx
  | .maxLength => Bounds.check .maximum ctx
  | .noFloats => TypeUsage.check TypeUsage.floatComplaint? ctx
  | .noBools => TypeUsage.check TypeUsage.boolComplaint? ctx
  | .integers => TypeUsage.check TypeUsage.integerComplaint? ctx
  | .duplicateMarkers => DuplicateMarkers.check ctx
  | .jsonNames pattern => JsonNames.check pattern ctx
  | .commentStart => CommentStart.check ctx

end Check

structure Rule where
  check : Check
  severity : Severity

namespace Rule

/-- A rule that is not configured. -/
def default [RegexLibrary] (id : RuleId) : Rule :=
  { check := Check.default id, severity := id.defaultSeverity }

def id (r : Rule) : RuleId := r.check.id
def name (r : Rule) : String := r.id.name
def code (r : Rule) : String := r.id.code

/-- The violation that a diagnostic of the rule is. -/
def violation (r : Rule) (file : String) (d : Diagnostic) : Violation :=
  { code := r.code
    rule := r.name
    severity := r.severity
    location := { file, line := d.pos.line, column := d.pos.column }
    message := d.message
    suggestion := d.suggestion
    fact := d.fact }

/-- The violations in one file. -/
def run (r : Rule) (ctx : FileContext) : List Violation :=
  (r.check.diagnostics ctx).map (r.violation ctx.file.path)

end Rule
end ApiConventions
