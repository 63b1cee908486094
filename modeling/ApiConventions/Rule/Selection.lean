import ApiConventions.Config.Basic
import ApiConventions.Rule.Basic

/-!
# ApiConventions.Rule.Selection

Which rules an analysis runs, and with which options. An option that is absent or cannot be read
leaves the default in place.
-/

namespace ApiConventions

variable [RegexLibrary]

namespace Check

/-- A record of one choice, such as `policy` inside `omitempty`: the choice, or its default. -/
def choice? {α : Type} (name : String) (default : α) (decode : String → Option α) (s : Setting) :
    Option α :=
  (s.fields? [name]).bind fun fields =>
    Setting.field? fields name default fun value => value.word?.bind decode

def omitEmptyPolicy (c : RuleConfig) : OmitEmptyPolicy :=
  (c.option? "omitempty" (choice? "policy" .suggestFix OmitEmptyPolicy.ofName?)).getD .suggestFix

def pointerPreference (c : RuleConfig) : PointerPreference :=
  (c.option? "pointers" (choice? "preference" .always PointerPreference.ofName?)).getD .always

/-- An option that is a choice, or its default. -/
def choiceOr {α : Type} (c : RuleConfig) (key : String) (default : α)
    (decode : String → Option α) : α :=
  (c.option? key fun value => value.word?.bind decode).getD default

def mapOptions (c : RuleConfig) : MapOptions :=
  let default : MapOptions := {}
  { policy := choiceOr c "policy" default.policy MapPolicy.ofName?
    allowedFieldNames :=
      if c.has "allowed_field_names" then c.texts "allowed_field_names"
      else default.allowedFieldNames }

def preferredMarkers (c : RuleConfig) : PreferredMarkers :=
  { optional := c.textOr "preferred_optional_marker" MarkerName.optional
    required := c.textOr "preferred_required_marker" MarkerName.required }

/-- The pattern for names; the default also stands in for one that is not valid. -/
def namePattern (c : RuleConfig) : NamePattern :=
  match c.option? "json_tag_regex" Setting.text? with
  | none => NamePattern.lowerCamel
  | some source => (NamePattern.parse? source).getD NamePattern.lowerCamel

/-- The check of a rule with the options of its section. -/
def ofConfig (id : RuleId) (c : RuleConfig) : Check :=
  match id with
  | .noMaps => .noMaps (mapOptions c)
  | .noReferences =>
    .noReferences (choiceOr c "policy" .preferAbbreviatedReference ReferencePolicy.ofName?)
  | .optionalFields =>
    .optionalFields { pointers := pointerPreference c, omitEmpty := omitEmptyPolicy c }
  | .requiredFields => .requiredFields (omitEmptyPolicy c)
  | .listTags => .listTags (choiceOr c "list_type_set_usage" .warn SetUsage.ofName?)
  | .requirementMarkers => .requirementMarkers (preferredMarkers c)
  | .jsonNames => .jsonNames (namePattern c)
  | id => default id

end Check

namespace Rule

/-- A rule with the options and the severity of its section. -/
def ofConfig (id : RuleId) (c : RuleConfig) : Rule :=
  { check := Check.ofConfig id c, severity := c.severity.getD id.defaultSeverity }

/-- The rule with a name or a code, under a section. -/
def ofNameOrCode? (s : String) (c : RuleConfig) : Option Rule :=
  (RuleId.ofNameOrCode? s).map (ofConfig · c)

end Rule

/-- The rule under the section of the configuration with its name. -/
def Config.rule (c : Config) (id : RuleId) : Rule :=
  Rule.ofConfig id ((c.section? id.name).getD {})

/-- The rules with these names or codes, as often as they are given; unknown ones are dropped. -/
def Config.rulesNamed (c : Config) (names : List String) : List Rule :=
  (names.filterMap RuleId.ofNameOrCode?).map c.rule

/--
The rules that a configuration selects, in the order of their codes: those that are enabled
there, and those of the preset that are not disabled. The unknown preset selects nothing.
-/
def Config.selectedRules? (c : Config) : Option (List Rule) :=
  let preset? := c.preset.elim (some .recommended) Preset.ofName?
  preset?.map fun preset =>
    let isSelected (id : RuleId) : Bool :=
      ((c.section? id.name).bind (·.enabled)).getD (preset.rules.contains id)
    (RuleId.all.filter isSelected).map c.rule

end ApiConventions
