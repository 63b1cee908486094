import ApiConventions.Inspection
import ApiConventions.Pattern.Regex
import ApiConventions.Rule.Diagnostic

/-!
# ApiConventions.Rule.JsonNames

Every field has a serialized name, and the name matches a pattern: lower camel case unless
another pattern is chosen. Which patterns there are and what they match is up to a library of
regular expressions.
-/

namespace ApiConventions

/-- A regular expression that has been read: its notation, and the texts in which it is found. -/
structure NamePattern where
  source : String
  isMatch : String → Bool

/-- The notation of lower camel case. -/
def NamePattern.lowerCamelSource : String := "^[a-z][a-z0-9]*(?:[A-Z][a-z0-9]*)*$"

/-- A library of regular expressions. All that is relied on is that it can read lower camel case. -/
class RegexLibrary where
  /-- The texts in which a pattern is found, if it is a valid one. -/
  read? : String → Option (String → Bool)
  reads_lowerCamel : (read? NamePattern.lowerCamelSource).isSome = true

namespace NamePattern

variable [RegexLibrary]

def parse? (source : String) : Option NamePattern :=
  (RegexLibrary.read? source).map fun isMatch => { source, isMatch }

/-- Lower camel case. -/
def lowerCamel : NamePattern where
  source := lowerCamelSource
  isMatch := (RegexLibrary.read? lowerCamelSource).get RegexLibrary.reads_lowerCamel

end NamePattern

/-- The library that the program comes with. -/
instance : RegexLibrary where
  read? source := (Regex.parse? source).map Regex.isMatch
  reads_lowerCamel := by decide +kernel

namespace JsonNames

def message? (pattern : NamePattern) (name : String) (json : JsonTag) : Option String :=
  let source := pattern.source
  let written := json.name
  if !json.present then some s!"field {name} is missing json tag"
  else if written.isEmpty then some s!"field {name} has empty json tag"
  else if !pattern.isMatch written then
    some s!"field {name} json tag does not match pattern \"{source}\": {written}"
  else none

def check (pattern : NamePattern) (ctx : FileContext) : List Diagnostic :=
  ctx.file.fields.filterMap fun (f, _) =>
    if f.isSkipped then none
    else (message? pattern f.displayName f.jsonTag).map fun message => { pos := f.pos, message }

end JsonNames
end ApiConventions
