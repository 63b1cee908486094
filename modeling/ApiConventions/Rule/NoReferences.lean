import ApiConventions.Inspection
import ApiConventions.Rule.Diagnostic
import ApiConventions.Text.Words

/-!
# ApiConventions.Rule.NoReferences

The words for references in field names: `Ref` instead of `Reference` at either end of a name,
or no such words at all.
-/

namespace ApiConventions

inductive ReferencePolicy where
  | preferAbbreviatedReference
  | noReferences
deriving DecidableEq, Repr

def ReferencePolicy.ofName? : String → Option ReferencePolicy
  | "PreferAbbreviatedReference" => some .preferAbbreviatedReference
  | "NoReferences" => some .noReferences
  | _ => none

namespace NoReferences

def isAbbreviated (word : String) : Bool :=
  word == "Ref" || word == "Refs"

def isSpelledOut (word : String) : Bool :=
  word == "Reference" || word == "References"

/-- The message for a name, if there is anything to say. -/
def message? (policy : ReferencePolicy) (name : String) : Option String :=
  let words := Text.words name
  match policy with
  | .noReferences =>
    if words.any fun w => isAbbreviated w || isSpelledOut w then
      some s!"field {name}: field names should not contain reference-related words"
    else none
  | .preferAbbreviatedReference =>
    let ends := [words.head?, words.getLast?]
    if words.any isAbbreviated then none
    else if ends.contains (some "References") then
      some s!"field {name}: field names should use 'Refs' instead of 'References'"
    else if ends.contains (some "Reference") then
      some s!"field {name}: field names should use 'Ref' instead of 'Reference'"
    else none

def check (policy : ReferencePolicy) (ctx : FileContext) : List Diagnostic :=
  ctx.file.fields.filterMap fun (f, _) =>
    if f.isEmbedded || f.jsonTag.ignored then none
    else (message? policy f.displayName).map fun message => { pos := f.pos, message }

end NoReferences
end ApiConventions
