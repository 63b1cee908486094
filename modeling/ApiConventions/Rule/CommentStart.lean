import ApiConventions.Inspection
import ApiConventions.Rule.Diagnostic

/-!
# ApiConventions.Rule.CommentStart

The comment of a field starts with its serialized name.
-/

namespace ApiConventions
namespace CommentStart

/-- The prose of a comment block on one line. -/
def proseText (doc : List String) : String :=
  String.intercalate " " ((Comment.prose doc).filter (!·.isEmpty))

/-- Whether a text is a word, or starts with the word and a blank. -/
def startsWith (text word : String) : Bool :=
  text == word || (word ++ " ").toList.isPrefixOf text.toList

def checkField (f : Field) : Option Diagnostic :=
  let word := f.jsonTag.name
  let name := f.displayName
  let text := proseText f.doc
  if f.isSkipped || word.isEmpty then none
  else if text.isEmpty then
    some { pos := f.pos, message := s!"field {name} is missing godoc comment" }
  else if startsWith text word then none
  else
    some
      { pos := f.pos
        message := s!"godoc for field {name} should start with '{word} ...'"
        suggestion := some s!"start the comment with '{word}'" }

def check (ctx : FileContext) : List Diagnostic :=
  ctx.file.fields.filterMap fun (f, _) => checkField f

end CommentStart
end ApiConventions
