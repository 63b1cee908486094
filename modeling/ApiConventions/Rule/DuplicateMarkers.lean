import ApiConventions.Inspection
import ApiConventions.Rule.Diagnostic

/-!
# ApiConventions.Rule.DuplicateMarkers

A marker is not repeated with the same value.
-/

namespace ApiConventions
namespace DuplicateMarkers

def checkDoc (ctx : FileContext) (pos : Position) (subject : Subject) (doc : List String) :
    List Diagnostic :=
  (ctx.markers doc).duplicates.map fun m =>
    { pos
      message := subject.text ++ " has duplicated markers " ++ m.raw
      suggestion := some ("keep a single +" ++ m.raw) }

def check (ctx : FileContext) : List Diagnostic :=
  Diagnostic.sort
    (ctx.file.decls.flatMap (fun d => checkDoc ctx d.pos (.type d.name) d.doc) ++
      ctx.file.fields.flatMap fun (f, _) => checkDoc ctx f.pos (.field f.displayName) f.doc)

end DuplicateMarkers
end ApiConventions
