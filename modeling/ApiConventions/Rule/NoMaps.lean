import ApiConventions.Inspection
import ApiConventions.Rule.Diagnostic

/-!
# ApiConventions.Rule.NoMaps

Maps should be lists with a key. Some maps are tolerated, by their types or by the name of the
field.
-/

namespace ApiConventions

/-- Which maps are tolerated by their types. -/
inductive MapPolicy where
  | enforce
  /-- Maps of strings to strings. -/
  | allowStringToStringMaps
  /-- Maps of basic types to basic types. -/
  | ignore
deriving DecidableEq, Repr

def MapPolicy.ofName? : String → Option MapPolicy
  | "Enforce" => some .enforce
  | "AllowStringToStringMaps" => some .allowStringToStringMaps
  | "Ignore" => some .ignore
  | _ => none

structure MapOptions where
  policy : MapPolicy := .enforce
  /-- Fields with these names may be maps. -/
  allowedFieldNames : List String := ["Labels", "Annotations"]
deriving DecidableEq, Repr

def Kind.isBasic : Kind → Bool
  | .basic _ => true
  | _ => false

namespace NoMaps

/-- Whether a map with these key and value kinds is tolerated. -/
def tolerates (policy : MapPolicy) (key value : Kind) : Bool :=
  match policy with
  | .enforce => false
  | .allowStringToStringMaps => key = .basic .string && value = .basic .string
  | .ignore => key.isBasic && value.isBasic

/-- Whether a type is a map that is not tolerated. -/
def isReported (o : MapOptions) (p : Program) (r : Resolved) : Bool :=
  match r.kind, r.mapParts? with
  | .map, some (key, value) => !tolerates o.policy (p.resolve key).kind (p.resolve value).kind
  | _, _ => false

def diagnostic (pos : Position) (subject : Subject) : Diagnostic :=
  { pos
    message :=
      subject.text ++ " should not use a map type, use a list type with a unique name/identifier " ++
        "instead" }

def checkDecl (o : MapOptions) (ctx : FileContext) (d : TypeDecl) : List Diagnostic :=
  if !d.isAlias && isReported o ctx.program (ctx.program.resolve (ctx.declType d)) then
    [diagnostic d.pos (.type d.name)]
  else []

def checkField (o : MapOptions) (ctx : FileContext) (f : Field) (scope : TypeDecl) :
    List Diagnostic :=
  if f.isEmbedded || o.allowedFieldNames.contains f.displayName then []
  else if isReported o ctx.program (ctx.resolve f.type scope) then
    [diagnostic f.pos (.field f.displayName)]
  else []

def check (o : MapOptions) (ctx : FileContext) : List Diagnostic :=
  Diagnostic.sort
    (ctx.file.decls.flatMap (checkDecl o ctx) ++
      ctx.file.fields.flatMap fun (f, scope) => checkField o ctx f scope)

end NoMaps
end ApiConventions
