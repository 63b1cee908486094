import ApiConventions.Inspection
import ApiConventions.Rule.Diagnostic

/-!
# ApiConventions.Rule.TypeUsage

Conventions on which types are used. A use is looked for through pointers, list elements, map
keys and map values. Aliases and type parameters are seen through, defined types are not: what
they stand for is reported at their own declaration. Slices of bytes are never entered.
-/

namespace ApiConventions

/-- How deeply a type expression is searched. -/
def maxUsageDepth : Nat := 33

/-- The parts of a type expression on the way to a use, outermost first. -/
abbrev LayerPath := List String

/-- The description of a place inside a type, and nothing for the type itself. -/
def LayerPath.name? (layer : LayerPath) : Option String :=
  if layer.isEmpty then none else some (String.intercalate " " layer)

namespace Program

/-- The type names used in a type, each with the place where it is used. -/
def usesWithin (p : Program) : Nat → LayerPath → TypeRef → List (Referent × LayerPath)
  | 0, _, _ => []
  | n + 1, layer, t =>
    let t := p.peelAliases t
    match t.expr with
    | .pointer elem => p.usesWithin n (layer ++ ["pointer"]) (t.withExpr elem)
    | .slice elem =>
      if p.isByteSlice t then [] else p.usesWithin n (layer ++ ["array element"]) (t.withExpr elem)
    | .array _ elem => p.usesWithin n (layer ++ ["array element"]) (t.withExpr elem)
    | .map key value =>
      p.usesWithin n (layer ++ ["map key"]) (t.withExpr key) ++
        p.usesWithin n (layer ++ ["map value"]) (t.withExpr value)
    | .interface [term] => p.usesWithin n layer (t.withExpr term)
    | .ident _ _ _ => (p.referent? t).toList.map (·, layer)
    | _ => []

def uses (p : Program) (t : TypeRef) : List (Referent × LayerPath) :=
  p.usesWithin maxUsageDepth [] t

end Program

namespace TypeUsage

/-- The diagnostic for a use, when there is a complaint about what is used. -/
def diagnose? (complaint? : Referent → Option String) (subject : Subject) (pos : Position)
    (use : Referent × LayerPath) : Option Diagnostic :=
  (complaint? use.1).map fun complaint =>
    let place := (use.2.name?.map (· ++ " ")).getD ""
    { pos, message := subject.text ++ " " ++ place ++ complaint, fact := use.2.name? }

/-- Every use in the declarations and the named fields of a file that there is a complaint about. -/
def check (complaint? : Referent → Option String) (ctx : FileContext) : List Diagnostic :=
  let inType (subject : Subject) (pos : Position) (t : TypeRef) : List Diagnostic :=
    (ctx.program.uses t).filterMap (diagnose? complaint? subject pos)
  let decls := ctx.file.decls.flatMap fun d => inType (.type d.name) d.pos (ctx.declType d)
  let named := ctx.file.fields.filter fun (f, _) => !f.isEmbedded
  let fields := named.flatMap fun (f, scope) =>
    inType (.field f.displayName) f.pos (ctx.typeRef f.type scope)
  Diagnostic.sort (decls ++ fields)

/-! ## Complaints -/

/-- The basic type of a predeclared name. -/
def basic? : Referent → Option BasicKind
  | .predeclared (.basic b) => some b
  | _ => none

def boolComplaint? (r : Referent) : Option String :=
  if basic? r = some .bool then
    some ("should not use a bool. Use a string type with meaningful constant values as an enum.")
  else none

def floatComplaint? (r : Referent) : Option String :=
  if (basic? r).any (·.isFloat) then
    some "should not use a float value because they cannot be reliably round-tripped."
  else none

/-- Of the integers only `int32` and `int64` are without a complaint. -/
def integerComplaint? (r : Referent) : Option String :=
  match basic? r with
  | some .int | some .int8 | some .int16 =>
    some ("should not use an int, int8 or int16. Use int32 or int64 depending on bounding " ++
      "requirements")
  | some b =>
    if b.isUnsigned then
      some ("should not use unsigned integers, use only int32 or int64 and apply validation to " ++
        "ensure the value is positive")
    else none
  | none => none

def isDuration (package name : String) : Bool :=
  name == "Duration" && (package == timePackage || package == metaPackage)

/-- The package and the name of a type that is neither predeclared nor a parameter. -/
def typeName? : Referent → Option (String × String)
  | .known link _ => some (link.package, link.name)
  | .unknown link => some (link.package, link.name)
  | .decl package decl _ => some (package.path, decl.name)
  | _ => none

def durationComplaint? (r : Referent) : Option String :=
  if (typeName? r).any fun (package, name) => isDuration package name then
    some ("should not use a Duration. Use an integer type with units in the name to avoid the " ++
      "need for clients to implement Go style duration parsing.")
  else none

end TypeUsage
end ApiConventions
