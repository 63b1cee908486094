import ApiConventions.Model.Basic
import ApiConventions.Resolution.Kind

/-!
# ApiConventions.Resolution.Reference

Type references: a type expression with the scope it is written in, which is a package and the
type parameters that are bound there. `Program.referent?` says what a type name refers to.

The arguments of a generic type are bound in the scope of the use. A parameter without an
argument stands for its constraint, in the scope of the declaration with the parameters before it.
-/

namespace ApiConventions

/-- A type expression in its scope. The innermost binding of a parameter comes first. -/
structure TypeRef where
  expr : TypeExpr
  package : Package
  bindings : List (String × TypeRef)
deriving Inhabited

namespace TypeRef

/-- An expression written where no type parameter is bound. -/
def closed (expr : TypeExpr) (package : Package) : TypeRef :=
  { expr, package, bindings := [] }

/-- Another expression in the same scope. -/
def withExpr (t : TypeRef) (expr : TypeExpr) : TypeRef :=
  { t with expr }

end TypeRef

/-- A named type met on the way to a kind. -/
structure Link where
  /-- Import path of the package. -/
  package : String
  name : String
  /-- The declaration, when the program has it. -/
  decl : Option TypeDecl

/--
Binds parameters from the left: to the arguments, which are written in the scope of `site`, and
beyond them to the constraints, which are written in `package`.
-/
def bindParams (site : TypeRef) (package : Package) (bound : List (String × TypeRef)) :
    List TypeParam → List TypeExpr → List (String × TypeRef)
  | [], _ => bound
  | p :: ps, arg :: args => bindParams site package ((p.name, site.withExpr arg) :: bound) ps args
  | p :: ps, [] =>
    bindParams site package ((p.name, { expr := p.constraint, package, bindings := bound }) :: bound)
      ps []

namespace TypeDecl

/-- The bindings of a declaration's parameters for arguments written at `site`. -/
def instantiate (d : TypeDecl) (package : Package) (args : List TypeExpr) (site : TypeRef) :
    List (String × TypeRef) :=
  bindParams site package [] d.params args

/-- The bindings inside the declaration itself, where every parameter is its constraint. -/
def scopeBindings (d : TypeDecl) (package : Package) : List (String × TypeRef) :=
  d.instantiate package [] (TypeRef.closed d.type package)

end TypeDecl

/-- What a type name refers to. -/
inductive Referent where
  /-- A bound type parameter. -/
  | param (target : TypeRef)
  /-- A declaration of the program, whose right-hand side is `body`. -/
  | decl (package : Package) (decl : TypeDecl) (body : TypeRef)
  | predeclared (kind : Kind)
  /-- A well-known type outside the program, and the basic type it is defined as. -/
  | known (link : Link) (underlying : Option BasicKind)
  | unknown (link : Link)

/-- Import path of the package of API metadata. -/
def metaPackage : String := "k8s.io/apimachinery/pkg/apis/meta/v1"

/-- Import path of the package of resource quantities. -/
def resourcePackage : String := "k8s.io/apimachinery/pkg/api/resource"

/-- Import path of the package of times and durations. -/
def timePackage : String := "time"

/-- The well-known types: package, name, and the basic type each is defined as. -/
def knownTypes : List (String × String × Option BasicKind) :=
  [(timePackage, "Duration", some .int64),
   (metaPackage, "Duration", none),
   (metaPackage, "Time", none),
   (metaPackage, "MicroTime", none),
   (resourcePackage, "Quantity", none)]

def knownType? (package name : String) : Option (Option BasicKind) :=
  (knownTypes.find? fun (p, n, _) => p == package && n == name).map (·.2.2)

namespace Program

/-- A declaration with its parameters bound, as a referent. -/
def declReferent (package : Package) (decl : TypeDecl) (args : List TypeExpr) (site : TypeRef) :
    Referent :=
  .decl package decl
    { expr := decl.type, package, bindings := decl.instantiate package args site }

/--
What an unqualified name refers to: a bound parameter if it has no arguments, then a declaration
of the own package, then a predeclared type.
-/
def unqualified (t : TypeRef) (name : String) (args : List TypeExpr) : Referent :=
  match if args.isEmpty then t.bindings.lookup name else none with
  | some target => .param target
  | none =>
    match t.package.decl? name with
    | some decl => declReferent t.package decl args t
    | none =>
      match Kind.predeclared? name with
      | some kind => .predeclared kind
      | none => .unknown { package := t.package.path, name, decl := none }

/-- What a qualified name refers to: a declaration of the program, then a well-known type. -/
def qualified (p : Program) (t : TypeRef) (path name : String) (args : List TypeExpr) : Referent :=
  match (p.package? path).bind fun package => (package.decl? name).map (package, ·) with
  | some (package, decl) => declReferent package decl args t
  | none =>
    let link : Link := { package := path, name, decl := none }
    match knownType? path name with
    | some underlying => .known link underlying
    | none => .unknown link

/-- What a type name refers to; nothing for every other expression. -/
def referent? (p : Program) (t : TypeRef) : Option Referent :=
  match t.expr with
  | .ident name none args => some (unqualified t name args)
  | .ident name (some path) args => some (p.qualified t path name args)
  | _ => none

end Program
end ApiConventions
