import ApiConventions.Constraint.Extract
import ApiConventions.Model.Traversal

/-!
# ApiConventions.Inspection

What is known about the declarations and fields of a file: their markers, their resolved types,
their constraints and the malformed marker values. Inside a generic declaration every type
parameter stands for its constraint.
-/

namespace ApiConventions

/-- A file with the program it belongs to. -/
structure FileContext where
  program : Program
  package : Package
  file : SourceFile
  registry : Registry

/-- What is known about a field. -/
structure FieldInfo where
  field : Field
  markers : MarkerSet
  resolved : Resolved
  constraints : Constraints
  errors : List ValueError

/-- What is known about a declaration. -/
structure DeclInfo where
  decl : TypeDecl
  markers : MarkerSet
  resolved : Resolved
  constraints : Constraints
  errors : List ValueError

namespace FileContext

def extractor (ctx : FileContext) : Extractor :=
  { program := ctx.program, registry := ctx.registry }

def markers (ctx : FileContext) (doc : List String) : MarkerSet :=
  ctx.registry.parse doc

/-- A type expression written inside a declaration of the file. -/
def typeRef (ctx : FileContext) (expr : TypeExpr) (scope : TypeDecl) : TypeRef :=
  { expr, package := ctx.package, bindings := scope.scopeBindings ctx.package }

/-- The right-hand side of a declaration of the file. -/
def declType (ctx : FileContext) (decl : TypeDecl) : TypeRef :=
  ctx.typeRef decl.type decl

def resolve (ctx : FileContext) (expr : TypeExpr) (scope : TypeDecl) : Resolved :=
  ctx.program.resolve (ctx.typeRef expr scope)

def inspectField (ctx : FileContext) (field : Field) (scope : TypeDecl) : FieldInfo :=
  let resolved := ctx.resolve field.type scope
  let extraction := ctx.extractor.ofField field resolved
  { field
    markers := ctx.markers field.doc
    resolved
    constraints := extraction.constraints
    errors := extraction.errors }

def inspectDecl (ctx : FileContext) (decl : TypeDecl) : DeclInfo :=
  let resolved := ctx.program.resolve (ctx.declType decl)
  let extraction := ctx.extractor.ofDecl decl resolved
  { decl
    markers := ctx.markers decl.doc
    resolved
    constraints := extraction.constraints
    errors := extraction.errors }

end FileContext
end ApiConventions
