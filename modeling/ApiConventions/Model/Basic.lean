import ApiConventions.StructTag

/-!
# ApiConventions.Model.Basic

Programs: packages of source files, which declare named types over type expressions. Comment
lines and struct tags are kept as written.
-/

namespace ApiConventions

/-- A place in a source file. -/
structure Position where
  line : UInt64 := 0
  column : UInt64 := 0
deriving DecidableEq, Repr, Inhabited

mutual
/-- A type as it is written. -/
inductive TypeExpr where
  /-- A type name: qualified by the path of its package or not, and applied to arguments. -/
  | ident (name : String) (package : Option String) (args : List TypeExpr)
  | pointer (elem : TypeExpr)
  | slice (elem : TypeExpr)
  | array (length : UInt64) (elem : TypeExpr)
  | map (key value : TypeExpr)
  | struct (fields : List Field)
  /-- An interface with the terms of its type set; there are none without a type set. -/
  | interface (terms : List TypeExpr)
  | func
  | chan (elem : TypeExpr)
deriving Repr

/-- A member of a struct. An embedded field has no name. -/
structure Field where
  name : Option String
  pos : Position
  doc : List String
  type : TypeExpr
  tag : Option String
deriving Repr
end

instance : Inhabited TypeExpr := ⟨.func⟩

namespace TypeExpr

/-- The name of a type name, whatever its package and arguments. -/
def name? : TypeExpr → Option String
  | .ident name _ _ => some name
  | _ => none

/-- The type at the end of a chain of pointers. -/
def pointee : TypeExpr → TypeExpr
  | .pointer elem => elem.pointee
  | type => type

end TypeExpr

namespace Field

def isEmbedded (f : Field) : Bool :=
  f.name.isNone

/-- The name for messages: the field's own, or that of the embedded type. -/
def displayName (f : Field) : String :=
  f.name.getD (f.type.pointee.name?.getD "")

def jsonTag (f : Field) : JsonTag :=
  JsonTag.ofStructTag (f.tag.getD "")

/--
Whether the members of the field are serialized into the enclosing object: it is tagged inline,
or embedded without a name of its own.
-/
def isInline (f : Field) : Bool :=
  f.jsonTag.inline || (f.isEmbedded && !f.jsonTag.ignored && f.jsonTag.name.isEmpty)

/-- Whether the field is not a property of its own: embedded, inline, or never serialized. -/
def isSkipped (f : Field) : Bool :=
  f.isEmbedded || f.jsonTag.inline || f.jsonTag.ignored

end Field

structure TypeParam where
  name : String
  constraint : TypeExpr
deriving Repr

/-- A declaration of a named type: a new type, or an alias of another one. -/
structure TypeDecl where
  name : String
  pos : Position
  doc : List String
  isAlias : Bool
  params : List TypeParam
  type : TypeExpr
deriving Repr

structure SourceFile where
  path : String
  decls : List TypeDecl
deriving Repr

structure Package where
  path : String
  name : String
  files : List SourceFile
deriving Repr

instance : Inhabited Package := ⟨⟨"", "", []⟩⟩

namespace Package

/-- The declarations of all files, file by file. -/
def decls (p : Package) : List TypeDecl :=
  p.files.flatMap (·.decls)

/-- The first declaration of a name. -/
def decl? (p : Package) (name : String) : Option TypeDecl :=
  p.decls.find? (·.name == name)

end Package

/-- The packages that can refer to one another. -/
structure Program where
  packages : List Package
deriving Repr

namespace Program

/-- The package with an import path; of several, the one loaded last. -/
def package? (p : Program) (path : String) : Option Package :=
  p.packages.findRev? (·.path == path)

end Program
end ApiConventions
