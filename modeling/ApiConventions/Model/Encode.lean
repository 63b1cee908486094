import ApiConventions.Json.Basic
import ApiConventions.Model.Basic

/-!
# ApiConventions.Model.Encode

The JSON form of a program. Absent names, packages and tags are left out, and so are empty lists
of arguments, terms, comment lines and type parameters; everything else is always written.
-/

namespace ApiConventions

def Position.toJson (p : Position) : Json :=
  .object [("line", .ofNat p.line.toNat), ("column", .ofNat p.column.toNat)]

namespace Json

/-- A member that is left out when the value is absent. -/
def optionalMember (key : String) (value : Option String) : List (String × Json) :=
  match value with
  | none => []
  | some s => [(key, .string s)]

/-- A member that is left out when the list is empty. -/
def listMember (key : String) (items : List Json) : List (String × Json) :=
  if items.isEmpty then [] else [(key, .array items)]

end Json

mutual
def TypeExpr.toJson : TypeExpr → Json
  | .ident name package args =>
    .object ([("kind", .string "ident"), ("name", .string name)] ++
      Json.optionalMember "package" package ++ Json.listMember "args" (TypeExpr.listToJson args))
  | .pointer elem => .object [("kind", .string "pointer"), ("elem", elem.toJson)]
  | .slice elem => .object [("kind", .string "slice"), ("elem", elem.toJson)]
  | .array length elem =>
    .object [("kind", .string "array"), ("len", .ofNat length.toNat), ("elem", elem.toJson)]
  | .map key value =>
    .object [("kind", .string "map"), ("key", key.toJson), ("value", value.toJson)]
  | .struct fields =>
    .object [("kind", .string "struct"), ("fields", .array (TypeExpr.fieldsToJson fields))]
  | .interface terms =>
    .object ([("kind", .string "interface")] ++
      Json.listMember "terms" (TypeExpr.listToJson terms))
  | .func => .object [("kind", .string "func")]
  | .chan elem => .object [("kind", .string "chan"), ("elem", elem.toJson)]

def TypeExpr.listToJson : List TypeExpr → List Json
  | [] => []
  | e :: rest => e.toJson :: TypeExpr.listToJson rest

def TypeExpr.fieldsToJson : List Field → List Json
  | [] => []
  | f :: rest => f.toJson :: TypeExpr.fieldsToJson rest

def Field.toJson : Field → Json
  | ⟨name, pos, doc, type, tag⟩ =>
    .object (Json.optionalMember "name" name ++ [("pos", pos.toJson)] ++
      Json.listMember "doc" (doc.map .string) ++ [("ty", type.toJson)] ++
      Json.optionalMember "tag" tag)
end

def TypeParam.toJson (p : TypeParam) : Json :=
  .object [("name", .string p.name), ("constraint", p.constraint.toJson)]

def TypeDecl.toJson (d : TypeDecl) : Json :=
  .object ([("name", .string d.name), ("pos", d.pos.toJson)] ++
    Json.listMember "doc" (d.doc.map .string) ++ [("alias", .bool d.isAlias)] ++
    Json.listMember "type_params" (d.params.map (·.toJson)) ++ [("ty", d.type.toJson)])

def SourceFile.toJson (f : SourceFile) : Json :=
  .object [("path", .string f.path), ("decls", .array (f.decls.map (·.toJson)))]

def Package.toJson (p : Package) : Json :=
  .object [("path", .string p.path), ("name", .string p.name),
    ("files", .array (p.files.map (·.toJson)))]

end ApiConventions
