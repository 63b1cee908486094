import ApiConventions.Model.Basic

/-!
# ApiConventions.Model.Traversal

The fields of a type expression, a declaration and a file, in source order: a field comes before
the fields of the anonymous structs inside its own type, and the key of a map before its value.
Arguments of a type name and terms of an interface are not entered.
-/

namespace ApiConventions

mutual
/-- The fields that occur in a type expression. -/
def TypeExpr.fields : TypeExpr → List Field
  | .struct members => fieldsOfMembers members
  | .pointer elem => elem.fields
  | .slice elem => elem.fields
  | .array _ elem => elem.fields
  | .chan elem => elem.fields
  | .map key value => key.fields ++ value.fields
  | .ident _ _ _ => []
  | .interface _ => []
  | .func => []

def fieldsOfMembers : List Field → List Field
  | [] => []
  | ⟨name, pos, doc, type, tag⟩ :: rest =>
    ⟨name, pos, doc, type, tag⟩ :: (type.fields ++ fieldsOfMembers rest)
end

/-- Every field of a file with the declaration in which it occurs. -/
def SourceFile.fields (f : SourceFile) : List (Field × TypeDecl) :=
  f.decls.flatMap fun decl => decl.type.fields.map (·, decl)

end ApiConventions
