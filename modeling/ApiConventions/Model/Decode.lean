import ApiConventions.Json.Reader
import ApiConventions.Json.Record
import ApiConventions.Model.Basic

/-!
# ApiConventions.Model.Decode

Reading a program from its JSON form. Every decoder fails on a missing field without a default,
on a value of the wrong type and on a repeated field. A type expression is read as a whole, so it
fails on an unreadable part anywhere inside it, also under a key that is otherwise skipped.
-/

namespace ApiConventions

open Json (Record)

def Position.ofJson? (j : Json) : Option Position :=
  match j.record? ["line", "column"] with
  | none => none
  | some r =>
    match r.required? "line" Json.uint64?, r.withDefault? "column" 0 Json.uint64? with
    | some line, some column => some { line, column }
    | _, _ => none

namespace TypeExpr

/-- The kinds of type expressions, in the order of the constructors. -/
def kindNames : List String :=
  ["ident", "pointer", "slice", "array", "map", "struct", "interface", "func", "chan"]

/-- The kind of an expression: its name, or its number where `byNumber` allows that. -/
def kindName? (byNumber : Bool) : Json → Option String
  | .string s => some s
  | .integer n => if byNumber && 0 ≤ n then kindNames[n.toNat]? else none
  | _ => none

mutual
/--
Reads a type expression of at most `fuel` nested parts. Inside another expression (`nested`) the
kind may be given by number.
-/
def decodeWithin : Nat → Bool → Json → Option TypeExpr
  | 0, _, _ => none
  | fuel + 1, nested, j =>
    let part := decodeWithin fuel true
    match j.tagged? "kind" with
    | none => none
    | some (tag, rest) =>
      match kindName? nested tag with
      | some "ident" =>
        match rest.record? ["name", "package", "args"] with
        | none => none
        | some r =>
          match r.required? "name" Json.string?,
              r.withDefault? "package" none (Json.nullable? Json.string?),
              r.withDefault? "args" [] (Json.list? part) with
          | some name, some package, some args => some (.ident name package args)
          | _, _, _ => none
      | some "pointer" => (rest.record? ["elem"]).bind fun r => (r.required? "elem" part).map .pointer
      | some "slice" => (rest.record? ["elem"]).bind fun r => (r.required? "elem" part).map .slice
      | some "array" =>
        match rest.record? ["len", "elem"] with
        | none => none
        | some r =>
          match r.required? "len" Json.uint64?, r.required? "elem" part with
          | some length, some elem => some (.array length elem)
          | _, _ => none
      | some "map" =>
        match rest.record? ["key", "value"] with
        | none => none
        | some r =>
          match r.required? "key" part, r.required? "value" part with
          | some key, some value => some (.map key value)
          | _, _ => none
      | some "struct" =>
        (rest.record? ["fields"]).bind fun r =>
          (r.withDefault? "fields" [] (Json.list? (decodeFieldWithin fuel))).map .struct
      | some "interface" =>
        (rest.record? ["terms"]).bind fun r =>
          (r.withDefault? "terms" [] (Json.list? part)).map .interface
      | some "func" => if rest.isFieldless then some .func else none
      | some "chan" => (rest.record? ["elem"]).bind fun r => (r.required? "elem" part).map .chan
      | _ => none

/-- Reads a field of a struct. -/
def decodeFieldWithin : Nat → Json → Option Field
  | 0, _ => none
  | fuel + 1, j =>
    match j.record? ["name", "pos", "doc", "ty", "tag"] with
    | none => none
    | some r =>
      match r.withDefault? "name" none (Json.nullable? Json.string?),
          r.withDefault? "pos" {} Position.ofJson?,
          r.withDefault? "doc" [] (Json.list? Json.string?),
          r.required? "ty" (decodeWithin fuel true),
          r.withDefault? "tag" none (Json.nullable? Json.string?) with
      | some name, some pos, some doc, some type, some tag => some { name, pos, doc, type, tag }
      | _, _, _, _, _ => none
end

/-- Reads a type expression. Every part is nested inside the value, so its height is enough. -/
def ofJson? (j : Json) : Option TypeExpr :=
  if j.isReadable then decodeWithin j.height false j else none

end TypeExpr

def TypeParam.ofJson? (j : Json) : Option TypeParam :=
  match j.record? ["name", "constraint"] with
  | none => none
  | some r =>
    match r.required? "name" Json.string?, r.required? "constraint" TypeExpr.ofJson? with
    | some name, some constraint => some { name, constraint }
    | _, _ => none

def TypeDecl.ofJson? (j : Json) : Option TypeDecl :=
  match j.record? ["name", "pos", "doc", "alias", "type_params", "ty"] with
  | none => none
  | some r =>
    match r.required? "name" Json.string?,
        r.withDefault? "pos" {} Position.ofJson?,
        r.withDefault? "doc" [] (Json.list? Json.string?),
        r.withDefault? "alias" false Json.bool?,
        r.withDefault? "type_params" [] (Json.list? TypeParam.ofJson?),
        r.required? "ty" TypeExpr.ofJson? with
    | some name, some pos, some doc, some isAlias, some params, some type =>
      some { name, pos, doc, isAlias, params, type }
    | _, _, _, _, _, _ => none

def SourceFile.ofJson? (j : Json) : Option SourceFile :=
  match j.record? ["path", "decls"] with
  | none => none
  | some r =>
    match r.required? "path" Json.string?,
        r.withDefault? "decls" [] (Json.list? TypeDecl.ofJson?) with
    | some path, some decls => some { path, decls }
    | _, _ => none

namespace Package

def ofJson? (j : Json) : Option Package :=
  match j.record? ["path", "name", "files"] with
  | none => none
  | some r =>
    match r.required? "path" Json.string?,
        r.withDefault? "name" "" Json.string?,
        r.withDefault? "files" [] (Json.list? SourceFile.ofJson?) with
    | some path, some name, some files => some { path, name, files }
    | _, _, _ => none

/-- How deeply the text of a package may nest arrays and objects. -/
def maxDepth : Nat := 127

/-- Reads a package from its text. -/
def read? (text : String) : Option Package :=
  (Json.read? maxDepth text).bind ofJson?

end Package
end ApiConventions
