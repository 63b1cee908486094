import ApiConventions.Model.Decode
import ApiConventions.Proofs.Json.Record
import ApiConventions.Proofs.Model.TypeExpr

/-!
# ApiConventions.Proofs.Model.RoundTrip

The JSON form of a package loses nothing: what is written is read back as it was. Every type of
the model is an object of entries (`toJson_eq`), from which a record finds under each key what was
written there; for type expressions, which nest, the induction is on the expression, and the
height of its JSON form is enough for every part of it.
-/

namespace ApiConventions

open Json (Entries present nonempty recordOf)

theorem Position.ofJson?_toJson (p : Position) : Position.ofJson? p.toJson = some p := by
  let es : Entries :=
    [("line", some (.ofNat p.line.toNat)), ("column", some (.ofNat p.column.toNat))]
  have keys : (es.map (·.1)).Nodup := by simp [es]
  have record : p.toJson.record? ["line", "column"] = some (recordOf es) :=
    Json.record?_present keys
  have line : (recordOf es).required? "line" Json.uint64? = some p.line :=
    Json.Record.required?_recordOf keys rfl (Json.uint64?_ofNat p.line)
  have column : (recordOf es).withDefault? "column" 0 Json.uint64? = some p.column :=
    Json.Record.withDefault?_recordOf keys rfl (Json.uint64?_ofNat p.column)
  simp only [Position.ofJson?, record, line, column]

theorem listToJson_eq (es : List TypeExpr) : TypeExpr.listToJson es = es.map (·.toJson) := by
  induction es with
  | nil => rfl
  | cons e es ih => rw [TypeExpr.listToJson, ih, List.map_cons]

theorem fieldsToJson_eq (fs : List Field) : TypeExpr.fieldsToJson fs = fs.map (·.toJson) := by
  induction fs with
  | nil => rfl
  | cons f fs ih => rw [TypeExpr.fieldsToJson, ih, List.map_cons]

/-! ## Fields -/

namespace Field

variable {f : Field}

def entries (f : Field) : Entries :=
  [("name", f.name.map .string), ("pos", some f.pos.toJson),
    ("doc", nonempty (f.doc.map .string)), ("ty", some f.type.toJson), ("tag", f.tag.map .string)]

theorem toJson_eq (f : Field) : f.toJson = .object (present f.entries) := by
  obtain ⟨name, pos, doc, type, tag⟩ := f
  rw [toJson, Json.optionalMember_eq, Json.optionalMember_eq, Json.listMember_eq]
  show Json.object (present [_] ++ present [("pos", some pos.toJson)] ++ present [_] ++
    present [("ty", some type.toJson)] ++ present [_]) = _
  simp only [← Json.present_append]
  rfl

theorem decodeFieldWithin_toJson {fuel : Nat} (h : f.toJson.height ≤ fuel + 1)
    (type : f.type.toJson.height ≤ fuel →
      TypeExpr.decodeWithin fuel true f.type.toJson = some f.type) :
    TypeExpr.decodeFieldWithin (fuel + 1) f.toJson = some f := by
  have keys : (f.entries.map (·.1)).Nodup := by simp [entries]
  have record : f.toJson.record? ["name", "pos", "doc", "ty", "tag"] =
      some (recordOf f.entries) := by
    rw [toJson_eq]
    exact Json.record?_present keys
  have inner : f.type.toJson.height ≤ fuel := by
    rw [toJson_eq] at h
    have parts := Json.membersHeight_le_iff.1 (Nat.le_of_succ_le_succ h)
    exact parts ("ty", f.type.toJson) (Json.mem_present.2 (by simp [entries]))
  have name : (recordOf f.entries).withDefault? "name" none (Json.nullable? Json.string?) =
    some f.name := Json.Record.withDefault?_text keys rfl
  have pos : (recordOf f.entries).withDefault? "pos" {} Position.ofJson? = some f.pos :=
    Json.Record.withDefault?_recordOf keys rfl f.pos.ofJson?_toJson
  have doc : (recordOf f.entries).withDefault? "doc" [] (Json.list? Json.string?) = some f.doc :=
    Json.Record.withDefault?_list keys rfl fun _ _ => rfl
  have ty : (recordOf f.entries).required? "ty" (TypeExpr.decodeWithin fuel true) =
    some f.type := Json.Record.required?_recordOf keys rfl (type inner)
  have tag : (recordOf f.entries).withDefault? "tag" none (Json.nullable? Json.string?) =
    some f.tag := Json.Record.withDefault?_text keys rfl
  simp only [TypeExpr.decodeFieldWithin, record, name, pos, doc, ty, tag]
  cases f
  rfl

end Field

/-! ## Type expressions -/

namespace TypeExpr

def kindName : TypeExpr → String
  | .ident _ _ _ => "ident"
  | .pointer _ => "pointer"
  | .slice _ => "slice"
  | .array _ _ => "array"
  | .map _ _ => "map"
  | .struct _ => "struct"
  | .interface _ => "interface"
  | .func => "func"
  | .chan _ => "chan"

/-- What is written beside the kind. -/
def entries : TypeExpr → Entries
  | .ident name package args =>
    [("name", some (.string name)), ("package", package.map .string),
      ("args", nonempty (args.map (·.toJson)))]
  | .pointer elem => [("elem", some elem.toJson)]
  | .slice elem => [("elem", some elem.toJson)]
  | .array length elem => [("len", some (.ofNat length.toNat)), ("elem", some elem.toJson)]
  | .map key value => [("key", some key.toJson), ("value", some value.toJson)]
  | .struct fields => [("fields", some (.array (fields.map (·.toJson))))]
  | .interface terms => [("terms", nonempty (terms.map (·.toJson)))]
  | .func => []
  | .chan elem => [("elem", some elem.toJson)]

theorem toJson_eq (e : TypeExpr) :
    e.toJson = .object (("kind", .string e.kindName) :: present e.entries) := by
  cases e with
  | ident name package args =>
    rw [toJson, Json.optionalMember_eq, Json.listMember_eq, listToJson_eq]
    show Json.object (("kind", _) :: (present [("name", some (.string name))] ++
      (present [_] ++ present [_]))) = _
    simp only [← Json.present_append]
    rfl
  | interface terms => rw [toJson, Json.listMember_eq, listToJson_eq]; rfl
  | struct fields => rw [toJson, fieldsToJson_eq]; rfl
  | pointer e => rfl
  | slice e => rfl
  | array n e => rfl
  | map k v => rfl
  | func => rfl
  | chan e => rfl

theorem kind_notMem_entries (e : TypeExpr) : "kind" ∉ e.entries.map (·.1) := by
  cases e with
  | _ => simp [entries]

theorem nodup_entries (e : TypeExpr) : (e.entries.map (·.1)).Nodup := by
  cases e with
  | _ => simp [entries]

theorem tagged?_toJson (e : TypeExpr) :
    e.toJson.tagged? "kind" = some (.string e.kindName, .object (present e.entries)) := by
  rw [toJson_eq]
  exact Json.tagged?_present e.kind_notMem_entries _

theorem record?_entries (e : TypeExpr) :
    (Json.object (present e.entries)).record? (e.entries.map (·.1)) =
      some (recordOf e.entries) :=
  Json.record?_present e.nodup_entries

/-- The parts of an expression need less fuel than the expression. -/
theorem height_le_of_entry {e : TypeExpr} {fuel : Nat} (h : e.toJson.height ≤ fuel + 1)
    {key : String} {j : Json} (written : e.entries.lookup key = some (some j)) :
    j.height ≤ fuel := by
  have mem : (key, some j) ∈ e.entries := by
    obtain ⟨l, l', hl, -⟩ := List.lookup_eq_some_iff.1 written
    simp [hl]
  rw [toJson_eq] at h
  have parts := Json.membersHeight_le_iff.1 (Nat.le_of_succ_le_succ h)
  exact parts (key, j) (List.mem_cons_of_mem _ (Json.mem_present.2 mem))

theorem height_lt_of_item {e : TypeExpr} {fuel : Nat} (h : e.toJson.height ≤ fuel + 1)
    {key : String} {items : List Json} (written : e.entries.lookup key = some (some (.array items)))
    {j : Json} (hj : j ∈ items) : j.height < fuel := by
  have array : Json.listHeight items + 1 ≤ fuel := height_le_of_entry h written
  have item := Json.listHeight_le_iff.1 (Nat.le_refl (Json.listHeight items)) j hj
  omega

theorem exists_fuel {e : TypeExpr} {fuel : Nat} (h : e.toJson.height ≤ fuel) :
    ∃ rest, fuel = rest + 1 := by
  rw [toJson_eq, Json.height] at h
  exact ⟨fuel - 1, by omega⟩

/-- With fuel for its height, the JSON form of an expression is read back. -/
def IsReadBack (e : TypeExpr) : Prop :=
  ∀ (fuel : Nat) (nested : Bool), e.toJson.height ≤ fuel →
    decodeWithin fuel nested e.toJson = some e

section Parts

variable {e : TypeExpr} {fuel : Nat} (h : e.toJson.height ≤ fuel + 1) (key : String)

include h in
theorem required?_part {part : TypeExpr} (ih : part.IsReadBack)
    (written : e.entries.lookup key = some (some part.toJson)) :
    (recordOf e.entries).required? key (decodeWithin fuel true) = some part :=
  Json.Record.required?_recordOf e.nodup_entries written
    (ih fuel true (height_le_of_entry h written))

include h in
theorem withDefault?_parts {parts : List TypeExpr} (ih : ∀ part ∈ parts, part.IsReadBack)
    (written : e.entries.lookup key = some (nonempty (parts.map (·.toJson)))) :
    (recordOf e.entries).withDefault? key [] (Json.list? (decodeWithin fuel true)) =
      some parts := by
  refine Json.Record.withDefault?_list e.nodup_entries written ?_
  intro part hpart
  have mem : part.toJson ∈ parts.map (·.toJson) := List.mem_map_of_mem hpart
  rw [Json.nonempty_of_mem mem] at written
  exact ih part hpart fuel true (Nat.le_of_lt (height_lt_of_item h written mem))

end Parts

theorem decodeFields_toJson {fields : List Field} {fuel : Nat}
    (h : (struct fields).toJson.height ≤ fuel + 1) (ih : ∀ f ∈ fields, f.type.IsReadBack) :
    (recordOf (struct fields).entries).withDefault? "fields" []
      (Json.list? (decodeFieldWithin fuel)) = some fields := by
  have keys := (struct fields).nodup_entries
  have written : (struct fields).entries.lookup "fields" =
    some (some (.array (fields.map (·.toJson)))) := rfl
  refine Json.Record.withDefault?_recordOf keys written (Json.Record.list?_map ?_)
  intro f hf
  have lower : f.toJson.height < fuel := height_lt_of_item h written (List.mem_map_of_mem hf)
  obtain ⟨rest, rfl⟩ : ∃ rest, fuel = rest + 1 := ⟨fuel - 1, by omega⟩
  exact Field.decodeFieldWithin_toJson (Nat.le_of_lt lower) (ih f hf rest true)

theorem isReadBack (e : TypeExpr) : e.IsReadBack := by
  induction e with
  | ident name package args ih =>
    intro fuel nested h
    obtain ⟨fuel, rfl⟩ := exists_fuel h
    have keys := (ident name package args).nodup_entries
    have record : (Json.object (present (ident name package args).entries)).record?
      ["name", "package", "args"] = some _ := record?_entries (ident name package args)
    have hname : (recordOf (ident name package args).entries).required? "name" Json.string? =
      some name := Json.Record.required?_recordOf keys rfl rfl
    have hpackage : (recordOf (ident name package args).entries).withDefault? "package" none
      (Json.nullable? Json.string?) = some package := Json.Record.withDefault?_text keys rfl
    have hargs : (recordOf (ident name package args).entries).withDefault? "args" []
      (Json.list? (decodeWithin fuel true)) = some args := withDefault?_parts h "args" ih rfl
    rw [decodeWithin, tagged?_toJson]
    simp only [kindName?, kindName, record, hname, hpackage, hargs]
  | pointer e ih =>
    intro fuel nested h
    obtain ⟨fuel, rfl⟩ := exists_fuel h
    have record : (Json.object (present (pointer e).entries)).record? ["elem"] = some _ :=
      record?_entries (pointer e)
    rw [decodeWithin, tagged?_toJson]
    simp only [kindName?, kindName, record, Option.bind_some, required?_part h "elem" ih rfl,
      Option.map_some]
  | slice e ih =>
    intro fuel nested h
    obtain ⟨fuel, rfl⟩ := exists_fuel h
    have record : (Json.object (present (slice e).entries)).record? ["elem"] = some _ :=
      record?_entries (slice e)
    rw [decodeWithin, tagged?_toJson]
    simp only [kindName?, kindName, record, Option.bind_some, required?_part h "elem" ih rfl,
      Option.map_some]
  | array n e ih =>
    intro fuel nested h
    obtain ⟨fuel, rfl⟩ := exists_fuel h
    have keys := (array n e).nodup_entries
    have record : (Json.object (present (array n e).entries)).record? ["len", "elem"] = some _ :=
      record?_entries (array n e)
    have hlength : (recordOf (array n e).entries).required? "len" Json.uint64? = some n :=
      Json.Record.required?_recordOf keys rfl (Json.uint64?_ofNat n)
    rw [decodeWithin, tagged?_toJson]
    simp only [kindName?, kindName, record, hlength, required?_part h "elem" ih rfl]
  | map k v ihk ihv =>
    intro fuel nested h
    obtain ⟨fuel, rfl⟩ := exists_fuel h
    have record : (Json.object (present (map k v).entries)).record? ["key", "value"] = some _ :=
      record?_entries (map k v)
    have hkey : (recordOf (map k v).entries).required? "key" (decodeWithin fuel true) = some k :=
      required?_part h "key" ihk rfl
    have hvalue : (recordOf (map k v).entries).required? "value" (decodeWithin fuel true) =
      some v := required?_part h "value" ihv rfl
    rw [decodeWithin, tagged?_toJson]
    simp only [kindName?, kindName, record, hkey, hvalue]
  | struct fs ih =>
    intro fuel nested h
    obtain ⟨fuel, rfl⟩ := exists_fuel h
    have record : (Json.object (present (struct fs).entries)).record? ["fields"] = some _ :=
      record?_entries (struct fs)
    rw [decodeWithin, tagged?_toJson]
    simp only [kindName?, kindName, record, Option.bind_some, decodeFields_toJson h ih,
      Option.map_some]
  | interface ts ih =>
    intro fuel nested h
    obtain ⟨fuel, rfl⟩ := exists_fuel h
    have record : (Json.object (present (interface ts).entries)).record? ["terms"] = some _ :=
      record?_entries (interface ts)
    rw [decodeWithin, tagged?_toJson]
    simp only [kindName?, kindName, record, Option.bind_some, withDefault?_parts h "terms" ih rfl,
      Option.map_some]
  | func =>
    intro fuel nested h
    obtain ⟨fuel, rfl⟩ := exists_fuel h
    rw [decodeWithin, tagged?_toJson]
    rfl
  | chan e ih =>
    intro fuel nested h
    obtain ⟨fuel, rfl⟩ := exists_fuel h
    have record : (Json.object (present (chan e).entries)).record? ["elem"] = some _ :=
      record?_entries (chan e)
    rw [decodeWithin, tagged?_toJson]
    simp only [kindName?, kindName, record, Option.bind_some, required?_part h "elem" ih rfl,
      Option.map_some]

/-! ## Readable parts -/

theorem readable_field {f : Field} (h : f.type.toJson.isReadable = true) :
    f.toJson.isReadable = true := by
  have doc : ∀ j ∈ f.doc.map Json.string, j.isReadable = true := by
    intro j hj
    obtain ⟨line, -, rfl⟩ := List.mem_map.1 hj
    rfl
  have entries : Json.Readable f.entries :=
    .text f.name (.cons rfl (.list doc (.cons h (.text f.tag .nil))))
  rw [Field.toJson_eq]
  exact entries.present

theorem isReadable_toJson (e : TypeExpr) : e.toJson.isReadable = true := by
  have of_entries {e : TypeExpr} (h : Json.Readable e.entries) : e.toJson.isReadable = true := by
    rw [toJson_eq]
    exact h.present
  have each {parts : List TypeExpr} (ih : ∀ part ∈ parts, part.toJson.isReadable = true) :
      ∀ j ∈ parts.map (·.toJson), j.isReadable = true := by
    intro j hj
    obtain ⟨part, hpart, rfl⟩ := List.mem_map.1 hj
    exact ih part hpart
  induction e with
  | ident name package args ih =>
    exact of_entries (.cons rfl (.text package (.list (each ih) .nil)))
  | pointer e ih => exact of_entries (.cons ih .nil)
  | slice e ih => exact of_entries (.cons ih .nil)
  | array n e ih => exact of_entries (.cons rfl (.cons ih .nil))
  | map k v ihk ihv => exact of_entries (.cons ihk (.cons ihv .nil))
  | struct fs ih =>
    have fields : Json.allReadable (fs.map (·.toJson)) = true := by
      refine Json.allReadable_iff.2 ?_
      intro j hj
      obtain ⟨f, hf, rfl⟩ := List.mem_map.1 hj
      exact readable_field (ih f hf)
    exact of_entries (.cons fields .nil)
  | interface ts ih => exact of_entries (.list (each ih) .nil)
  | func => exact of_entries .nil
  | chan e ih => exact of_entries (.cons ih .nil)

theorem ofJson?_toJson (e : TypeExpr) : ofJson? e.toJson = some e := by
  rw [ofJson?, if_pos e.isReadable_toJson]
  exact e.isReadBack _ false (Nat.le_refl _)

end TypeExpr

/-! ## Declarations, files and packages -/

theorem TypeParam.ofJson?_toJson (x : TypeParam) : TypeParam.ofJson? x.toJson = some x := by
  let es : Entries := [("name", some (.string x.name)), ("constraint", some x.constraint.toJson)]
  have keys : (es.map (·.1)).Nodup := by simp [es]
  have record : x.toJson.record? ["name", "constraint"] = some (recordOf es) :=
    Json.record?_present keys
  have name : (recordOf es).required? "name" Json.string? = some x.name :=
    Json.Record.required?_recordOf keys rfl rfl
  have constraint : (recordOf es).required? "constraint" TypeExpr.ofJson? = some x.constraint :=
    Json.Record.required?_recordOf keys rfl x.constraint.ofJson?_toJson
  simp only [TypeParam.ofJson?, record, name, constraint]

namespace TypeDecl

def entries (d : TypeDecl) : Entries :=
  [("name", some (.string d.name)), ("pos", some d.pos.toJson),
    ("doc", nonempty (d.doc.map .string)), ("alias", some (.bool d.isAlias)),
    ("type_params", nonempty (d.params.map (·.toJson))), ("ty", some d.type.toJson)]

theorem toJson_eq (d : TypeDecl) : d.toJson = .object (present d.entries) := by
  rw [toJson, Json.listMember_eq, Json.listMember_eq]
  show Json.object (present [("name", some (.string d.name)), ("pos", some d.pos.toJson)] ++
    present [_] ++ present [("alias", some (.bool d.isAlias))] ++ present [_] ++
    present [("ty", some d.type.toJson)]) = _
  simp only [← Json.present_append]
  rfl

theorem ofJson?_toJson (d : TypeDecl) : ofJson? d.toJson = some d := by
  have keys : (d.entries.map (·.1)).Nodup := by simp [entries]
  have record : d.toJson.record? ["name", "pos", "doc", "alias", "type_params", "ty"] =
      some (recordOf d.entries) := by
    rw [toJson_eq]
    exact Json.record?_present keys
  have name : (recordOf d.entries).required? "name" Json.string? = some d.name :=
    Json.Record.required?_recordOf keys rfl rfl
  have pos : (recordOf d.entries).withDefault? "pos" {} Position.ofJson? = some d.pos :=
    Json.Record.withDefault?_recordOf keys rfl d.pos.ofJson?_toJson
  have doc : (recordOf d.entries).withDefault? "doc" [] (Json.list? Json.string?) = some d.doc :=
    Json.Record.withDefault?_list keys rfl fun _ _ => rfl
  have isAlias : (recordOf d.entries).withDefault? "alias" false Json.bool? = some d.isAlias :=
    Json.Record.withDefault?_recordOf keys rfl rfl
  have params : (recordOf d.entries).withDefault? "type_params" [] (Json.list? TypeParam.ofJson?) =
    some d.params := Json.Record.withDefault?_list keys rfl fun x _ => x.ofJson?_toJson
  have type : (recordOf d.entries).required? "ty" TypeExpr.ofJson? = some d.type :=
    Json.Record.required?_recordOf keys rfl d.type.ofJson?_toJson
  simp only [ofJson?, record, name, pos, doc, isAlias, params, type]

end TypeDecl

theorem SourceFile.ofJson?_toJson (f : SourceFile) : SourceFile.ofJson? f.toJson = some f := by
  let es : Entries :=
    [("path", some (.string f.path)), ("decls", some (.array (f.decls.map (·.toJson))))]
  have keys : (es.map (·.1)).Nodup := by simp [es]
  have record : f.toJson.record? ["path", "decls"] = some (recordOf es) :=
    Json.record?_present keys
  have path : (recordOf es).required? "path" Json.string? = some f.path :=
    Json.Record.required?_recordOf keys rfl rfl
  have decls : (recordOf es).withDefault? "decls" [] (Json.list? TypeDecl.ofJson?) =
      some f.decls :=
    Json.Record.withDefault?_recordOf keys rfl (Json.Record.list?_map fun d _ => d.ofJson?_toJson)
  simp only [SourceFile.ofJson?, record, path, decls]

namespace Package

theorem ofJson?_toJson (p : Package) : ofJson? p.toJson = some p := by
  let es : Entries :=
    [("path", some (.string p.path)), ("name", some (.string p.name)),
      ("files", some (.array (p.files.map (·.toJson))))]
  have keys : (es.map (·.1)).Nodup := by simp [es]
  have record : p.toJson.record? ["path", "name", "files"] = some (recordOf es) :=
    Json.record?_present keys
  have path : (recordOf es).required? "path" Json.string? = some p.path :=
    Json.Record.required?_recordOf keys rfl rfl
  have name : (recordOf es).withDefault? "name" "" Json.string? = some p.name :=
    Json.Record.withDefault?_recordOf keys rfl rfl
  have files : (recordOf es).withDefault? "files" [] (Json.list? SourceFile.ofJson?) =
      some p.files :=
    Json.Record.withDefault?_recordOf keys rfl (Json.Record.list?_map fun f _ => f.ofJson?_toJson)
  simp only [ofJson?, record, path, name, files]

/--
A package is read back from its JSON form. Whatever JSON value a package was read from, its JSON
form is one that reading and writing keep.
-/
theorem round_trip :
    (∀ p : Package, ofJson? p.toJson = some p) ∧
    ∀ (j : Json) (p : Package), ofJson? j = some p →
      ofJson? p.toJson = some p ∧ ∀ q, ofJson? p.toJson = some q → q.toJson = p.toJson := by
  refine ⟨ofJson?_toJson, ?_⟩
  intro j p _
  refine ⟨p.ofJson?_toJson, ?_⟩
  intro q hq
  rw [p.ofJson?_toJson] at hq
  cases hq
  rfl

/-- A package written with less than it may have, and with more. -/
def teamJson : Json :=
  .object [("path", .string "example.com/api"),
    ("files", .array [.object [("path", .string "api/team.go"),
      ("decls", .array [.object [("name", .string "Team"), ("pos", .array [.integer 3]),
        ("comment", .unreadable), ("doc", .array []),
        ("ty", .object [("elem", .object [("kind", .integer 0), ("name", .string "Member"),
          ("package", .null)]), ("kind", .string "slice")])]])]])]

def teamPackage : Package :=
  ⟨"example.com/api", "",
    [⟨"api/team.go",
      [{ name := "Team"
         pos := { line := 3, column := 0 }
         doc := []
         isAlias := false
         params := []
         type := .slice (.ident "Member" none []) }]⟩]⟩

theorem round_trip_team : ofJson? teamJson = some teamPackage ∧
    ofJson? teamPackage.toJson = some teamPackage := by
  have read : ofJson? teamJson = some teamPackage := by rfl
  exact ⟨read, (round_trip.2 teamJson teamPackage read).1⟩

end Package
end ApiConventions
