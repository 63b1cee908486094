import ApiConventions.Proofs.Promotion
import ApiConventions.Proofs.Resolution.Bytes
import ApiConventions.Proofs.Rule.Subjects

/-!
# ApiConventions.Proofs.Rule.MapKeys

Keys of lists that are merged as a map. A key has to be the name of a member of the structs in the
list. `HasMember` says what names these are, by a path of inlined members, and the keys that are
reported are the others, in the order of their markers.
-/

namespace ApiConventions

/-- A property at the end of a path of at most eight inlined members has this name. -/
def Program.HasMember (p : Program) (s : Resolved) (name : String) : Prop :=
  ∃ path s' f, p.Inlines s path s' ∧ path.length ≤ 8 ∧
    f ∈ s'.members ∧ f.IsProperty ∧ ListTags.memberName f = name

theorem Program.hasMember_iff {p : Program} {s : Resolved} {name : String} :
    p.HasMember s name ↔ name ∈ ListTags.memberNames p ListTags.maxEmbeddingDepth s := by
  rw [ListTags.memberNames_eq_promoted, List.mem_map]
  constructor
  · rintro ⟨path, s', f, reach, short, hf, property, named⟩
    refine ⟨(f, s'.memberType f), mem_promoted.2 ?_, named⟩
    exact ⟨path, s', reach, short, hf, property, rfl⟩
  · rintro ⟨q, hq, named⟩
    obtain ⟨path, s', reach, short, hf, property, -⟩ := mem_promoted.1 hq
    exact ⟨path, s', q.1, reach, short, hf, property, named⟩

instance (p : Program) (s : Resolved) (name : String) : Decidable (p.HasMember s name) :=
  decidable_of_iff _ Program.hasMember_iff.symm

/-- The text of a value, without the blanks around it and without its quotes. -/
def Marker.text? (m : Marker) : Option String :=
  m.value.map fun v => String.ofList (Quoted.unquote (Text.trim v.toList))

theorem Marker.toOption_asString (m : Marker) : m.asString.toOption = m.text? := by
  rw [asString, coerce, text?]
  cases m.value <;> rfl

namespace ListTags

variable {ctx : FileContext} {f : Field} {scope : TypeDecl} {layer : MarkerSet} {elem : Resolved}

/-- The keys of a layer, one for each marker with a value. -/
def declaredKeys (layer : MarkerSet) : List String :=
  (layer.filter (·.identifier == MarkerName.listMapKey)).filterMap (·.text?)

/-- The layer gives the list its type, and no layer before it does. -/
def Supplies (layer : MarkerSet) (layers : List MarkerSet) : Prop :=
  layer.has MarkerName.listType = true ∧ ∃ above below, layers = above ++ layer :: below ∧
    ∀ other ∈ above, other.has MarkerName.listType = false

theorem Supplies.find? {layers : List MarkerSet} (h : Supplies layer layers) :
    layers.find? (·.has MarkerName.listType) = some layer := by
  obtain ⟨has, above, below, split, without⟩ := h
  have here : (layer :: below).find? (·.has MarkerName.listType) = some layer :=
    List.find?_cons_of_pos has
  have none : above.find? (·.has MarkerName.listType) = none :=
    List.find?_eq_none.2 fun other hother => by simp [without other hother]
  rw [split, List.find?_append, none, here, Option.none_or]

def unknownKey (f : Field) (key : String) : Diagnostic :=
  { pos := f.pos
    message :=
      s!"field {f.displayName} listMapKey \"{key}\" does not exist as a field in the struct" }

/-- A list of structs that is merged as a map, with the layer that says so. -/
structure MapList (ctx : FileContext) (f : Field) (scope : TypeDecl) (layer : MarkerSet)
    (elem : Resolved) : Prop where
  property : f.isSkipped = false
  list : (ctx.resolve f.type scope).kind = .slice ∨ (ctx.resolve f.type scope).kind = .array
  element : ∃ t, (ctx.resolve f.type scope).elem? = some t ∧ ctx.program.resolve t = elem
  struct : elem.kind = .struct
  supplies : Supplies layer
    (ctx.markers f.doc :: ctx.extractor.typeLayers (ctx.resolve f.type scope))
  map : (layer.first? MarkerName.listType).bind (·.text?) = some "map"

/-- The layer also names the keys of the list. -/
structure KeyedList (ctx : FileContext) (f : Field) (scope : TypeDecl) (layer : MarkerSet)
    (elem : Resolved) : Prop extends MapList ctx f scope layer elem where
  keyed : declaredKeys layer ≠ []

theorem MapList.isByteSlice (h : MapList ctx f scope layer elem) :
    (ctx.resolve f.type scope).isByteSlice = false := by
  obtain ⟨t, ht, rfl⟩ := h.element
  rw [← Bool.not_eq_true]
  intro bytes
  -- Its elements would be bytes, and they are structs.
  have byte := Program.kind_of_isByteSlice bytes ht
  rw [h.struct] at byte
  cases byte

/-- The remarks about such a list are about the keys of the layer. -/
theorem MapList.checkField (h : MapList ctx f scope layer elem) (usage : SetUsage) :
    checkField usage ctx f scope = (checkKeys ctx.program f.displayName layer elem).map
      fun message => { pos := f.pos, message } := by
  obtain ⟨t, ht, resolved⟩ := h.element
  have list : (ctx.resolve f.type scope).kind.isList = true := by
    rcases h.list with kind | kind <;> rw [kind] <;> rfl
  have listType : ((layer.first? MarkerName.listType).bind (·.asString.toOption)).getD "" =
      "map" := by
    simp only [Marker.toOption_asString, h.map, Option.getD_some]
  have messages : messages usage ctx.program f.displayName
      (ctx.markers f.doc :: ctx.extractor.typeLayers (ctx.resolve f.type scope))
      (ctx.resolve f.type scope) = checkKeys ctx.program f.displayName layer elem := by
    simp only [ListTags.messages, h.isByteSlice, h.supplies.find?, list]
    simp only [checkList, listType, ht, resolved]
    simp [checkElements, Element.of, h.struct]
  rw [ListTags.checkField, if_neg (by simp [h.property])]
  simp only [FileContext.inspectField, messages]

theorem occurrences_listMapKey (layer : MarkerSet) :
    (layer.occurrences MarkerName.listMapKey).filterMap (·.asString.toOption) =
      declaredKeys layer := by
  simp only [declaredKeys, MarkerSet.occurrences, Marker.toOption_asString]

theorem checkKeys_eq {p : Program} {name : String} (keyed : declaredKeys layer ≠ []) :
    checkKeys p name layer elem =
      ((declaredKeys layer).filter fun key => ¬ p.HasMember elem key).map fun key =>
        s!"field {name} listMapKey \"{key}\" does not exist as a field in the struct" := by
  have unknown (key : String) : (!(memberNames p maxEmbeddingDepth elem).contains key) =
      decide (¬ p.HasMember elem key) := by
    rw [decide_not, List.contains_eq_mem, decide_eq_decide.2 Program.hasMember_iff]
  simp only [checkKeys, occurrences_listMapKey, unknown]
  rw [if_neg (by simpa using keyed)]

/-- Where the layer has keys the remarks are about those that no member has. -/
theorem KeyedList.checkField (h : KeyedList ctx f scope layer elem) (usage : SetUsage) :
    checkField usage ctx f scope =
      ((declaredKeys layer).filter fun key => ¬ ctx.program.HasMember elem key).map
        (unknownKey f) := by
  rw [h.toMapList.checkField, checkKeys_eq h.keyed, List.map_map]
  rfl

/--
Of the keys of a list that is merged as a map those are reported that are not the name of a
member, in the order of their markers. A path to a member goes through no embedded struct that is
serialized under a name of its own.
-/
theorem unknown_keys_reported (usage : SetUsage) (ctx : FileContext) :
    ((Check.listTags usage).diagnostics ctx =
      ctx.file.fields.flatMap fun q => (Check.listTags usage).onField ctx q.1 q.2) ∧
    (∀ f scope layer elem, KeyedList ctx f scope layer elem →
      (Check.listTags usage).onField ctx f scope =
        ((declaredKeys layer).filter fun key => ¬ ctx.program.HasMember elem key).map
          (unknownKey f)) ∧
    ∀ s path s' g, ctx.program.Inlines s path s' → g ∈ path → g.name = none →
      g.jsonTag.inline = false → g.jsonTag.name = "" := by
  refine ⟨rfl, fun f scope layer elem h => h.checkField usage, ?named⟩
  case named =>
    intro s path s' g reach hg embedded untagged
    induction reach with
    | here => cases hg
    | through _ inlined _ ih =>
      rcases List.mem_cons.1 hg with rfl | hg
      · rcases inlined.2 with inline | ⟨-, unnamed⟩
        · rw [untagged] at inline
          cases inline
        · exact unnamed
      · exact ih hg

end ListTags

namespace Keys

def declaration (name : String) (line : UInt64) (type : TypeExpr) (doc : List String) :
    TypeDecl where
  name := name
  pos := { line, column := 6 }
  doc := doc
  isAlias := false
  params := []
  type := type

def member (name : Option String) (line : UInt64) (type : TypeExpr) (tag : Option String) :
    Field where
  name := name
  pos := { line, column := 2 }
  doc := []
  type := type
  tag := tag

def string : TypeExpr := .ident "string" none []

def base : TypeDecl :=
  declaration "Base" 3 (.struct [member (some "Name") 4 string (some "json:\"name\"")]) []

def labelled : TypeDecl :=
  declaration "Labelled" 7 (.struct [member (some "Label") 8 string (some "json:\"label\"")]) []

/-- Another name of whatever it is applied to. -/
def same : TypeDecl :=
  { declaration "Same" 11 (.ident "T" none []) [] with
    isAlias := true
    params := [⟨"T", .interface []⟩] }

/-- The name of a base is inlined, through a pointer and an alias, and the label is not. -/
def port : TypeDecl :=
  declaration "Port" 13
    (.struct
      [member none 14 (.pointer (.ident "Same" none [.ident "Base" none []])) none,
       member none 15 (.ident "Labelled" none []) (some "json:\"labels\""),
       member (some "Number") 16 (.ident "int32" none []) none]) []

def ports : TypeDecl :=
  declaration "Ports" 24 (.slice (.ident "Port" none []))
    ["// +listType=map", "// +listMapKey=name", "// +listMapKey=label", "// +listMapKey=Number",
     "// +listMapKey=label"]

def openPorts : Field :=
  member (some "Open") 27 (.ident "Ports" none []) (some "json:\"open\"")

def spec : TypeDecl := declaration "Spec" 26 (.struct [openPorts]) []

def file : SourceFile :=
  { path := "api/ports.go", decls := [base, labelled, same, port, ports, spec] }

def package : Package := ⟨"example.com/api", "api", [file]⟩

def ctx : FileContext where
  program := ⟨[package]⟩
  package := package
  file := file
  registry := .standard

def layer : MarkerSet := ctx.registry.parse ports.doc

def portStruct : Resolved :=
  ctx.program.resolve ⟨.ident "Port" none [], package, []⟩

theorem keyedList_openPorts : ListTags.KeyedList ctx openPorts spec layer portStruct where
  property := by decide +kernel
  list := .inl (by decide +kernel)
  element := ⟨_, rfl, rfl⟩
  struct := by decide +kernel
  supplies := ⟨by decide +kernel, [_], [], rfl, by decide +kernel⟩
  map := by decide +kernel
  keyed := by decide +kernel

theorem unknown_keys_openPorts :
    ListTags.KeyedList ctx openPorts spec layer portStruct ∧
    ListTags.declaredKeys layer = ["name", "label", "Number", "label"] ∧
    (Check.listTags .warn).onField ctx openPorts spec =
      [ListTags.unknownKey openPorts "label", ListTags.unknownKey openPorts "label"] := by
  have unknown : ((ListTags.declaredKeys layer).filter fun key =>
      ¬ ctx.program.HasMember portStruct key) = ["label", "label"] := by decide +kernel
  have reported := (ListTags.unknown_keys_reported .warn ctx).2.1 openPorts spec layer portStruct
    keyedList_openPorts
  rw [unknown] at reported
  exact ⟨keyedList_openPorts, by decide +kernel, reported⟩

end Keys
end ApiConventions
