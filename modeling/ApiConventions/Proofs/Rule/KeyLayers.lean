import ApiConventions.Proofs.Rule.MapKeys

/-!
# ApiConventions.Proofs.Rule.KeyLayers

Keys and types of lists in different layers. The keys of a list that is merged as a map are those of
the layer that gives the list its type, and those of the other layers do not count. So they are the
keys that come first only if no other layer has keys in front of them.
-/

namespace ApiConventions
namespace ListTags

variable {ctx : FileContext} {f : Field} {scope : TypeDecl} {layer keyed : MarkerSet}
  {elem : Resolved}

/-- The layer has keys, and no layer before it does. -/
def FirstKeyed (layer : MarkerSet) (layers : List MarkerSet) : Prop :=
  declaredKeys layer ≠ [] ∧ ∃ above below, layers = above ++ layer :: below ∧
    ∀ other ∈ above, declaredKeys other = []

def missingKey (f : Field) : Diagnostic :=
  { pos := f.pos
    message := s!"field {f.displayName} with listType=map must have at least one listMapKey marker" }

/-- The remarks on those keys that are not the name of a member. -/
def unknownKeys (p : Program) (f : Field) (elem : Resolved) (keys : List String) :
    List Diagnostic :=
  (keys.filter fun key => ¬ p.HasMember elem key).map (unknownKey f)

theorem missingKey_notMem_unknownKeys (p : Program) (f : Field) (elem : Resolved)
    (keys : List String) : missingKey f ∉ unknownKeys p f elem keys := by
  intro mem
  obtain ⟨key, -, same⟩ := List.mem_map.1 mem
  have missing : (missingKey f).after? (.field f.displayName) " with listType=map " =
      some "must have at least one listMapKey marker" := by
    refine Diagnostic.after?_eq_some ?_
    simp only [missingKey, Subject.text, toString, String.append_assoc]
    rfl
  have words : (unknownKey f key).message = (Subject.field f.displayName).text ++
      (" listMapKey \"" ++ (key ++ "\" does not exist as a field in the struct")) := by
    simp only [unknownKey, Subject.text, toString, String.append_assoc]
  have unknown : (unknownKey f key).after? (.field f.displayName) " with listType=map " = none :=
    Diagnostic.after?_eq_none words (by decide +kernel)
  rw [← same, unknown] at missing
  cases missing

theorem MapList.onField_of_unkeyed (h : MapList ctx f scope layer elem)
    (unkeyed : declaredKeys layer = []) (usage : SetUsage) :
    (Check.listTags usage).onField ctx f scope = [missingKey f] := by
  have remarks : (Check.listTags usage).onField ctx f scope =
      (checkKeys ctx.program f.displayName layer elem).map fun message =>
        { pos := f.pos, message } := h.checkField usage
  rw [remarks, checkKeys, occurrences_listMapKey, unkeyed]
  rfl

theorem MapList.onField_of_keyed (h : MapList ctx f scope layer elem)
    (keyed : declaredKeys layer ≠ []) (usage : SetUsage) :
    (Check.listTags usage).onField ctx f scope =
      unknownKeys ctx.program f elem (declaredKeys layer) := by
  have list : KeyedList ctx f scope layer elem := { h with keyed }
  exact list.checkField usage

/--
A list that is merged as a map lacks a key if the layer with its type has none, and else the keys of
that layer are checked. Where that layer has the keys that come first in the layers of the field, no
key is lacking and these are the keys that are checked.
-/
theorem keys_beside_type (usage : SetUsage) (h : MapList ctx f scope layer elem) :
    (declaredKeys layer = [] →
      (Check.listTags usage).onField ctx f scope = [missingKey f]) ∧
    (declaredKeys layer ≠ [] → (Check.listTags usage).onField ctx f scope =
      unknownKeys ctx.program f elem (declaredKeys layer)) ∧
    ∀ keyed, FirstKeyed keyed
        (ctx.markers f.doc :: ctx.extractor.typeLayers (ctx.resolve f.type scope)) →
      declaredKeys layer = declaredKeys keyed →
        missingKey f ∉ (Check.listTags usage).onField ctx f scope ∧
        (Check.listTags usage).onField ctx f scope =
          unknownKeys ctx.program f elem (declaredKeys keyed) := by
  refine ⟨fun unkeyed => h.onField_of_unkeyed unkeyed usage,
    fun keyed => h.onField_of_keyed keyed usage, ?first⟩
  case first =>
    intro keyed first same
    have checked := h.onField_of_keyed (by rw [same]; exact first.1) usage
    rw [checked, same]
    exact ⟨missingKey_notMem_unknownKeys _ _ _ _, rfl⟩

end ListTags

namespace KeyLayers

open Keys (declaration member string)

def port : TypeDecl :=
  declaration "Port" 3 (.struct [member (some "Name") 4 string (some "json:\"name\"")]) []

/-- A list that names its key and leaves open how it is merged. -/
def ports : TypeDecl :=
  declaration "Ports" 8 (.slice (.ident "Port" none [])) ["// +listMapKey=name"]

def closedPorts : Field :=
  { member (some "Closed") 11 (.ident "Ports" none []) (some "json:\"closed\"") with
    doc := ["// +listType=map", "// +listMapKey=number"] }

def openPorts : Field :=
  { member (some "Open") 13 (.ident "Ports" none []) (some "json:\"open\"") with
    doc := ["// +listType=map"] }

def spec : TypeDecl := declaration "Spec" 10 (.struct [closedPorts, openPorts]) []

def file : SourceFile :=
  { path := "api/ports.go", decls := [port, ports, spec] }

def package : Package := ⟨"example.com/api", "api", [file]⟩

def ctx : FileContext where
  program := ⟨[package]⟩
  package := package
  file := file
  registry := .standard

def portStruct : Resolved :=
  ctx.program.resolve ⟨.ident "Port" none [], package, []⟩

theorem mapList {f : Field} (declared : f ∈ [closedPorts, openPorts]) :
    ListTags.MapList ctx f spec (ctx.markers f.doc) portStruct := by
  rcases List.mem_pair.1 declared with rfl | rfl
  all_goals exact
    { property := by decide +kernel
      list := .inl (by decide +kernel)
      element := ⟨_, rfl, rfl⟩
      struct := by decide +kernel
      supplies := ⟨by decide +kernel, [], _, rfl, by simp⟩
      map := by decide +kernel }

/-- The key of the field is checked, and not that of its type. -/
theorem keys_beside_type_closedPorts :
    ListTags.MapList ctx closedPorts spec (ctx.markers closedPorts.doc) portStruct ∧
    ListTags.FirstKeyed (ctx.markers closedPorts.doc)
      (ctx.markers closedPorts.doc ::
        ctx.extractor.typeLayers (ctx.resolve closedPorts.type spec)) ∧
    (Check.listTags .warn).onField ctx closedPorts spec =
      [ListTags.unknownKey closedPorts "number"] := by
  have first : ListTags.FirstKeyed (ctx.markers closedPorts.doc)
      (ctx.markers closedPorts.doc ::
        ctx.extractor.typeLayers (ctx.resolve closedPorts.type spec)) :=
    ⟨by decide +kernel, [], _, rfl, by simp⟩
  have list := mapList (List.mem_cons_self (a := closedPorts))
  have checked := ((ListTags.keys_beside_type .warn list).2.2 _ first rfl).2
  refine ⟨list, first, checked.trans ?_⟩
  decide +kernel

/-- A list that lacks a key, although its type has one that is the name of a member. -/
theorem inherited_key_ignored :
    ListTags.MapList ctx openPorts spec (ctx.markers openPorts.doc) portStruct ∧
    ListTags.FirstKeyed (ctx.registry.parse ports.doc)
      (ctx.markers openPorts.doc :: ctx.extractor.typeLayers (ctx.resolve openPorts.type spec)) ∧
    ListTags.declaredKeys (ctx.registry.parse ports.doc) = ["name"] ∧
    ctx.program.HasMember portStruct "name" ∧
    (Check.listTags .warn).onField ctx openPorts spec = [ListTags.missingKey openPorts] := by
  refine ⟨mapList (by simp), ⟨by decide +kernel, [_], [], rfl, ?above⟩, by decide +kernel,
    by decide +kernel, by decide +kernel⟩
  case above =>
    intro other mem
    rw [List.mem_singleton.1 mem]
    decide +kernel

end KeyLayers
end ApiConventions
