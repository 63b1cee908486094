import ApiConventions.Proofs.Constraint.Precedence
import ApiConventions.Proofs.Resolution.Ends

/-!
# ApiConventions.Proofs.Constraint.Elements

The elements of a list. `Overrides` is what an `items` marker of the list makes of a constraint of
the element type: one that can be read replaces it, and where there is none it stands. It stands
as well where there is one that cannot be read, so that such a marker does fall through, from the
layers of the list to the types of its elements, although it is reported.
-/

namespace ApiConventions

namespace Layers

variable {layers : List MarkerSet} {identifier : String} {α : Type}
  {coerce : Marker → Except ValueError α}

/-- What the layers of a list make of a constraint on its elements, and the errors in it. -/
inductive Overrides (layers : List MarkerSet) (identifier : String)
    (coerce : Marker → Except ValueError α) (inner : Option α) :
    Option α → List ValueError → Prop where
  | unset (absent : ∀ layer ∈ layers, ∀ m ∈ layer, m.identifier ≠ identifier) :
      Overrides layers identifier coerce inner inner []
  | set {m : Marker} {a : α} (wins : Wins layers identifier m) (ok : coerce m = .ok a) :
      Overrides layers identifier coerce inner (some a) []
  | malformed {m : Marker} {e : ValueError} (wins : Wins layers identifier m)
      (fails : coerce m = .error e) : Overrides layers identifier coerce inner inner [e]

theorem Says.overrides {value : Option α} {errors : List ValueError}
    (h : Says layers identifier coerce value errors) (inner : Option α) :
    Overrides layers identifier coerce inner (value.or inner) errors := by
  cases h with
  | unset absent => exact .unset absent
  | set wins ok => exact .set wins ok
  | malformed wins fails => exact .malformed wins fails

/-- What the layers of a list make of the constraints of its element type. -/
inductive ItemsSay (layers : List MarkerSet) (element : Extraction) (items : Constraints) :
    List ValueError → Prop where
  | mk {e₁ e₂ e₃ e₄ e₅ : List ValueError}
      (minLength : Overrides layers MarkerName.itemsMinLength Marker.asInt
        element.constraints.minLength items.minLength e₁)
      (maxLength : Overrides layers MarkerName.itemsMaxLength Marker.asInt
        element.constraints.maxLength items.maxLength e₂)
      (minProperties : Overrides layers MarkerName.itemsMinProperties Marker.asInt
        element.constraints.minProperties items.minProperties e₃)
      (maxProperties : Overrides layers MarkerName.itemsMaxProperties Marker.asInt
        element.constraints.maxProperties items.maxProperties e₄)
      (enumValues : Overrides layers MarkerName.itemsEnum Marker.asList
        element.constraints.enumValues items.enumValues e₅)
      (others : items =
        { element.constraints with
          minLength := items.minLength
          maxLength := items.maxLength
          minProperties := items.minProperties
          maxProperties := items.maxProperties
          enumValues := items.enumValues }) :
      ItemsSay layers element items (e₁ ++ e₂ ++ e₃ ++ e₄ ++ e₅ ++ element.errors)

theorem itemsSay_overElements (layers : List MarkerSet) (element : Extraction) :
    ItemsSay layers element (overElements layers element).constraints
      (overElements layers element).errors :=
  .mk ((says_read Marker.asInt).overrides _) ((says_read Marker.asInt).overrides _)
    ((says_read Marker.asInt).overrides _) ((says_read Marker.asInt).overrides _)
    ((says_read Marker.asList).overrides _) rfl

end Layers

namespace Extractor

variable {x : Extractor} {t : TypeRef} {docs : List (List String)} {e : Extraction}

/-- The constraints of an element type, from the markers of its own named types. -/
def ofElement (x : Extractor) (elem : TypeRef) : Extraction :=
  x.extractWithin (maxShapeDepth - 1) [] (x.program.resolve elem)

/--
The constraints on the elements of a list are those of the element type, each replaced where the
layers of the list have a marker for it that can be read. A marker that cannot be read is reported
after the errors of the list itself.
-/
theorem Extracts.items_overridden (h : x.Extracts (x.program.resolve t) docs e)
    (list : (x.program.resolve t).kind.isList = true)
    (other : (x.program.resolve t).isByteSlice = false) :
    ∃ elem items own errors, (x.program.resolve t).elem? = some elem ∧
      e.constraints.items = some items ∧
      Layers.ItemsSay (x.layers docs) (x.ofElement elem) items errors ∧
      Layers.OwnSays (x.layers docs) (x.program.resolve t).kind e.constraints own ∧
      e.errors = own ++ errors := by
  obtain ⟨elem, helem⟩ := Program.elem_of_isList list
  have read : x.elements? (maxShapeDepth - 1) (x.layers docs) (x.program.resolve t) =
      some (Layers.overElements (x.layers docs) (x.ofElement elem)) := by
    rw [elements?, listElem?, list, other, helem]
    rfl
  -- Under the layers of the list the element type keeps its own layers, one level less deep.
  obtain ⟨constraints, items, errors⟩ := h.parts
  rw [read] at items errors
  have said := Layers.ownSays_own (x.layers docs) (x.program.resolve t).kind
  rw [← constraints] at said
  exact ⟨elem, _, _, _, helem, items, Layers.itemsSay_overElements _ _, said.of_ownPart, errors⟩

end Extractor

namespace Elements

def name : TypeDecl where
  name := "Name"
  pos := { line := 3, column := 6 }
  doc := ["// +kubebuilder:validation:MinLength=1", "// +kubebuilder:validation:MaxLength=10"]
  isAlias := false
  params := []
  type := .ident "string" none []

/-- A list with a bound on its elements that can be read and one that cannot. -/
def names : TypeDecl where
  name := "Names"
  pos := { line := 7, column := 6 }
  doc :=
    ["// +kubebuilder:validation:items:MinLength=2",
      "// +kubebuilder:validation:items:MaxLength=many"]
  isAlias := false
  params := []
  type := .slice (.ident "Name" none [])

def package : Package := ⟨"example.com/api", "api", [⟨"api/names.go", [name, names]⟩]⟩
def extractor : Extractor := ⟨⟨[package]⟩, .standard⟩
def listed : TypeRef := .closed names.type package
def extraction : Extraction := extractor.ofDecl names (extractor.program.resolve listed)

theorem items_overridden_names :
    (extractor.Extracts (extractor.program.resolve listed) [names.doc] extraction ∧
      (extractor.program.resolve listed).kind.isList = true ∧
      (extractor.program.resolve listed).isByteSlice = false) ∧
    ∃ elem items own errors, (extractor.program.resolve listed).elem? = some elem ∧
      extraction.constraints.items = some items ∧
      Layers.ItemsSay (extractor.layers [names.doc]) (extractor.ofElement elem) items errors ∧
      Layers.OwnSays (extractor.layers [names.doc]) (extractor.program.resolve listed).kind
        extraction.constraints own ∧
      extraction.errors = own ++ errors := by
  have extracts : extractor.Extracts (extractor.program.resolve listed) [names.doc] extraction :=
    .decl names
  have list : (extractor.program.resolve listed).kind.isList = true := by decide +kernel
  have other : (extractor.program.resolve listed).isByteSlice = false := by decide +kernel
  exact ⟨⟨extracts, list, other⟩, extracts.items_overridden list other⟩

/-- The bound that cannot be read does not leave the elements without a bound. -/
theorem malformed_items_fall_through :
    ∃ m err, Layers.Wins (extractor.layers [names.doc]) MarkerName.itemsMaxLength m ∧
      m.asInt = .error err ∧ err ∈ extraction.errors ∧
      (extraction.constraints.items.map (·.maxLength)) = some (some 10) := by
  refine ⟨⟨MarkerName.itemsMaxLength, some "many", [], "kubebuilder:validation:items:MaxLength=many"⟩,
    ⟨MarkerName.itemsMaxLength, "many", .integer⟩, ?wins, ?fails, ?reported, ?bounded⟩
  case wins =>
    show List.find? _ _ = _
    decide +kernel
  case fails => rfl
  case reported => decide +kernel
  case bounded => decide +kernel

end Elements
end ApiConventions
