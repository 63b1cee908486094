import ApiConventions.Proofs.Constraint.Parts
import ApiConventions.Proofs.Constraint.Winners

/-!
# ApiConventions.Proofs.Constraint.Precedence

The first layer wins. `Says` is what layers of markers say about one constraint: the first
occurrence of its marker in the first layer that has one decides alone, and when it cannot be read
the constraint stays unset and there is one error. `OwnSays` is what they say about a subject as a
whole, with the errors in the order in which the markers are read.
-/

namespace ApiConventions

namespace Layers

variable {layers : List MarkerSet} {identifier : String}

/-- What the layers say about a constraint: its value and the errors in it. -/
inductive Says (layers : List MarkerSet) (identifier : String) {α : Type}
    (coerce : Marker → Except ValueError α) : Option α → List ValueError → Prop where
  | unset (absent : ∀ layer ∈ layers, ∀ m ∈ layer, m.identifier ≠ identifier) :
      Says layers identifier coerce none []
  | set {m : Marker} {a : α} (wins : Wins layers identifier m) (ok : coerce m = .ok a) :
      Says layers identifier coerce (some a) []
  | malformed {m : Marker} {e : ValueError} (wins : Wins layers identifier m)
      (fails : coerce m = .error e) : Says layers identifier coerce none [e]

theorem absent_of_winner?_eq_none (h : winner? layers identifier = none) :
    ∀ layer ∈ layers, ∀ m ∈ layer, m.identifier ≠ identifier := by
  intro layer hlayer m hm
  have none := List.findSome?_eq_none_iff.1 h layer hlayer
  rw [MarkerSet.first?, List.find?_eq_none] at none
  simpa using none m hm

theorem says_read {α : Type} (coerce : Marker → Except ValueError α) :
    Says layers identifier coerce (read layers identifier coerce).value
      (read layers identifier coerce).errors := by
  cases hw : winner? layers identifier with
  | none =>
    simp only [read, hw]
    exact .unset (absent_of_winner?_eq_none hw)
  | some m =>
    have wins : Wins layers identifier m := by rw [Wins, ← winner?_eq, hw]
    cases hm : coerce m with
    | ok a =>
      simp only [read, hw, hm]
      exact .set wins hm
    | error e =>
      simp only [read, hw, hm]
      exact .malformed wins hm

theorem agreeOn_of_wins {layers' : List MarkerSet} {identifiers : List String}
    (same : ∀ identifier ∈ identifiers, ∀ m, Wins layers identifier m ↔ Wins layers' identifier m) :
    AgreeOn identifiers layers layers' := by
  intro identifier hid
  rw [winner?_eq, winner?_eq]
  exact Option.ext (same identifier hid)

/-- What the layers say about a numeric range. An end is excluded only where a marker says so. -/
inductive RangeSays (layers : List MarkerSet) {N : Type} (coerce : Marker → Except ValueError N) :
    Range N → List ValueError → Prop where
  | mk {low high : Option N} {openLow openHigh : Option Bool} {e₁ e₂ e₃ e₄ : List ValueError}
      (minimum : Says layers MarkerName.minimum coerce low e₁)
      (maximum : Says layers MarkerName.maximum coerce high e₂)
      (exclusiveMinimum : Says layers MarkerName.exclusiveMinimum Marker.asBool openLow e₃)
      (exclusiveMaximum : Says layers MarkerName.exclusiveMaximum Marker.asBool openHigh e₄) :
      RangeSays layers coerce ⟨low, high, openLow.getD false, openHigh.getD false⟩
        (e₁ ++ e₂ ++ e₃ ++ e₄)

/-- Bounds are read as integers or as floating point numbers, by the kind of the subject. -/
inductive NumericSays (layers : List MarkerSet) :
    Kind → Option NumericBounds → List ValueError → Prop where
  | integer {b : BasicKind} {range : Range Int} {errors : List ValueError}
      (integer : b.isInteger = true) (ends : RangeSays layers Marker.asInt range errors) :
      NumericSays layers (.basic b) (some (.integer range)) errors
  | float {b : BasicKind} {range : Range Number.Binary64} {errors : List ValueError}
      (float : b.isFloat = true) (ends : RangeSays layers Marker.asFloat range errors) :
      NumericSays layers (.basic b) (some (.float range)) errors
  | other {kind : Kind} (rangeless : hasRange kind = false) : NumericSays layers kind none []

/-- What the layers say about a subject, with the errors in the order of the markers. -/
inductive OwnSays (layers : List MarkerSet) (kind : Kind) (c : Constraints) :
    List ValueError → Prop where
  | mk {e₀ e₁ e₂ e₃ e₄ e₅ e₆ e₇ : List ValueError}
      (numeric : NumericSays layers kind c.numeric e₀)
      (minLength : Says layers MarkerName.minLength Marker.asInt c.minLength e₁)
      (maxLength : Says layers MarkerName.maxLength Marker.asInt c.maxLength e₂)
      (minItems : Says layers MarkerName.minItems Marker.asInt c.minItems e₃)
      (maxItems : Says layers MarkerName.maxItems Marker.asInt c.maxItems e₄)
      (minProperties : Says layers MarkerName.minProperties Marker.asInt c.minProperties e₅)
      (maxProperties : Says layers MarkerName.maxProperties Marker.asInt c.maxProperties e₆)
      (enumValues : Says layers MarkerName.enum Marker.asList c.enumValues e₇) :
      OwnSays layers kind c (e₀ ++ e₁ ++ e₂ ++ e₃ ++ e₄ ++ e₅ ++ e₆ ++ e₇)

theorem rangeSays_range {N : Type} (coerce : Marker → Except ValueError N) :
    RangeSays layers coerce (range layers coerce).1 (range layers coerce).2 :=
  .mk (says_read coerce) (says_read coerce) (says_read Marker.asBool) (says_read Marker.asBool)

theorem numericSays_numeric (kind : Kind) :
    NumericSays layers kind (numeric layers kind).value (numeric layers kind).errors := by
  cases kind with
  | basic b =>
    by_cases integer : b.isInteger = true
    · simp only [numeric, integer, if_true]
      exact .integer integer (rangeSays_range Marker.asInt)
    · by_cases float : b.isFloat = true
      · simp only [numeric, integer, float, if_true]
        exact .float float (rangeSays_range Marker.asFloat)
      · have rangeless : hasRange (.basic b) = false := by simp [hasRange, integer, float]
        simp only [numeric, integer, float]
        exact .other rangeless
  | _ => exact .other rfl

theorem ownSays_own (layers : List MarkerSet) (kind : Kind) :
    OwnSays layers kind (own layers kind).constraints (own layers kind).errors :=
  .mk (numericSays_numeric kind) (says_read Marker.asInt) (says_read Marker.asInt)
    (says_read Marker.asInt) (says_read Marker.asInt) (says_read Marker.asInt)
    (says_read Marker.asInt) (says_read Marker.asList)

end Layers

/-! ## Extraction -/

/-- Nothing is said but about the subject itself. -/
theorem Layers.OwnSays.of_ownPart {layers : List MarkerSet} {kind : Kind} {c : Constraints}
    {errors : List ValueError} (h : OwnSays layers kind c.ownPart errors) :
    OwnSays layers kind c errors := by
  cases h with
  | mk numeric minLength maxLength minItems maxItems minProperties maxProperties enumValues =>
    exact .mk numeric minLength maxLength minItems maxItems minProperties maxProperties enumValues

namespace Extractor

variable {x x' : Extractor} {r r' : Resolved} {docs docs' : List (List String)}
  {e e' : Extraction}

/-- The markers in comment blocks, each of which is a layer. -/
def layers (x : Extractor) (docs : List (List String)) : List MarkerSet :=
  docs.map x.registry.parse

/--
What is read for a subject whose type resolved to `r`, and the comment blocks that it is under: its
own, and then those of the defined types in the chain.
-/
inductive Extracts (x : Extractor) (r : Resolved) : List (List String) → Extraction → Prop where
  | field (f : Field) :
      Extracts x r (f.doc :: (r.chain.filterMap (·.decl)).map (·.doc)) (x.ofField f r)
  | decl (d : TypeDecl) :
      Extracts x r (d.doc :: (r.chain.filterMap (·.decl)).map (·.doc)) (x.ofDecl d r)
  | type : Extracts x r ((r.chain.filterMap (·.decl)).map (·.doc)) (x.ofType r)

theorem layers_chain (x : Extractor) (r : Resolved) :
    x.layers ((r.chain.filterMap (·.decl)).map (·.doc)) = x.typeLayers r := by
  rw [layers, typeLayers, List.map_map]
  rfl

/-- A subject adds to its extraction nothing but its tag and whether it is required. -/
theorem Extracts.parts (h : x.Extracts r docs e) :
    e.constraints.ownPart = (Layers.own (x.layers docs) r.kind).constraints ∧
      e.constraints.items = (x.elements? (maxShapeDepth - 1) (x.layers docs) r).map (·.constraints) ∧
      e.errors = (Layers.own (x.layers docs) r.kind).errors ++
        ((x.elements? (maxShapeDepth - 1) (x.layers docs) r).map (·.errors)).getD [] := by
  have chain := layers_chain x r
  cases h with
  | field f =>
    rw [layers, List.map_cons, ← layers, chain]
    rw [ofField, ofSubject, maxShapeDepth, extractWithin_succ]
    exact ⟨rfl, rfl, rfl⟩
  | decl d =>
    rw [layers, List.map_cons, ← layers, chain]
    rw [ofDecl, ofSubject, maxShapeDepth, extractWithin_succ]
    exact ⟨rfl, rfl, rfl⟩
  | type =>
    rw [chain, ofType, maxShapeDepth, extractWithin_succ]
    exact ⟨rfl, rfl, rfl⟩

/--
The first layer wins. The constraints on a subject itself and the errors in them are what its
layers say, and the errors of its elements come behind; so subjects of one kind in whose layers
the same occurrences win have the same constraints and the same errors in the same order.
-/
theorem Extracts.first_layer_wins (h : x.Extracts r docs e) :
    ∃ own, Layers.OwnSays (x.layers docs) r.kind e.constraints own ∧
      e.errors = own ++
        ((x.elements? (maxShapeDepth - 1) (x.layers docs) r).map (·.errors)).getD [] ∧
      ∀ (x' : Extractor) (r' : Resolved) (docs' : List (List String)) (e' : Extraction),
        x'.Extracts r' docs' e' → r'.kind = r.kind →
        (∀ identifier ∈ Layers.ownMarkers r.kind, ∀ m,
          Layers.Wins (x.layers docs) identifier m ↔ Layers.Wins (x'.layers docs') identifier m) →
        e'.constraints.ownPart = e.constraints.ownPart ∧
        e'.errors = own ++
          ((x'.elements? (maxShapeDepth - 1) (x'.layers docs') r').map (·.errors)).getD [] := by
  obtain ⟨constraints, -, errors⟩ := h.parts
  have said := Layers.ownSays_own (x.layers docs) r.kind
  rw [← constraints] at said
  refine ⟨_, said.of_ownPart, errors, ?_⟩
  intro x' r' docs' e' h' kind same
  obtain ⟨constraints', -, errors'⟩ := h'.parts
  have own := Layers.AgreeOn.own (Layers.agreeOn_of_wins same)
  rw [kind, ← own] at constraints' errors'
  exact ⟨constraints'.trans constraints.symm, errors'⟩

end Extractor

namespace Precedence

def count : TypeDecl where
  name := "Count"
  pos := { line := 4, column := 6 }
  doc := ["// +kubebuilder:validation:Minimum=1", "// +kubebuilder:validation:Maximum=9"]
  isAlias := false
  params := []
  type := .ident "int32" none []

/-- A bound that cannot be read, before one that can and over one that can. -/
def sizeField : Field where
  name := some "Size"
  pos := { line := 8, column := 2 }
  doc := ["// +kubebuilder:validation:Minimum=one", "// +kubebuilder:validation:Minimum=5"]
  type := .pointer (.ident "Count" none [])
  tag := some "json:\"size\""

def level : TypeDecl where
  name := "Level"
  pos := { line := 13, column := 6 }
  doc :=
    ["// +optional", "// +kubebuilder:validation:Maximum=9",
      "// +kubebuilder:validation:Minimum=one"]
  isAlias := false
  params := []
  type := .ident "int32" none []

def package : Package := ⟨"example.com/api", "api", [⟨"api/sizes.go", [count, level]⟩]⟩
def extractor : Extractor := ⟨⟨[package]⟩, .standard⟩
def size : Resolved := extractor.program.resolve (.closed sizeField.type package)
def levels : Resolved := extractor.program.resolve (.closed level.type package)

theorem first_layer_wins_sizes :
    (extractor.Extracts size [sizeField.doc, count.doc] (extractor.ofField sizeField size) ∧
      extractor.Extracts levels [level.doc] (extractor.ofDecl level levels) ∧
      levels.kind = size.kind ∧ ∀ identifier ∈ Layers.ownMarkers size.kind, ∀ m,
        Layers.Wins (extractor.layers [sizeField.doc, count.doc]) identifier m ↔
          Layers.Wins (extractor.layers [level.doc]) identifier m) ∧
    (extractor.ofDecl level levels).constraints.ownPart =
      (extractor.ofField sizeField size).constraints.ownPart ∧
    ∃ own, Layers.OwnSays (extractor.layers [sizeField.doc, count.doc]) size.kind
        (extractor.ofField sizeField size).constraints own ∧
      (extractor.ofField sizeField size).errors = own ∧
      (extractor.ofDecl level levels).errors = own := by
  have field : extractor.Extracts size [sizeField.doc, count.doc]
    (extractor.ofField sizeField size) := .field sizeField
  have decl : extractor.Extracts levels [level.doc] (extractor.ofDecl level levels) := .decl level
  have kind : levels.kind = size.kind := by decide +kernel
  have found : ∀ identifier ∈ Layers.ownMarkers size.kind,
      (extractor.layers [sizeField.doc, count.doc]).flatten.find? (·.identifier == identifier) =
        (extractor.layers [level.doc]).flatten.find? (·.identifier == identifier) := by
    decide +kernel
  have same : ∀ identifier ∈ Layers.ownMarkers size.kind, ∀ m,
      Layers.Wins (extractor.layers [sizeField.doc, count.doc]) identifier m ↔
        Layers.Wins (extractor.layers [level.doc]) identifier m := by
    intro identifier hid m
    rw [Layers.Wins, Layers.Wins, found identifier hid]
  obtain ⟨own, said, errors, others⟩ := field.first_layer_wins
  obtain ⟨constraints, errors'⟩ := others extractor levels _ _ decl kind same
  have number : Extractor.listElem? size = none ∧ Extractor.listElem? levels = none := by
    rw [← Option.isNone_iff_eq_none, ← Option.isNone_iff_eq_none]
    decide +kernel
  rw [Extractor.elements?, number.1] at errors
  rw [Extractor.elements?, number.2] at errors'
  exact ⟨⟨field, decl, kind, same⟩, constraints, own, said, errors.trans (List.append_nil own),
    errors'.trans (List.append_nil own)⟩

end Precedence
end ApiConventions
