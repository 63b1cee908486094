import ApiConventions.Rule.Bounds

/-!
# ApiConventions.Proofs.Constraint.Tighten

One marker more. A marker that is added to layers where nothing decides on its identifier decides
on that identifier, and on no other. When it is a bound on a size, no reading fails that did not
fail before, and what was bounded stays bounded; so no bound is missing that was not missing before.
-/

namespace ApiConventions

/-! ## Layers -/

namespace Layers

variable {m : Marker} {layers layers' : List MarkerSet} {identifier : String}

theorem winner?_cons (layer : MarkerSet) (layers : List MarkerSet) (identifier : String) :
    winner? (layer :: layers) identifier =
      (layer.first? identifier).or (winner? layers identifier) := by
  rw [winner?, List.findSome?_cons]
  cases layer.first? identifier <;> rfl

/-- Nothing changes but that the marker may decide on its identifier, where nothing did. -/
def Extends (m : Marker) (layers layers' : List MarkerSet) : Prop :=
  ∀ identifier, winner? layers' identifier = winner? layers identifier ∨
    identifier = m.identifier ∧ winner? layers identifier = none ∧
      winner? layers' identifier = some m

theorem Extends.refl (m : Marker) (layers : List MarkerSet) : Extends m layers layers :=
  fun _ => .inl rfl

theorem Extends.cons (h : Extends m layers layers') (layer : MarkerSet) :
    Extends m (layer :: layers) (layer :: layers') := by
  intro identifier
  rw [winner?_cons, winner?_cons]
  cases layer.first? identifier with
  | some x => exact .inl rfl
  | none => exact h identifier

theorem first?_append (layer : MarkerSet) (m : Marker) (identifier : String) :
    (layer ++ [m] : MarkerSet).first? identifier =
      (layer.first? identifier).or (if m.identifier = identifier then some m else none) := by
  rw [MarkerSet.first?, MarkerSet.first?, List.find?_append]
  by_cases h : m.identifier = identifier <;> simp [h]

theorem winner?_append {layer : MarkerSet} (h : winner? (layer :: layers) m.identifier = none)
    (layers' : List MarkerSet) :
    winner? ((layer ++ [m]) :: layers') m.identifier = some m := by
  rw [winner?_cons, Option.or_eq_none_iff] at h
  rw [winner?_cons, first?_append, h.1, if_pos rfl]
  rfl

theorem Extends.append (h : Extends m layers layers') {layer : MarkerSet}
    (undecided : winner? (layer :: layers) m.identifier = none) :
    Extends m (layer :: layers) ((layer ++ [m]) :: layers') := by
  intro identifier
  by_cases hid : m.identifier = identifier
  · subst hid
    exact .inr ⟨rfl, undecided, winner?_append undecided layers'⟩
  · rw [winner?_cons, winner?_cons, first?_append, if_neg hid, Option.or_none]
    cases layer.first? identifier with
    | some x => exact .inl rfl
    | none => exact h identifier

/-! ## Readings -/

section Readings

variable {α : Type} {coerce : Marker → Except ValueError α}

theorem read_of_winner {x : Marker} {a : α} (h : winner? layers identifier = some x)
    (ok : coerce x = .ok a) : read layers identifier coerce = ⟨some a, []⟩ := by
  rw [read, h]
  simp only [ok]

theorem Extends.read_eq (h : Extends m layers layers') (hid : identifier ≠ m.identifier) :
    read layers' identifier coerce = read layers identifier coerce := by
  rcases h identifier with same | ⟨rfl, -, -⟩
  · rw [read, read, same]
  · exact absurd rfl hid

/-- A reading stays as it is, or gets a value that it did not have. -/
theorem Extends.read (h : Extends m layers layers') {a : α} (ok : coerce m = .ok a)
    (identifier : String) :
    (read layers' identifier coerce).errors = (read layers identifier coerce).errors ∧
      ((Layers.read layers identifier coerce).value.isSome = true →
        (Layers.read layers' identifier coerce).value.isSome = true) := by
  rcases h identifier with same | ⟨rfl, before, after⟩
  · rw [Layers.read, Layers.read, same]
    exact ⟨rfl, id⟩
  · rw [read_of_winner after ok, Layers.read, before]
    exact ⟨rfl, fun _ => rfl⟩

end Readings

end Layers

/-! ## Constraints -/

/-- A marker that is read as a bound on a size, and not as anything else. -/
structure Marker.BoundsSize (m : Marker) (n : Int) : Prop where
  asInt : m.asInt = .ok n
  other : m.identifier ∉ [MarkerName.minimum, MarkerName.maximum, MarkerName.exclusiveMinimum,
    MarkerName.exclusiveMaximum, MarkerName.enum, MarkerName.itemsEnum]

/-- The same constraints, but that more sizes may have bounds. -/
structure Constraints.Tightens (c c' : Constraints) : Prop where
  minLength : c.minLength.isSome = true → c'.minLength.isSome = true
  maxLength : c.maxLength.isSome = true → c'.maxLength.isSome = true
  minItems : c.minItems.isSome = true → c'.minItems.isSome = true
  maxItems : c.maxItems.isSome = true → c'.maxItems.isSome = true
  minProperties : c.minProperties.isSome = true → c'.minProperties.isSome = true
  maxProperties : c.maxProperties.isSome = true → c'.maxProperties.isSome = true
  enumValues : c'.enumValues = c.enumValues
  structShape : c'.structShape = c.structShape

theorem Constraints.Tightens.refl (c : Constraints) : c.Tightens c :=
  ⟨id, id, id, id, id, id, rfl, rfl⟩

/-- The same malformed markers, and more bounds on the subject and on its elements. -/
structure Extraction.Tightens (e e' : Extraction) : Prop where
  errors : e'.errors = e.errors
  constraints : e.constraints.Tightens e'.constraints
  items : (e.constraints.items.getD {}).Tightens (e'.constraints.items.getD {})

namespace Layers.Extends

variable {m : Marker} {n : Int} {layers layers' : List MarkerSet}

theorem numeric (h : Extends m layers layers') (hm : m.BoundsSize n) (kind : Kind) :
    Layers.numeric layers' kind = Layers.numeric layers kind := by
  have other (identifier : String) (hid : identifier ∈ [MarkerName.minimum, MarkerName.maximum,
      MarkerName.exclusiveMinimum, MarkerName.exclusiveMaximum]) : identifier ≠ m.identifier := by
    rintro rfl
    exact hm.other (List.mem_append_left [MarkerName.enum, MarkerName.itemsEnum] hid)
  have range {N : Type} (coerce : Marker → Except ValueError N) :
      Layers.range layers' coerce = Layers.range layers coerce := by
    rw [Layers.range, Layers.range, h.read_eq (other MarkerName.minimum (by simp)),
      h.read_eq (other MarkerName.maximum (by simp)),
      h.read_eq (other MarkerName.exclusiveMinimum (by simp)),
      h.read_eq (other MarkerName.exclusiveMaximum (by simp))]
  simp only [Layers.numeric, range]

theorem own (h : Extends m layers layers') (hm : m.BoundsSize n) (kind : Kind) :
    (Layers.own layers kind).Tightens (Layers.own layers' kind) := by
  have enum : MarkerName.enum ≠ m.identifier := fun hid => hm.other (by simp [← hid])
  have size := h.read hm.asInt
  refine ⟨?errors, ⟨(size _).2, (size _).2, (size _).2, (size _).2, (size _).2, (size _).2, ?enum,
    rfl⟩, .refl _⟩
  case errors => simp only [Layers.own, h.numeric hm, (size _).1, h.read_eq enum]
  case enum => simp only [Layers.own, h.read_eq enum]

theorem overElements (h : Extends m layers layers') (hm : m.BoundsSize n) {e e' : Extraction}
    (he : e'.errors = e.errors) (hc : e.constraints.Tightens e'.constraints) :
    (Layers.overElements layers' e').errors = (Layers.overElements layers e).errors ∧
      (Layers.overElements layers e).constraints.Tightens
        (Layers.overElements layers' e').constraints := by
  have enum : MarkerName.itemsEnum ≠ m.identifier := fun hid => hm.other (by simp [← hid])
  have size := h.read hm.asInt
  have bound {o p : Option Int} (identifier : String) (hop : o.isSome = true → p.isSome = true) :
      ((Layers.read layers identifier Marker.asInt).value.or o).isSome = true →
        ((Layers.read layers' identifier Marker.asInt).value.or p).isSome = true := by
    rw [Option.isSome_or, Option.isSome_or, Bool.or_eq_true, Bool.or_eq_true]
    exact Or.imp (size identifier).2 hop
  refine ⟨?errors, ⟨bound _ hc.minLength, bound _ hc.maxLength, hc.minItems, hc.maxItems,
    bound _ hc.minProperties, bound _ hc.maxProperties, ?enum, hc.structShape⟩⟩
  case errors => simp only [Layers.overElements, (size _).1, h.read_eq enum, he]
  case enum => simp only [Layers.overElements, h.read_eq enum, hc.enumValues]

end Layers.Extends

/-! ## Missing bounds -/

namespace Side

variable {s : Side} {c c' : Constraints} {withStructs : Bool} {shape : Shape} {m : Measure}

/-- The bound on a measure of a subject. -/
def bound? (s : Side) (c : Constraints) : Measure → Option Int
  | .length => s.lengthBound c
  | .items => s.itemsBound c
  | .properties => s.propertiesBound c

/-- What is bounded in types of a shape. -/
def measure? : Shape → Option Measure
  | .string | .bytes => some .length
  | .list => some .items
  | .map | .struct => some .properties
  | _ => none

/-- Whether a bound is asked for where there is none. -/
def wants (s : Side) (c : Constraints) (withStructs : Bool) : Shape → Bool
  | .string | .bytes => c.enumValues.isNone
  | .struct => withStructs && s.wantsStructBound c
  | _ => true

theorem lacking?_eq_some_iff : s.lacking? c withStructs shape = some m ↔
    measure? shape = some m ∧ s.wants c withStructs shape = true ∧ s.bound? c m = none := by
  cases shape <;> cases m <;>
    simp [lacking?, measure?, wants, bound?, and_assoc, and_comm, and_left_comm]

theorem bound?_of_lacking? (h : s.lacking? c withStructs shape = some m) : s.bound? c m = none :=
  (lacking?_eq_some_iff.1 h).2.2

theorem bound?_of_tightens (h : c.Tightens c') (hn : s.bound? c' m = none) :
    s.bound? c m = none := by
  have isNone {o o' : Option Int} (hoo : o.isSome = true → o'.isSome = true) (hn : o' = none) :
      o = none := by
    rw [hn] at hoo
    simpa using hoo
  cases s with
  | minimum =>
    cases m with
    | length => exact isNone h.minLength hn
    | items => exact isNone h.minItems hn
    | properties => exact isNone h.minProperties hn
  | maximum =>
    cases m with
    | length => exact isNone h.maxLength hn
    | items => exact isNone h.maxItems hn
    | properties => exact isNone h.maxProperties hn

/-- A struct without a bound has the same zero value on both sides. -/
theorem wantsStructBound_of_tightens (h : c.Tightens c') (hn : s.bound? c' .properties = none) :
    s.wantsStructBound c' = s.wantsStructBound c := by
  have hn' := bound?_of_tightens h hn
  cases s with
  | minimum =>
    have left : c.minProperties = none := hn'
    have right : c'.minProperties = none := hn
    simp only [wantsStructBound, ZeroValidity.of, ZeroValidity.ofShape, ZeroValidity.ofStruct,
      h.enumValues, h.structShape, left, right]
  | maximum => rfl

/-- Where sizes have more bounds, no other bound is missing. -/
theorem lacking?_of_tightens (h : c.Tightens c') (hm : s.lacking? c' withStructs shape = some m) :
    s.lacking? c withStructs shape = some m := by
  obtain ⟨measure, wanted, hn⟩ := lacking?_eq_some_iff.1 hm
  refine lacking?_eq_some_iff.2 ⟨measure, ?_, bound?_of_tightens h hn⟩
  cases shape with
  | string =>
    rw [wants, h.enumValues] at wanted
    exact wanted
  | bytes =>
    rw [wants, h.enumValues] at wanted
    exact wanted
  | struct =>
    cases measure
    rw [wants, wantsStructBound_of_tightens h hn] at wanted
    exact wanted
  | _ => rfl

/-- The elements of a list lack bounds as a subject does, if their shape has bounds at all. -/
theorem lackingElement?_cases (s : Side) (shape : Shape) :
    (∀ c, s.lackingElement? c shape = s.lacking? c true shape) ∨
      ∀ c, s.lackingElement? c shape = none := by
  cases shape with
  | string => exact .inl fun _ => rfl
  | map => exact .inl fun _ => rfl
  | struct => exact .inl fun _ => rfl
  | _ => exact .inr fun _ => rfl

theorem lackingElement?_of_tightens (h : c.Tightens c') (hm : s.lackingElement? c' shape = some m) :
    s.lackingElement? c shape = some m := by
  rcases s.lackingElement?_cases shape with same | none
  · rw [same] at hm ⊢
    exact lacking?_of_tightens h hm
  · rw [none] at hm
    cases hm

theorem bound?_of_lackingElement? (h : s.lackingElement? c shape = some m) :
    s.bound? c m = none := by
  rcases s.lackingElement?_cases shape with same | none
  · rw [same] at h
    exact bound?_of_lacking? h
  · rw [none] at h
    cases h

end Side
end ApiConventions
