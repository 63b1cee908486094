import ApiConventions.Proofs.Constraint.Tighten

/-!
# ApiConventions.Proofs.Constraint.Winners

Constraints depend on the layers through the winning occurrences only: layers in which the same
occurrences win give the same constraints and the same errors, for the subject, for its elements
and for a struct.
-/

namespace ApiConventions

namespace Layers

/-! ## Markers that count -/

section Wins

variable {layers : List MarkerSet} {identifier : String} {m : Marker}

/-- The occurrence that counts: the first one, where earlier layers come first. -/
def Wins (layers : List MarkerSet) (identifier : String) (m : Marker) : Prop :=
  layers.flatten.find? (·.identifier == identifier) = some m

theorem winner?_eq (layers : List MarkerSet) (identifier : String) :
    winner? layers identifier = layers.flatten.find? (·.identifier == identifier) := by
  rw [List.find?_flatten]
  rfl

theorem read_eq_some_iff {α : Type} {coerce : Marker → Except ValueError α} {a : α} :
    (read layers identifier coerce).value = some a ↔
      ∃ m, Wins layers identifier m ∧ coerce m = .ok a := by
  rw [read, winner?_eq]
  simp only [Wins]
  cases layers.flatten.find? (·.identifier == identifier) with
  | none => simp
  | some m => cases hm : coerce m <;> simp [hm]

theorem all_read_iff {α : Type} {coerce : Marker → Except ValueError α} {p : α → Bool} :
    (read layers identifier coerce).value.all p = true ↔
      ∀ m a, Wins layers identifier m → coerce m = .ok a → p a = true := by
  rw [Option.all_eq_true]
  simp only [read_eq_some_iff]
  exact ⟨fun h m a hm ha => h a ⟨m, hm, ha⟩, fun h a ⟨m, hm, ha⟩ => h m a hm ha⟩

end Wins

/-! ## Agreement -/

/-- Integers and floating point numbers, which have a range. -/
def hasRange : Kind → Bool
  | .basic b => b.isInteger || b.isFloat
  | _ => false

def rangeMarkers : List String :=
  [MarkerName.minimum, MarkerName.maximum, MarkerName.exclusiveMinimum, MarkerName.exclusiveMaximum]

def sizeMarkers : List String :=
  [MarkerName.minLength, MarkerName.maxLength, MarkerName.minItems, MarkerName.maxItems,
    MarkerName.minProperties, MarkerName.maxProperties]

/-- The markers that are read for a subject of this kind, apart from its elements. -/
def ownMarkers (kind : Kind) : List String :=
  (if hasRange kind then rangeMarkers else []) ++ (sizeMarkers ++ [MarkerName.enum])

/-- Layers in which the same occurrence of each of the identifiers wins. -/
def AgreeOn (identifiers : List String) (layers layers' : List MarkerSet) : Prop :=
  ∀ identifier ∈ identifiers, winner? layers identifier = winner? layers' identifier

namespace AgreeOn

variable {identifiers : List String} {layers layers' : List MarkerSet} {kind : Kind}

theorem read (h : AgreeOn identifiers layers layers') {α : Type} {identifier : String}
    (mem : identifier ∈ identifiers) (coerce : Marker → Except ValueError α) :
    read layers identifier coerce = read layers' identifier coerce := by
  rw [Layers.read, Layers.read, h identifier mem]

theorem numeric (h : AgreeOn (ownMarkers kind) layers layers') :
    numeric layers kind = numeric layers' kind := by
  cases ranged : hasRange kind with
  | true =>
    have mem : ∀ identifier ∈ rangeMarkers, identifier ∈ ownMarkers kind := by
      intro identifier hid
      rw [ownMarkers, ranged]
      exact List.mem_append_left _ hid
    have range {N : Type} (coerce : Marker → Except ValueError N) :
        range layers coerce = range layers' coerce := by
      rw [range, range, h.read (mem MarkerName.minimum (by simp [rangeMarkers])),
        h.read (mem MarkerName.maximum (by simp [rangeMarkers])),
        h.read (mem MarkerName.exclusiveMinimum (by simp [rangeMarkers])),
        h.read (mem MarkerName.exclusiveMaximum (by simp [rangeMarkers]))]
    simp only [Layers.numeric, range]
  | false =>
    cases kind with
    | basic b =>
      rw [hasRange, Bool.or_eq_false_iff] at ranged
      simp [Layers.numeric, ranged.1, ranged.2]
    | _ => rfl

theorem own (h : AgreeOn (ownMarkers kind) layers layers') : own layers kind = own layers' kind := by
  have mem : ∀ identifier ∈ sizeMarkers, identifier ∈ ownMarkers kind := by
    intro identifier hid
    exact List.mem_append_right _ (List.mem_append_left _ hid)
  have enum : MarkerName.enum ∈ ownMarkers kind :=
    List.mem_append_right _ (List.mem_append_right _ (List.mem_singleton_self _))
  rw [Layers.own, Layers.own, h.numeric, h.read enum,
    h.read (mem MarkerName.minLength (by simp [sizeMarkers])),
    h.read (mem MarkerName.maxLength (by simp [sizeMarkers])),
    h.read (mem MarkerName.minItems (by simp [sizeMarkers])),
    h.read (mem MarkerName.maxItems (by simp [sizeMarkers])),
    h.read (mem MarkerName.minProperties (by simp [sizeMarkers])),
    h.read (mem MarkerName.maxProperties (by simp [sizeMarkers]))]

end AgreeOn

/-- Layers in which the same occurrence of every identifier wins. -/
def Agree (layers layers' : List MarkerSet) : Prop :=
  ∀ identifier, winner? layers identifier = winner? layers' identifier

namespace Agree

variable {layers layers' : List MarkerSet}

theorem on (h : Agree layers layers') (identifiers : List String) :
    AgreeOn identifiers layers layers' :=
  fun identifier _ => h identifier

theorem empty_cons (layers : List MarkerSet) : Agree ([] :: layers) layers := by
  intro identifier
  rw [winner?_cons]
  rfl

theorem read (h : Agree layers layers') {α : Type} (identifier : String)
    (coerce : Marker → Except ValueError α) :
    read layers identifier coerce = read layers' identifier coerce := by
  rw [Layers.read, Layers.read, h identifier]

theorem overElements (h : Agree layers layers') (element : Extraction) :
    overElements layers element = overElements layers' element := by
  simp only [Layers.overElements, h.read]

end Agree
end Layers

namespace Extractor

variable {x : Extractor} {r r' : Resolved} {markers markers' : List MarkerSet}

/-- The shape of a struct depends on its members only. -/
theorem structShape_eq_of_underlying (h : r.underlying = r'.underlying) (levels : Nat) :
    x.structShape levels r = x.structShape levels r' := by
  have members : r.members = r'.members := by rw [Resolved.members, Resolved.members, h]
  have types : r.memberType = r'.memberType := by
    funext f
    rw [Resolved.memberType, Resolved.memberType, h]
  cases levels with
  | zero => rw [structShape, structShape, members, types]
  | succ levels => rw [structShape, structShape, members, types]

theorem listElem?_eq (kind : r.kind = r'.kind) (underlying : r.underlying = r'.underlying)
    (bytes : r.isByteSlice = r'.isByteSlice) : listElem? r = listElem? r' := by
  rw [listElem?, listElem?, kind, bytes, Resolved.elem?, Resolved.elem?, underlying]

theorem extractWithin_eq_of_agree
    (agree : Layers.Agree (markers ++ x.typeLayers r) (markers' ++ x.typeLayers r'))
    (kind : r.kind = r'.kind) (underlying : r.underlying = r'.underlying)
    (bytes : r.isByteSlice = r'.isByteSlice) (levels : Nat) :
    x.extractWithin levels markers r = x.extractWithin levels markers' r' := by
  have shape (levels : Nat) (e : Extraction) : x.withShape levels r e = x.withShape levels r' e := by
    rw [withShape, withShape, kind, structShape_eq_of_underlying underlying]
  have own := (agree.on (Layers.ownMarkers r'.kind)).own
  cases levels with
  | zero =>
    rw [extractWithin, extractWithin]
    simp only [kind, own, shape]
  | succ levels =>
    rw [extractWithin, extractWithin]
    simp only [kind, own, shape, listElem?_eq kind underlying bytes, withItems, agree.overElements]

end Extractor
end ApiConventions
