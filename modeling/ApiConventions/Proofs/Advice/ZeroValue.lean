import ApiConventions.Proofs.Advice.Pointers
import ApiConventions.Proofs.Constraint.Omitted
import ApiConventions.Proofs.Number.Sign
import ApiConventions.Proofs.Rule.Subjects

/-!
# ApiConventions.Proofs.Advice.ZeroValue

What the advice says about the zero value of a field is true. `ZeroValue.Rejects` says when a
constraint rejects the zero value. Constraints are read off the markers alone: the first occurrence
in the first layer that has it counts, if it can be read. An enumeration that can be read is the
only constraint in force; without one all others are. The size of a struct is that of `ZeroSize`,
and the members that it lacks are those of `Omits`. Neither counts members as the advice does, so
the advice is true of structs that both count alike: those that inline structs only, and hold
nothing back behind a pointer.
-/

namespace ApiConventions

/-! ## Constraints on the zero value -/

/-- The zero value of a field: its type, and the markers of the field itself. -/
structure ZeroValue where
  extractor : Extractor
  type : Resolved
  markers : MarkerSet

/-- The constraints that may reject a zero value. -/
inductive ZeroTest where
  | enum
  | minimum
  | maximum
  | minLength
  | minItems
  | minProperties
  | requiredMembers

/-- The number in a bound on values of this shape. -/
def Shape.bound? (shape : Shape) (m : Marker) : Option ℚ :=
  match shape with
  | .integer => m.asInt.toOption.map Int.cast
  | .float => m.asFloat.toOption.map (·.toRat)
  | _ => none

namespace ZeroValue

variable (z : ZeroValue)

def shape : Shape :=
  Shape.ofResolved z.type

/-- The markers of the field, and then those of its named types, outermost first. -/
def layers : List MarkerSet :=
  z.markers :: z.extractor.typeLayers z.type

def Wins (identifier : String) (m : Marker) : Prop :=
  Layers.Wins z.layers identifier m

/-- The bound that a marker sets on a size. -/
def Asks (identifier : String) (n : Int) : Prop :=
  ∃ m, z.Wins identifier m ∧ m.asInt = .ok n

/-- Whether a marker excludes the end of a range. -/
def Excludes (identifier : String) : Prop :=
  ∃ m, z.Wins identifier m ∧ m.asBool = .ok true

/-- Whether there is an enumeration that can be read. -/
def Enumerated : Prop :=
  ∃ m values, z.Wins MarkerName.enum m ∧ m.asList = .ok values

/-- So many properties are written for a struct. -/
def Writes (size : Nat) : Prop :=
  ∃ held, z.extractor.program.ZeroSize z.type z.type.members size held

/-- A required property of a struct is not written. -/
def OmitsRequired : Prop :=
  ∃ f, z.extractor.program.Omits z.type f ∧
    (z.extractor.registry.parse f.doc).hasAny MarkerName.requiredFamily = true

def Rejects : ZeroTest → Prop
  | .enum => ∃ m values, z.Wins MarkerName.enum m ∧ m.asList = .ok values ∧
      z.shape.enumLiteral ∉ values
  | .minimum => ∃ m q, z.Wins MarkerName.minimum m ∧ z.shape.bound? m = some q ∧
      (0 < q ∨ q = 0 ∧ z.Excludes MarkerName.exclusiveMinimum)
  | .maximum => ∃ m q, z.Wins MarkerName.maximum m ∧ z.shape.bound? m = some q ∧
      (q < 0 ∨ q = 0 ∧ z.Excludes MarkerName.exclusiveMaximum)
  | .minLength => (z.shape = .string ∨ z.shape = .bytes) ∧
      ∃ n, z.Asks MarkerName.minLength n ∧ 0 < n
  | .minItems => z.shape = .list ∧ ∃ n, z.Asks MarkerName.minItems n ∧ 0 < n
  | .minProperties => ∃ n, z.Asks MarkerName.minProperties n ∧
      (z.shape = .map ∧ 0 < n ∨ z.shape = .struct ∧ ∃ size, z.Writes size ∧ (size : Int) < n)
  | .requiredMembers => z.shape = .struct ∧ z.OmitsRequired

/-- An enumeration puts all other constraints out of force. -/
def InForce (t : ZeroTest) : Prop :=
  t = .enum ∨ ¬ z.Enumerated

/-- Where its size matters, a struct inlines structs only, at most eight levels deep. -/
def Nested : Prop :=
  z.shape = .struct → ¬ z.Enumerated →
    z.extractor.program.inlinesWithin maxShapeDepth z.type = true

/-- Where its size matters, a struct holds no property back behind a pointer. -/
def Whole : Prop :=
  z.shape = .struct → ¬ z.Enumerated →
    ∃ size, z.extractor.program.ZeroSize z.type z.type.members size 0

end ZeroValue

/-- The constraints on values of this shape, beside an enumeration. -/
def Shape.tests : Shape → List ZeroTest
  | .string | .bytes => [.minLength]
  | .integer | .float => [.minimum, .maximum]
  | .list => [.minItems]
  | .map => [.minProperties]
  | .struct => [.minProperties, .requiredMembers]
  | .bool | .other => []

namespace ZeroValue

variable {z : ZeroValue} {t : ZeroTest} {identifier : String}

theorem mem_tests_of_rejects (h : z.Rejects t) : t = .enum ∨ t ∈ z.shape.tests := by
  have numeric {m : Marker} {q : ℚ} (hq : z.shape.bound? m = some q) :
      z.shape.tests = [.minimum, .maximum] := by
    cases hs : z.shape with
    | integer => rfl
    | float => rfl
    | _ =>
      rw [hs] at hq
      cases hq
  cases t with
  | enum => exact .inl rfl
  | minimum =>
    obtain ⟨m, q, -, hq, -⟩ := h
    exact .inr (numeric hq ▸ List.mem_cons_self)
  | maximum =>
    obtain ⟨m, q, -, hq, -⟩ := h
    exact .inr (numeric hq ▸ List.mem_cons_of_mem _ List.mem_cons_self)
  | minLength =>
    obtain ⟨hs | hs, -⟩ := h <;> exact .inr (by simp [hs, Shape.tests])
  | minItems => exact .inr (by simp [h.1, Shape.tests])
  | minProperties =>
    obtain ⟨n, -, ⟨hs, -⟩ | ⟨hs, -⟩⟩ := h <;> exact .inr (by simp [hs, Shape.tests])
  | requiredMembers => exact .inr (by simp [h.1, Shape.tests])

/-! ## What is read off the markers -/

theorem getD_read_iff : (Layers.read z.layers identifier Marker.asBool).value.getD false = true ↔
    z.Excludes identifier := by
  have set : (Layers.read z.layers identifier Marker.asBool).value = some true ↔
      z.Excludes identifier := Layers.read_eq_some_iff
  rw [← set]
  cases (Layers.read z.layers identifier Marker.asBool).value with
  | none => simp
  | some b => cases b <;> simp

theorem ofLeastSize_iff :
    (ZeroValidity.ofLeastSize (Layers.read z.layers identifier Marker.asInt).value).valid = true ↔
      ¬ ∃ n, z.Asks identifier n ∧ 0 < n := by
  have all (o : Option Int) : (ZeroValidity.ofLeastSize o).valid = o.all (decide <| · ≤ 0) := by
    cases o <;> rfl
  rw [all, Layers.all_read_iff]
  simp only [decide_eq_true_iff, Asks, Wins]
  grind

/-- A range that is read off the markers contains zero when neither of its ends rejects it. -/
theorem containsZero_iff {N : Type} [Signed N] {coerce : Marker → Except ValueError N}
    {value : N → ℚ} (bound : ∀ m, z.shape.bound? m = (coerce m).toOption.map value)
    (sign : ∀ m n, coerce m = .ok n → Signed.compareZero? n = some (compare (value n) 0)) :
    (Layers.range z.layers coerce).1.containsZero = true ↔
      ¬ z.Rejects .minimum ∧ ¬ z.Rejects .maximum := by
  have reads (m : Marker) (q : ℚ) :
      z.shape.bound? m = some q ↔ ∃ n, coerce m = .ok n ∧ value n = q := by
    rw [bound m]
    cases coerce m <;> simp [Except.toOption]
  rw [Range.containsZero, Bool.and_eq_true]
  refine and_congr ?minimum ?maximum
  case minimum =>
    rw [Layers.range, Layers.all_read_iff]
    constructor
    · rintro h ⟨m, q, hm, hq, hout⟩
      obtain ⟨n, hn, rfl⟩ := (reads m q).1 hq
      rw [← getD_read_iff] at hout
      exact (Range.admitsFrom_iff (sign m n hn)).1 (h m n hm hn) hout
    · intro h m n hm hn
      rw [Range.admitsFrom_iff (sign m n hn), getD_read_iff]
      exact fun hout => h ⟨m, value n, hm, (reads m _).2 ⟨n, hn, rfl⟩, hout⟩
  case maximum =>
    rw [Layers.range, Layers.all_read_iff]
    constructor
    · rintro h ⟨m, q, hm, hq, hout⟩
      obtain ⟨n, hn, rfl⟩ := (reads m q).1 hq
      rw [← getD_read_iff] at hout
      exact (Range.admitsUpTo_iff (sign m n hn)).1 (h m n hm hn) hout
    · intro h m n hm hn
      rw [Range.admitsUpTo_iff (sign m n hn), getD_read_iff]
      exact fun hout => h ⟨m, value n, hm, (reads m _).2 ⟨n, hn, rfl⟩, hout⟩

/-- Constraints that are read off the markers of a zero value, with the shape of its struct. -/
structure Constrains (z : ZeroValue) (c : Constraints) : Prop where
  bounds : c.SameBounds (Layers.own z.layers z.type.kind).constraints
  members : z.type.kind = .struct →
    c.structShape = some (z.extractor.structShape maxShapeDepth z.type)

variable {c : Constraints}

theorem ofKind_of_shape {shape : Shape} (hs : z.shape = shape) (hb : shape ≠ .bytes) :
    Shape.ofKind z.type.kind = shape := by
  rw [ZeroValue.shape, Shape.ofResolved] at hs
  split at hs
  · exact absurd hs.symm hb
  · exact hs

theorem kind_of_shape (hs : z.shape = .struct) : z.type.kind = .struct := by
  have hk := ofKind_of_shape hs (by decide)
  cases hkind : z.type.kind with
  | struct => rfl
  | basic b =>
    rw [hkind] at hk
    cases b <;> cases hk
  | _ =>
    rw [hkind] at hk
    cases hk

theorem own_integer {layers : List MarkerSet} {kind : Kind} (hk : Shape.ofKind kind = .integer) :
    (Layers.own layers kind).constraints.numeric =
      some (.integer (Layers.range layers Marker.asInt).1) := by
  cases kind with
  | basic b =>
    have hb : b.isInteger = true := by
      cases b <;> first | rfl | cases hk
    simp [Layers.own, Layers.numeric, hb]
  | _ => cases hk

theorem own_float {layers : List MarkerSet} {kind : Kind} (hk : Shape.ofKind kind = .float) :
    (Layers.own layers kind).constraints.numeric =
      some (.float (Layers.range layers Marker.asFloat).1) := by
  cases kind with
  | basic b =>
    have hb : b.isInteger = false ∧ b.isFloat = true := by
      cases b <;> first | exact ⟨rfl, rfl⟩ | cases hk
    simp [Layers.own, Layers.numeric, hb]
  | _ => cases hk

theorem Constrains.integer (h : z.Constrains c) (hs : z.shape = .integer) :
    c.numeric = some (.integer (Layers.range z.layers Marker.asInt).1) :=
  h.bounds.numeric.trans (own_integer (ofKind_of_shape hs (by decide)))

theorem Constrains.float (h : z.Constrains c) (hs : z.shape = .float) :
    c.numeric = some (.float (Layers.range z.layers Marker.asFloat).1) :=
  h.bounds.numeric.trans (own_float (ofKind_of_shape hs (by decide)))

theorem isFinite_of_asFloat {m : Marker} {n : Number.Binary64} (h : m.asFloat = .ok n) :
    n.isFinite = true := by
  rw [Marker.asFloat, Marker.coerce] at h
  split at h
  · rename_i a ha
    cases h
    obtain ⟨v, -, hv⟩ := Option.bind_eq_some_iff.1 ha
    exact (Option.filter_eq_some_iff.1 hv).2
  · cases h

/-! ## Without an enumeration -/

/-- The zero value of anything but a struct is valid when no constraint on it rejects it. -/
theorem Constrains.ofShape_iff (h : z.Constrains c) (plain : z.shape ≠ .struct) :
    (ZeroValidity.ofShape z.shape c).valid = true ↔ ∀ t ∈ z.shape.tests, ¬ z.Rejects t := by
  cases hs : z.shape with
  | bool => simp [ZeroValidity.ofShape, Shape.tests]
  | other => simp [ZeroValidity.ofShape, Shape.tests]
  | integer =>
    have bound (m : Marker) : z.shape.bound? m = m.asInt.toOption.map Int.cast := by
      rw [hs]
      rfl
    have contains := containsZero_iff bound fun _ n _ => Signed.compareZero?_int n
    simp only [ZeroValidity.ofShape, h.integer hs, NumericBounds.containsZero, contains]
    simp [Shape.tests]
  | float =>
    have bound (m : Marker) : z.shape.bound? m = m.asFloat.toOption.map (·.toRat) := by
      rw [hs]
      rfl
    have contains := containsZero_iff bound fun _ n hn =>
      n.compareZero?_eq (isFinite_of_asFloat hn)
    simp only [ZeroValidity.ofShape, h.float hs, NumericBounds.containsZero, contains]
    simp [Shape.tests]
  | string =>
    rw [ZeroValidity.ofShape, h.bounds.minLength]
    exact ofLeastSize_iff.trans (by simp [Shape.tests, Rejects, hs])
  | bytes =>
    rw [ZeroValidity.ofShape, h.bounds.minLength]
    exact ofLeastSize_iff.trans (by simp [Shape.tests, Rejects, hs])
  | list =>
    rw [ZeroValidity.ofShape, h.bounds.minItems]
    exact ofLeastSize_iff.trans (by simp [Shape.tests, Rejects, hs])
  | map =>
    rw [ZeroValidity.ofShape, h.bounds.minProperties]
    exact ofLeastSize_iff.trans (by simp [Shape.tests, Rejects, hs])
  | struct => exact absurd hs plain

/-- A struct is valid when its shape counts enough members, and names no required one. -/
theorem Constrains.ofShape_struct_iff (h : z.Constrains c) (hs : z.shape = .struct) :
    (ZeroValidity.ofShape z.shape c).valid = true ↔
      (z.extractor.structShape maxShapeDepth z.type).omittedRequired = [] ∧
      ∀ n, z.Asks MarkerName.minProperties n →
        n ≤ ((z.extractor.structShape maxShapeDepth z.type).alwaysPresent : Int) := by
  rw [hs, ZeroValidity.ofShape, ZeroValidity.ofStruct, h.members (kind_of_shape hs),
    Option.getD_some, Bool.and_eq_true, List.isEmpty_iff, h.bounds.minProperties]
  refine and_congr_right fun _ => Layers.all_read_iff.trans ?_
  simp only [decide_eq_true_iff, Asks, Wins]
  grind

theorem Constrains.not_rejects_struct (h : z.Constrains c) (hs : z.shape = .struct)
    (nested : z.extractor.program.inlinesWithin maxShapeDepth z.type = true) {size : Nat}
    (whole : z.extractor.program.ZeroSize z.type z.type.members size 0)
    (valid : (ZeroValidity.ofShape z.shape c).valid = true) (ht : t ∈ z.shape.tests) :
    ¬ z.Rejects t := by
  obtain ⟨required, enough⟩ := (h.ofShape_struct_iff hs).1 valid
  rw [hs, Shape.tests, List.mem_pair] at ht
  rcases ht with rfl | rfl
  · rintro ⟨n, asks, ⟨hmap, -⟩ | ⟨-, size', ⟨held, writes⟩, few⟩⟩
    · rw [hs] at hmap
      cases hmap
    · obtain ⟨m, k, counted, sum⟩ := Extractor.exists_zeroSize maxShapeDepth z.type nested
      have same := whole.unique writes
      have all := whole.unique counted
      have least := enough n asks
      omega
  · rintro ⟨-, f, omits, marked⟩
    exact Extractor.omittedRequired_ne_nil nested whole omits marked required

theorem Constrains.exists_rejects_struct (h : z.Constrains c) (hs : z.shape = .struct)
    (nested : z.extractor.program.inlinesWithin maxShapeDepth z.type = true)
    (invalid : (ZeroValidity.ofShape z.shape c).valid = false) : ∃ t, z.Rejects t := by
  rw [← Bool.not_eq_true, h.ofShape_struct_iff hs, Classical.not_and_iff_not_or_not] at invalid
  rcases invalid with required | few
  · exact ⟨.requiredMembers, hs, Extractor.exists_omits required⟩
  · obtain ⟨n, few⟩ := not_forall.1 few
    obtain ⟨asks, few⟩ := Classical.not_imp.1 few
    obtain ⟨size, held, writes, sum⟩ := Extractor.exists_zeroSize maxShapeDepth z.type nested
    exact ⟨.minProperties, n, asks, .inr ⟨hs, size, ⟨held, writes⟩, by omega⟩⟩

/-! ## With or without an enumeration -/

theorem Constrains.of_enumerated (h : z.Constrains c) (he : z.Enumerated) :
    (ZeroValidity.of z.shape c).valid = true ↔ ¬ z.Rejects .enum := by
  obtain ⟨m, values, hm, hvalues⟩ := he
  have read : c.enumValues = some values :=
    h.bounds.enumValues.trans (Layers.read_eq_some_iff.2 ⟨m, hm, hvalues⟩)
  rw [ZeroValidity.of, read]
  show values.contains z.shape.enumLiteral = true ↔ _
  rw [List.contains_iff_mem]
  constructor
  · rintro listed ⟨m', values', hm', hvalues', unlisted⟩
    have same : some m = some m' := hm.symm.trans hm'
    cases same
    rw [hvalues] at hvalues'
    cases hvalues'
    exact unlisted listed
  · intro accepts
    by_contra unlisted
    exact accepts ⟨m, values, hm, hvalues, unlisted⟩

theorem Constrains.of_not_enumerated (h : z.Constrains c) (he : ¬ z.Enumerated) :
    ZeroValidity.of z.shape c = ZeroValidity.ofShape z.shape c := by
  have read : c.enumValues = (Layers.read z.layers MarkerName.enum Marker.asList).value :=
    h.bounds.enumValues
  rw [ZeroValidity.of, read]
  cases hv : (Layers.read z.layers MarkerName.enum Marker.asList).value with
  | none => rfl
  | some values =>
    obtain ⟨m, hm, hvalues⟩ := Layers.read_eq_some_iff.1 hv
    exact absurd ⟨m, values, hm, hvalues⟩ he

/-- No constraint in force rejects a valid zero value. -/
theorem Constrains.not_rejects (h : z.Constrains c) (nested : z.Nested) (whole : z.Whole)
    (valid : (ZeroValidity.of z.shape c).valid = true) (ht : z.InForce t) : ¬ z.Rejects t := by
  by_cases he : z.Enumerated
  · obtain rfl : t = .enum := ht.resolve_right fun none => none he
    exact (h.of_enumerated he).1 valid
  · rw [h.of_not_enumerated he] at valid
    intro hr
    rcases mem_tests_of_rejects hr with rfl | ht
    · obtain ⟨m, values, hm, hvalues, -⟩ := hr
      exact he ⟨m, values, hm, hvalues⟩
    · by_cases hs : z.shape = .struct
      · obtain ⟨size, whole⟩ := whole hs he
        exact h.not_rejects_struct hs (nested hs he) whole valid ht hr
      · exact (h.ofShape_iff hs).1 valid t ht hr

/-- A constraint in force rejects an invalid zero value. -/
theorem Constrains.exists_rejects (h : z.Constrains c) (nested : z.Nested)
    (invalid : (ZeroValidity.of z.shape c).valid = false) : ∃ t, z.InForce t ∧ z.Rejects t := by
  by_cases he : z.Enumerated
  · refine ⟨.enum, .inl rfl, ?_⟩
    by_contra accepts
    rw [(h.of_enumerated he).2 accepts] at invalid
    cases invalid
  · rw [h.of_not_enumerated he] at invalid
    by_cases hs : z.shape = .struct
    · obtain ⟨t, hr⟩ := h.exists_rejects_struct hs (nested hs he) invalid
      exact ⟨t, .inr he, hr⟩
    · by_contra none
      have valid := (h.ofShape_iff hs).2 fun t _ hr => none ⟨t, .inr he, hr⟩
      rw [invalid] at valid
      cases valid

theorem Constrains.exists_of_failsMinProperties (h : z.Constrains c) (hs : z.shape = .struct)
    (few : c.failsMinProperties = true) : ∃ n, z.Asks MarkerName.minProperties n ∧
      ((z.extractor.structShape maxShapeDepth z.type).alwaysPresent : Int) < n := by
  rw [Constraints.failsMinProperties, h.members (kind_of_shape hs)] at few
  cases hn : c.minProperties with
  | none =>
    rw [hn] at few
    cases few
  | some n =>
    rw [hn] at few
    rw [h.bounds.minProperties] at hn
    exact ⟨n, Layers.read_eq_some_iff.1 hn, of_decide_eq_true few⟩

end ZeroValue

/-! ## What the advice says -/

def FileContext.zeroValue (ctx : FileContext) (f : Field) (scope : TypeDecl) : ZeroValue where
  extractor := ctx.extractor
  type := ctx.resolve f.type scope
  markers := ctx.markers f.doc

theorem FileContext.constrains (ctx : FileContext) (f : Field) (scope : TypeDecl) :
    (ctx.zeroValue f scope).Constrains (ctx.inspectField f scope).constraints where
  bounds := Extractor.ofField_sameBounds f
  members hk := Extractor.extractWithin_structShape hk

namespace Advice.Remark

variable {x : FieldFacts} {g : Finding} {pos : Position} {words : String}

/-- A remark is read by the words with which it goes on after the name of the field. -/
theorem isPrefixOf_opening (h : Remark x g)
    (said : ((FieldAdvice.ofFinding pos g).after? (.field x.name) words).isSome = true) :
    (words.toList.isPrefixOf g.kind.opening.toList ||
      g.kind.opening.toList.isPrefixOf words.toList) = true := by
  obtain ⟨rest, message⟩ := h.message
  cases same : words.toList.isPrefixOf g.kind.opening.toList ||
      g.kind.opening.toList.isPrefixOf words.toList with
  | true => rfl
  | false =>
    rw [Diagnostic.after?_eq_none message same] at said
    cases said

theorem valid_of_said (h : Remark x g) (said : ((FieldAdvice.ofFinding pos g).after?
    (.field x.name) " has a valid zero value").isSome = true) : x.zero.valid = true := by
  have kinds : ∀ kind : FindingKind,
      (" has a valid zero value".toList.isPrefixOf kind.opening.toList ||
        kind.opening.toList.isPrefixOf " has a valid zero value".toList) = true →
      kind = .shouldBePointer ∨ kind = .incompleteValidation := by
    intro kind
    cases kind <;> decide +kernel
  have hk := kinds _ (h.isPrefixOf_opening said)
  cases h with
  | shouldBePointer valid => exact valid
  | incompleteValidation valid => exact valid
  | _ => rcases hk with hk | hk <;> cases hk

theorem invalid_of_said (h : Remark x g) (said : ((FieldAdvice.ofFinding pos g).after?
    (.field x.name) " does not allow the zero value").isSome = true) : x.zero.valid = false := by
  have kinds : ∀ kind : FindingKind,
      (" does not allow the zero value".toList.isPrefixOf kind.opening.toList ||
        kind.opening.toList.isPrefixOf " does not allow the zero value".toList) = true →
      kind = .needNotBePointer ∨ kind = .mustHaveOmitEmpty ∨ kind = .zeroNotAllowedPointer := by
    intro kind
    cases kind <;> decide +kernel
  have hk := kinds _ (h.isPrefixOf_opening said)
  cases h with
  | needNotBePointer invalid => exact invalid
  | mustHaveOmitEmpty invalid => exact invalid
  | zeroNotAllowedPointer invalid => exact invalid
  | _ => rcases hk with hk | hk | hk <;> cases hk

theorem few_of_said (h : Remark x g) (said : ((FieldAdvice.ofFinding pos g).after? (.field x.name)
    " has a greater than zero minimum number of properties").isSome = true) :
    x.failsMinProperties = true := by
  have kinds : ∀ kind : FindingKind,
      (" has a greater than zero minimum number of properties".toList.isPrefixOf
          kind.opening.toList ||
        kind.opening.toList.isPrefixOf
          " has a greater than zero minimum number of properties".toList) = true →
      kind = .minPropertiesPointer := by
    intro kind
    cases kind <;> decide +kernel
  have hk := kinds _ (h.isPrefixOf_opening said)
  cases h with
  | minPropertiesPointer few => exact few
  | _ => cases hk

end Advice.Remark

namespace FieldAdvice

variable {r : Requirement} {o : AdviceOptions} {ctx : FileContext} {f : Field} {scope : TypeDecl}
  {d : Diagnostic}

/-- What is said about a field beside its malformed markers is a remark. -/
theorem exists_remark {words : String} (hd : d ∈ checkField r o ctx f scope)
    (said : (d.after? (.field f.displayName) words).isSome = true)
    (differ : (words.toList.isPrefixOf " has an invalid validation marker: ".toList ||
      " has an invalid validation marker: ".toList.isPrefixOf words.toList) = false) :
    ∃ g, d = ofFinding f.pos g ∧ Advice.Remark (ctx.facts f scope) g := by
  simp only [checkField] at hd
  split at hd
  · cases hd
  · rcases List.mem_append.1 hd with herror | hremark
    · obtain ⟨e, -, rfl⟩ := List.mem_map.1 herror
      rw [Diagnostic.after?_eq_none String.append_assoc differ] at said
      cases said
    · obtain ⟨g, hg, rfl⟩ := List.mem_map.1 hremark
      exact ⟨g, rfl, Advice.remark_of_mem_evaluate hg⟩

/--
What the advice says about the zero value of a field is true: where the zero value is called
valid, no constraint in force rejects it; where it is called not allowed, one does; and where
the properties of a struct are too few, they are fewer than a lower bound above zero.
-/
theorem zero_remarks_true (hd : d ∈ checkField r o ctx f scope) :
    ((d.after? (.field f.displayName) " has a valid zero value").isSome = true →
      (ctx.zeroValue f scope).Nested → (ctx.zeroValue f scope).Whole →
      ∀ t, (ctx.zeroValue f scope).InForce t → ¬ (ctx.zeroValue f scope).Rejects t) ∧
    ((d.after? (.field f.displayName) " does not allow the zero value").isSome = true →
      (ctx.zeroValue f scope).Nested →
      ∃ t, (ctx.zeroValue f scope).InForce t ∧ (ctx.zeroValue f scope).Rejects t) ∧
    ((d.after? (.field f.displayName)
        " has a greater than zero minimum number of properties").isSome = true →
      ∃ n, (ctx.zeroValue f scope).Asks MarkerName.minProperties n ∧ 0 < n ∧
        ((ctx.extractor.structShape maxShapeDepth
          (ctx.resolve f.type scope)).alwaysPresent : Int) < n) := by
  have hc := ctx.constrains f scope
  have facts : (ctx.facts f scope).zero =
    ZeroValidity.of (ctx.zeroValue f scope).shape (ctx.inspectField f scope).constraints := rfl
  refine ⟨fun said nested whole t ht => ?valid, fun said nested => ?invalid, fun said => ?few⟩
  case valid =>
    obtain ⟨g, rfl, remark⟩ := exists_remark hd said (by decide +kernel)
    have valid := remark.valid_of_said said
    rw [facts] at valid
    exact hc.not_rejects nested whole valid ht
  case invalid =>
    obtain ⟨g, rfl, remark⟩ := exists_remark hd said (by decide +kernel)
    have invalid := remark.invalid_of_said said
    rw [facts] at invalid
    exact hc.exists_rejects nested invalid
  case few =>
    obtain ⟨g, rfl, remark⟩ := exists_remark hd said (by decide +kernel)
    have few := remark.few_of_said said
    rw [FileContext.facts, fieldFacts, FieldFacts.of, Bool.and_eq_true, decide_eq_true_iff] at few
    obtain ⟨n, hn, hlt⟩ := hc.exists_of_failsMinProperties few.1 few.2
    refine ⟨n, hn, ?_, hlt⟩
    have least : (0 : Int) ≤ ((ctx.extractor.structShape maxShapeDepth
      (ctx.resolve f.type scope)).alwaysPresent : Int) := Int.natCast_nonneg _
    exact lt_of_le_of_lt least hlt

end FieldAdvice

def nameField : Field where
  name := some "Name"
  pos := { line := 12, column := 2 }
  doc := ["// +required"]
  type := .ident "string" none []
  tag := some "json:\"name,omitempty\""

def sizeField : Field where
  name := some "Size"
  pos := { line := 17, column := 2 }
  doc := []
  type := .pointer (.ident "int32" none [])
  tag := some "json:\"size,omitempty\""

/-- A struct that lacks a required member in its zero value. -/
def ownerDecl : TypeDecl where
  name := "Owner"
  pos := { line := 11, column := 6 }
  doc := []
  isAlias := false
  params := []
  type := .struct [nameField]

/-- A struct without properties in its zero value, and with too few. -/
def optionsDecl : TypeDecl where
  name := "Options"
  pos := { line := 16, column := 6 }
  doc := ["// +kubebuilder:validation:MinProperties=1"]
  isAlias := false
  params := []
  type := .struct [sizeField]

/-- The struct inlines another one, and its zero value has two properties. -/
def valueField : Field where
  name := some "Value"
  pos := { line := 23, column := 2 }
  doc := ["// +optional", "// +kubebuilder:validation:MinProperties=2"]
  type := .ident "Value" none []
  tag := some "json:\"value,omitempty\""

def ownerField : Field where
  name := some "Owner"
  pos := { line := 25, column := 2 }
  doc := ["// +optional"]
  type := .ident "Owner" none []
  tag := some "json:\"owner,omitempty\""

def optionsField : Field where
  name := some "Options"
  pos := { line := 27, column := 2 }
  doc := ["// +optional"]
  type := .ident "Options" none []
  tag := some "json:\"options,omitempty\""

/-- An enumeration that lists the empty string, and a bound that rejects it. -/
def modeField : Field where
  name := some "Mode"
  pos := { line := 31, column := 2 }
  doc :=
    ["// +optional", "// +kubebuilder:validation:Enum=fast;\"\"",
      "// +kubebuilder:validation:MinLength=1"]
  type := .ident "string" none []
  tag := some "json:\"mode,omitempty\""

def engineDecl : TypeDecl where
  name := "Engine"
  pos := { line := 21, column := 6 }
  doc := []
  isAlias := false
  params := []
  type := .struct [valueField, ownerField, optionsField, modeField]

def engineFile : SourceFile where
  path := "api/engine.go"
  decls := [Embedding.common, Embedding.byValue, ownerDecl, optionsDecl, engineDecl]

def enginePackage : Package :=
  { path := "example.com/api", name := "api", files := [engineFile] }

def engineContext : FileContext where
  program := ⟨[enginePackage]⟩
  package := enginePackage
  file := engineFile
  registry := .standard

theorem whole_value : (engineContext.zeroValue valueField engineDecl).Whole := by
  intro _ _
  have members : (engineContext.zeroValue valueField engineDecl).type.members =
    [Embedding.embedded (.ident "Common" none []), Embedding.replicas] := by rfl
  rw [members]
  refine ⟨2, ?_⟩
  refine .inlined (m := 1) (l := 0) (n := 1) (k := 0) (by decide +kernel) (by decide +kernel) rfl
    (by decide +kernel) ?inner ?rest
  case inner =>
    exact .written (f := Embedding.kind) (n := 0) (by decide +kernel) (by decide +kernel)
      (by decide +kernel) .nil
  case rest =>
    exact .written (n := 0) (by decide +kernel) (by decide +kernel) (by decide +kernel) .nil

theorem zero_remarks_true_in_engine :
    (∃ d ∈ FieldAdvice.checkField .optional {} engineContext valueField engineDecl,
      (d.after? (.field valueField.displayName) " has a valid zero value").isSome = true ∧
        ∀ t, (engineContext.zeroValue valueField engineDecl).InForce t →
          ¬ (engineContext.zeroValue valueField engineDecl).Rejects t) ∧
    (∃ d ∈ FieldAdvice.checkField .optional {} engineContext ownerField engineDecl,
      (d.after? (.field ownerField.displayName) " does not allow the zero value").isSome = true ∧
        ∃ t, (engineContext.zeroValue ownerField engineDecl).InForce t ∧
          (engineContext.zeroValue ownerField engineDecl).Rejects t) ∧
    ∃ d ∈ FieldAdvice.checkField .optional {} engineContext optionsField engineDecl,
      (d.after? (.field optionsField.displayName)
        " has a greater than zero minimum number of properties").isSome = true ∧
        ∃ n, (engineContext.zeroValue optionsField engineDecl).Asks MarkerName.minProperties n ∧
          0 < n ∧ ((engineContext.extractor.structShape maxShapeDepth
            (engineContext.resolve optionsField.type engineDecl)).alwaysPresent : Int) < n := by
  have valid : ∃ d ∈ FieldAdvice.checkField .optional {} engineContext valueField engineDecl,
      (d.after? (.field valueField.displayName) " has a valid zero value").isSome = true := by
    decide +kernel
  have invalid : ∃ d ∈ FieldAdvice.checkField .optional {} engineContext ownerField engineDecl,
      (d.after? (.field ownerField.displayName)
        " does not allow the zero value").isSome = true := by
    decide +kernel
  have few : ∃ d ∈ FieldAdvice.checkField .optional {} engineContext optionsField engineDecl,
      (d.after? (.field optionsField.displayName)
        " has a greater than zero minimum number of properties").isSome = true := by
    decide +kernel
  have nestedValue : (engineContext.zeroValue valueField engineDecl).Nested :=
    fun _ _ => by decide +kernel
  have nestedOwner : (engineContext.zeroValue ownerField engineDecl).Nested :=
    fun _ _ => by decide +kernel
  obtain ⟨d₁, hd₁, said₁⟩ := valid
  obtain ⟨d₂, hd₂, said₂⟩ := invalid
  obtain ⟨d₃, hd₃, said₃⟩ := few
  exact ⟨⟨d₁, hd₁, said₁, (FieldAdvice.zero_remarks_true hd₁).1 said₁ nestedValue whole_value⟩,
    ⟨d₂, hd₂, said₂, (FieldAdvice.zero_remarks_true hd₂).2.1 said₂ nestedOwner⟩,
    d₃, hd₃, said₃, (FieldAdvice.zero_remarks_true hd₃).2.2 said₃⟩

/-- The zero value of an enumerated field may be called valid although a bound rejects it. -/
theorem valid_zero_rejected_by_minLength :
    ∃ d ∈ FieldAdvice.checkField .optional { pointers := .whenRequired } engineContext modeField
        engineDecl,
      (d.after? (.field modeField.displayName) " has a valid zero value").isSome = true ∧
        (engineContext.zeroValue modeField engineDecl).Rejects .minLength := by
  have said : ∃ d ∈ FieldAdvice.checkField .optional { pointers := .whenRequired } engineContext
      modeField engineDecl,
      (d.after? (.field modeField.displayName) " has a valid zero value").isSome = true := by
    decide +kernel
  obtain ⟨d, hd, said⟩ := said
  have shape : (engineContext.zeroValue modeField engineDecl).shape = .string := by decide +kernel
  refine ⟨d, hd, said, .inl shape, 1, ⟨?marker, ?wins, ?reads⟩, by decide⟩
  case marker =>
    exact
      { identifier := MarkerName.minLength
        value := some "1"
        expressions := []
        raw := "kubebuilder:validation:MinLength=1" }
  case wins =>
    show List.find? _ _ = _
    decide +kernel
  case reads => rfl

end ApiConventions
