import ApiConventions.Inspection
import ApiConventions.Proofs.Correspondence.Resolution
import ApiConventions.Proofs.Model.TypeExpr

/-!
# ApiConventions.Proofs.Correspondence.Inspection

Constraints of types that go together. Everything the extraction of constraints learns about the
program it learns from resolutions; `shapeProbes` and `extractProbes` list them. When those of
the right side settle, both sides extract the same constraints and the same errors.
-/

namespace ApiConventions

/-! ## The resolutions of an extraction -/

/-- Whether the zero value of a struct depends on the type of the member. -/
def Field.bearsShape (f : Field) : Bool :=
  !f.jsonTag.ignored && (f.isInline || !f.jsonTag.omitZero)

namespace Extractor

/-- The types that are resolved for the shape of a struct. -/
def shapeProbes (x : Extractor) : Nat → Resolved → List TypeRef
  | 0, r => (r.members.filter (·.bearsShape)).map r.memberType
  | levels + 1, r =>
    (r.members.filter (·.bearsShape)).flatMap fun f =>
      r.memberType f ::
        if f.isInline then x.shapeProbes levels (x.program.resolve (r.memberType f)) else []

/-- The types that are resolved for the constraints of a type. -/
def extractProbes (x : Extractor) : Nat → Resolved → List TypeRef
  | 0, r => x.shapeProbes 0 r
  | levels + 1, r =>
    x.shapeProbes (levels + 1) r ++
      (listElem? r).toList.flatMap fun elem =>
        elem :: x.extractProbes levels (x.program.resolve elem)

def subjectProbes (x : Extractor) (t : TypeRef) : List TypeRef :=
  t :: x.extractProbes maxShapeDepth (x.program.resolve t)

section Members

variable {x : Extractor} {r : Resolved} {f : Field}

theorem memberType_mem_shapeProbes (levels : Nat) (hf : f ∈ r.members)
    (hb : f.bearsShape = true) : r.memberType f ∈ x.shapeProbes levels r := by
  have hf := List.mem_filter.2 ⟨hf, hb⟩
  cases levels with
  | zero => exact List.mem_map_of_mem hf
  | succ levels => exact List.mem_flatMap.2 ⟨f, hf, List.mem_cons_self⟩

theorem shapeProbes_subset_of_inline {levels : Nat} (hf : f ∈ r.members)
    (hb : f.bearsShape = true) (hi : f.isInline = true) :
    x.shapeProbes levels (x.program.resolve (r.memberType f)) ⊆ x.shapeProbes (levels + 1) r := by
  intro t ht
  refine List.mem_flatMap.2 ⟨f, List.mem_filter.2 ⟨hf, hb⟩, List.mem_cons_of_mem _ ?_⟩
  rw [if_pos hi]
  exact ht

theorem shapeProbes_subset_extractProbes (levels : Nat) :
    x.shapeProbes levels r ⊆ x.extractProbes levels r := by
  cases levels with
  | zero => exact List.Subset.refl _
  | succ levels => exact List.subset_append_left _ _

theorem elem_subset_extractProbes {levels : Nat} {elem : TypeRef} (h : listElem? r = some elem) :
    elem :: x.extractProbes levels (x.program.resolve elem) ⊆ x.extractProbes (levels + 1) r := by
  intro t ht
  rw [extractProbes, h]
  exact List.mem_append_right _ (by simpa using ht)

end Members

end Extractor

/-- Two members that are serialized under the same name and in the same way. -/
structure Field.SameTag (f f' : Field) : Prop where
  name : f.name = f'.name
  tag : f.tag = f'.tag
  displayName : f.displayName = f'.displayName

namespace Field.SameTag

variable {f f' : Field}

theorem jsonTag (h : f.SameTag f') : f.jsonTag = f'.jsonTag := by
  rw [Field.jsonTag, Field.jsonTag, h.tag]

theorem isEmbedded (h : f.SameTag f') : f.isEmbedded = f'.isEmbedded := by
  rw [Field.isEmbedded, Field.isEmbedded, h.name]

theorem isInline (h : f.SameTag f') : f.isInline = f'.isInline := by
  rw [Field.isInline, Field.isInline, h.jsonTag, h.isEmbedded]

theorem isSkipped (h : f.SameTag f') : f.isSkipped = f'.isSkipped := by
  rw [Field.isSkipped, Field.isSkipped, h.jsonTag, h.isEmbedded]

theorem bearsShape (h : f.SameTag f') : f.bearsShape = f'.bearsShape := by
  rw [Field.bearsShape, Field.bearsShape, h.jsonTag, h.isInline]

end Field.SameTag

namespace Field.SameHead

variable {f f' : Field}

theorem sameTag (h : f.SameHead f') : f.SameTag f' := ⟨h.name, h.tag, h.displayName⟩

theorem jsonTag (h : f.SameHead f') : f.jsonTag = f'.jsonTag := h.sameTag.jsonTag

theorem isEmbedded (h : f.SameHead f') : f.isEmbedded = f'.isEmbedded := h.sameTag.isEmbedded

theorem isInline (h : f.SameHead f') : f.isInline = f'.isInline := h.sameTag.isInline

theorem isSkipped (h : f.SameHead f') : f.isSkipped = f'.isSkipped := h.sameTag.isSkipped

theorem bearsShape (h : f.SameHead f') : f.bearsShape = f'.bearsShape := h.sameTag.bearsShape

end Field.SameHead

namespace Correspondence

variable {c : Correspondence}

/--
Members keep what the shape of a struct depends on: their tags, whether they are marked as
required, and their types if these bear on the shape.
-/
structure Shaped (c : Correspondence) (registry : Registry) : Prop where
  tag {f f' : Field} : c.members f f' → f.SameTag f'
  required {f f' : Field} : c.members f f' →
    (registry.parse f.doc).hasAny MarkerName.requiredFamily =
      (registry.parse f'.doc).hasAny MarkerName.requiredFamily
  tracked {f : Field} : f.bearsShape = true → c.tracked f

/--
Declarations keep their comments and members their heads, and those members that bear on the
shape of a struct have their types.
-/
structure Faithful (c : Correspondence) : Prop where
  doc : c.Documented
  head {f f' : Field} : c.members f f' → f.SameHead f'
  tracked {f : Field} : f.bearsShape = true → c.tracked f

theorem Faithful.shaped (h : c.Faithful) (registry : Registry) : c.Shaped registry where
  tag hm := (h.head hm).sameTag
  required hm := by rw [(h.head hm).doc]
  tracked hb := h.tracked hb

/-- The references settle on the right side, wherever it may make detours. -/
def Settled (c : Correspondence) (ts : List TypeRef) : Prop :=
  c.detours → ∀ t ∈ ts, c.right.settles t = true

theorem Settled.mono {ts us : List TypeRef} (h : c.Settled us) (hs : ts ⊆ us) : c.Settled ts :=
  fun hd t ht => h hd t (hs ht)

theorem Settled.resolve (hc : c.Lawful) {t t' : TypeRef} {ts : List TypeRef} (hs : c.Settled ts)
    (ht : t' ∈ ts) (h : c.Ref t t') : c.Types (c.left.resolve t) (c.right.resolve t') :=
  h.resolve hc fun hd => hs hd t' ht

variable {registry : Registry} {r r' : Resolved}

/-! ## Shapes -/

theorem Resolutions.typeLayers (hdoc : c.Documented) (h : c.Resolutions r r') :
    Extractor.typeLayers ⟨c.left, registry⟩ r = Extractor.typeLayers ⟨c.right, registry⟩ r' := by
  have hd := congrArg (List.map registry.parse) (h.docs hdoc)
  rw [List.map_map, List.map_map] at hd
  exact hd

theorem Resolutions.omitsZero (h : c.Resolutions r r') (json : JsonTag) :
    Extractor.omitsZero json r = Extractor.omitsZero json r' := by
  rw [Extractor.omitsZero, Extractor.omitsZero, h.kind, h.isPointer]

theorem memberShape_eq {f f' : Field} {inlined inlined' : Resolved → StructShape}
    (hf : f.SameTag f') (required : (registry.parse f.doc).hasAny MarkerName.requiredFamily =
      (registry.parse f'.doc).hasAny MarkerName.requiredFamily)
    (hr : f.bearsShape = true → c.Resolutions r r')
    (hi : f.bearsShape = true → f.isInline = true → inlined r = inlined' r') :
    Extractor.memberShape ⟨c.left, registry⟩ inlined f r =
      Extractor.memberShape ⟨c.right, registry⟩ inlined' f' r' := by
  simp only [Extractor.memberShape, ← hf.jsonTag, ← hf.isInline, ← required, ← hf.displayName]
  by_cases hig : f.jsonTag.ignored
  · rw [if_pos hig, if_pos hig]
  · rw [if_neg hig, if_neg hig]
    by_cases hin : f.isInline
    · have hb : f.bearsShape = true := by simp [Field.bearsShape, hig, hin]
      rw [if_pos hin, if_pos hin, (hr hb).kind, hi hb hin]
    · rw [if_neg hin, if_neg hin]
      -- A member with `omitzero` is left out whatever its type is.
      by_cases hz : f.jsonTag.omitZero
      · simp only [Extractor.omitsZero, hz, Bool.true_or]
      · have hb : f.bearsShape = true := by simp [Field.bearsShape, hig, hz]
        rw [(hr hb).omitsZero]

theorem structShape_eq (hc : c.Lawful) (hf : c.Shaped registry) {levels : Nat}
    (h : c.Resolutions r r')
    (hs : c.Settled (Extractor.shapeProbes ⟨c.right, registry⟩ levels r')) :
    Extractor.structShape ⟨c.left, registry⟩ levels r =
      Extractor.structShape ⟨c.right, registry⟩ levels r' := by
  induction levels generalizing r r' with
  | zero =>
    rw [Extractor.structShape, Extractor.structShape]
    refine congrArg Extractor.joinShapes (map_eq_of_forall₂ h.members fun f f' hmem hff => ?_)
    obtain ⟨hm, ht⟩ := hff
    have head := hf.tag hm
    refine memberShape_eq head (hf.required hm) (fun hb => ?_) fun _ _ => rfl
    have hb' : f'.bearsShape = true := head.bearsShape ▸ hb
    exact (hs.resolve hc (Extractor.memberType_mem_shapeProbes 0 hmem hb')
      (ht (hf.tracked hb))).toResolutions
  | succ levels ih =>
    rw [Extractor.structShape, Extractor.structShape]
    refine congrArg Extractor.joinShapes (map_eq_of_forall₂ h.members fun f f' hmem hff => ?_)
    obtain ⟨hm, ht⟩ := hff
    have head := hf.tag hm
    have types (hb : f.bearsShape = true) :
        c.Types (c.left.resolve (r.memberType f)) (c.right.resolve (r'.memberType f')) :=
      hs.resolve hc (Extractor.memberType_mem_shapeProbes _ hmem (head.bearsShape ▸ hb))
        (ht (hf.tracked hb))
    refine memberShape_eq head (hf.required hm) (fun hb => (types hb).toResolutions) fun hb hin => ?_
    exact ih (types hb).toResolutions (hs.mono (Extractor.shapeProbes_subset_of_inline hmem
      (head.bearsShape ▸ hb) (head.isInline ▸ hin)))

/-! ## Constraints -/

theorem Types.listElem (h : c.Types r r') :
    Option.Rel c.Ref (Extractor.listElem? r) (Extractor.listElem? r') := by
  rw [Extractor.listElem?, Extractor.listElem?, h.kind, h.isByteSlice]
  split
  · exact h.elem
  · exact .none

theorem extractWithin_eq (hc : c.Lawful) (hf : c.Faithful) {levels : Nat} {own : List MarkerSet}
    (h : c.Types r r')
    (hs : c.Settled (Extractor.extractProbes ⟨c.right, registry⟩ levels r')) :
    Extractor.extractWithin ⟨c.left, registry⟩ levels own r =
      Extractor.extractWithin ⟨c.right, registry⟩ levels own r' := by
  have hlayers : Extractor.typeLayers ⟨c.left, registry⟩ r =
      Extractor.typeLayers ⟨c.right, registry⟩ r' := h.typeLayers hf.doc
  induction levels generalizing own r r' with
  | zero =>
    have hshape := structShape_eq hc (hf.shaped registry) h.toResolutions hs
    simp only [Extractor.extractWithin, Extractor.withShape, hlayers, h.kind, hshape]
  | succ levels ih =>
    have hshape := structShape_eq hc (hf.shaped registry) h.toResolutions
      (hs.mono (Extractor.shapeProbes_subset_extractProbes _))
    have helem := h.listElem
    simp only [Extractor.extractWithin, Extractor.withShape, hlayers, h.kind, hshape]
    rcases option_rel_cases helem with ⟨he, he'⟩ | ⟨u, u', he, he', hu⟩
    · simp only [he, he']
    · have hprobes := hs.mono (Extractor.elem_subset_extractProbes he')
      have types := hprobes.resolve hc List.mem_cons_self hu
      have hrest := hprobes.mono (List.subset_cons_self _ _)
      simp only [he, he', ih types hrest (types.typeLayers hf.doc)]

theorem ofSubject_eq (hc : c.Lawful) (hf : c.Faithful) (markers : MarkerSet) (h : c.Types r r')
    (hs : c.Settled (Extractor.extractProbes ⟨c.right, registry⟩ maxShapeDepth r')) :
    Extractor.ofSubject ⟨c.left, registry⟩ markers r =
      Extractor.ofSubject ⟨c.right, registry⟩ markers r' := by
  rw [Extractor.ofSubject, Extractor.ofSubject, extractWithin_eq hc hf h hs]

theorem ofField_eq (hc : c.Lawful) (hf : c.Faithful) {f f' : Field} (head : f.SameHead f')
    (h : c.Types r r')
    (hs : c.Settled (Extractor.extractProbes ⟨c.right, registry⟩ maxShapeDepth r')) :
    Extractor.ofField ⟨c.left, registry⟩ f r = Extractor.ofField ⟨c.right, registry⟩ f' r' := by
  simp only [Extractor.ofField, head.doc, head.jsonTag, ofSubject_eq hc hf _ h hs]

end Correspondence
end ApiConventions
