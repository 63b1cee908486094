import ApiConventions.Proofs.Correspondence.Files
import ApiConventions.Proofs.Correspondence.Rules
import ApiConventions.Proofs.Rule.Requests

/-!
# ApiConventions.Proofs.Correspondence.Amendment

Programs in which markers are added. Types resolve to the same shapes, and the layers of markers
that a type has grow by the marker where nothing decided on its identifier. So the constraints of
types that go together differ in bounds that only the amended program has.
-/

namespace ApiConventions

theorem MarkerSet.hasAny_append {ms : MarkerSet} {m : Marker} {identifiers : List String}
    (h : m.identifier ∉ identifiers) :
    hasAny (ms ++ [m]) identifiers = ms.hasAny identifiers := by
  induction identifiers with
  | nil => rfl
  | cons identifier identifiers ih =>
    rw [List.mem_cons, not_or] at h
    have other : (m.identifier == identifier) = false := beq_false_of_ne h.1
    have ih := ih h.2
    simp only [hasAny] at ih ⊢
    rw [List.any_cons, List.any_cons, ih, has, has, List.any_append]
    simp [other]

namespace Extraction.Tightens

variable {e e' : Extraction}

theorem withShape (h : e.Tightens e') {x x' : Extractor} {levels : Nat} {r r' : Resolved}
    (kind : r.kind = r'.kind) (shape : x.structShape levels r = x'.structShape levels r') :
    (x.withShape levels r e).Tightens (x'.withShape levels r' e') := by
  rw [Extractor.withShape, Extractor.withShape, kind, shape]
  split
  · exact ⟨h.errors, { h.constraints with structShape := rfl }, h.items⟩
  · exact h

theorem withItems (h : e.Tightens e') {m : Marker} {n : Int} {layers layers' : List MarkerSet}
    (hl : Layers.Extends m layers layers') (hm : m.BoundsSize n) {elem elem' : Extraction}
    (helem : elem.Tightens elem') : (Extractor.withItems layers elem e).Tightens
      (Extractor.withItems layers' elem' e') := by
  obtain ⟨errors, items⟩ := hl.overElements hm helem.errors helem.constraints
  exact ⟨congrArg₂ (· ++ ·) h.errors errors, { h.constraints with }, items⟩

end Extraction.Tightens

/-! ## Amended programs -/

namespace Correspondence

/-- Programs that go together, up to a marker in the comments of the right one. -/
structure Amends (c : Correspondence) (registry : Registry) (m : Marker) : Prop where
  lawful : c.Lawful
  lockstep : ¬ c.detours
  shaped : c.Shaped registry
  layers {t t' : TypeRef} : c.Ref t t' →
    Layers.Extends m (Extractor.typeLayers ⟨c.left, registry⟩ (c.left.resolve t))
      (Extractor.typeLayers ⟨c.right, registry⟩ (c.right.resolve t'))

namespace Amends

variable {c : Correspondence} {registry : Registry} {m : Marker} {n : Int} {t t' : TypeRef}
  (ha : c.Amends registry m)

include ha

theorem settled (ts : List TypeRef) : c.Settled ts :=
  fun hd => absurd hd ha.lockstep

theorem types (h : c.Ref t t') : c.Types (c.left.resolve t) (c.right.resolve t') :=
  h.resolve ha.lawful fun hd => absurd hd ha.lockstep

theorem sameShapes (h : c.Ref t t') :
    SameShapes c.left c.right (c.left.resolve t) (c.right.resolve t') where
  shape := (ha.types h).shape.symm
  elem := option_rel_mono (ha.types h).elem fun _ _ hu => (ha.types hu).shape.symm

theorem extractWithin (hm : m.BoundsSize n) {levels : Nat} {own own' : List MarkerSet}
    (h : c.Ref t t')
    (hl : Layers.Extends m
      (own ++ Extractor.typeLayers ⟨c.left, registry⟩ (c.left.resolve t))
      (own' ++ Extractor.typeLayers ⟨c.right, registry⟩ (c.right.resolve t'))) :
    (Extractor.extractWithin ⟨c.left, registry⟩ levels own (c.left.resolve t)).Tightens
      (Extractor.extractWithin ⟨c.right, registry⟩ levels own' (c.right.resolve t')) := by
  induction levels generalizing own own' t t' with
  | zero =>
    have types := ha.types h
    have shape := structShape_eq ha.lawful ha.shaped types.toResolutions
      (ha.settled (Extractor.shapeProbes ⟨c.right, registry⟩ 0 _))
    rw [Extractor.extractWithin, Extractor.extractWithin, types.kind]
    exact (hl.own hm _).withShape types.kind shape
  | succ levels ih =>
    have types := ha.types h
    have shape := structShape_eq ha.lawful ha.shaped types.toResolutions
      (ha.settled (Extractor.shapeProbes ⟨c.right, registry⟩ (levels + 1) _))
    rw [Extractor.extractWithin, Extractor.extractWithin, types.kind]
    rcases option_rel_cases types.listElem with ⟨he, he'⟩ | ⟨u, u', he, he', hu⟩
    · rw [he, he']
      exact (hl.own hm _).withShape types.kind shape
    · rw [he, he']
      have layers : Layers.Extends m
          ([] ++ Extractor.typeLayers ⟨c.left, registry⟩ (c.left.resolve u))
          ([] ++ Extractor.typeLayers ⟨c.right, registry⟩ (c.right.resolve u')) := ha.layers hu
      exact ((hl.own hm _).withItems hl hm (ih hu layers)).withShape types.kind shape

theorem ofSubject (hm : m.BoundsSize n) {own own' : MarkerSet} (h : c.Ref t t')
    (hl : Layers.Extends m
      (own :: Extractor.typeLayers ⟨c.left, registry⟩ (c.left.resolve t))
      (own' :: Extractor.typeLayers ⟨c.right, registry⟩ (c.right.resolve t'))) :
    (Extractor.ofSubject ⟨c.left, registry⟩ own (c.left.resolve t)).Tightens
      (Extractor.ofSubject ⟨c.right, registry⟩ own' (c.right.resolve t')) := by
  have within : (Extractor.extractWithin ⟨c.left, registry⟩ maxShapeDepth [own]
      (c.left.resolve t)).Tightens (Extractor.extractWithin ⟨c.right, registry⟩ maxShapeDepth [own']
        (c.right.resolve t')) := ha.extractWithin hm h hl
  exact ⟨within.errors, { within.constraints with }, within.items⟩

end Amends

/-! ## Subjects -/

/-- Subjects that go together, up to the marker in the comments of the right one. -/
structure Subjects (c : Correspondence) (registry : Registry) (m : Marker) (doc doc' : List String)
    (t t' : TypeRef) : Prop where
  ref : c.Ref t t'
  layers : Layers.Extends m
    (registry.parse doc :: Extractor.typeLayers ⟨c.left, registry⟩ (c.left.resolve t))
    (registry.parse doc' :: Extractor.typeLayers ⟨c.right, registry⟩ (c.right.resolve t'))
  optional : (registry.parse doc').hasAny MarkerName.optionalFamily =
    (registry.parse doc).hasAny MarkerName.optionalFamily
  required : (registry.parse doc').hasAny MarkerName.requiredFamily =
    (registry.parse doc).hasAny MarkerName.requiredFamily

namespace Amends

variable {c : Correspondence} {registry : Registry} {m : Marker} {n : Int} {t t' : TypeRef}
  {doc doc' : List String} (ha : c.Amends registry m)

include ha

theorem subjects_of_ref (h : c.Ref t t') (doc : List String) :
    c.Subjects registry m doc doc t t' where
  ref := h
  layers := (ha.layers h).cons (registry.parse doc)
  optional := rfl
  required := rfl

/-- The marker may be added to a subject on which nothing decides on its identifier. -/
theorem subjects_append (h : c.Ref t t') (hdoc : registry.parse doc' = registry.parse doc ++ [m])
    (other : m.identifier ∉ MarkerName.optionalFamily ++ MarkerName.requiredFamily)
    (undecided : Layers.winner? (registry.parse doc ::
      Extractor.typeLayers ⟨c.left, registry⟩ (c.left.resolve t)) m.identifier = none) :
    c.Subjects registry m doc doc' t t' := by
  rw [List.mem_append, not_or] at other
  refine ⟨h, ?layers, ?optional, ?required⟩
  case layers =>
    rw [hdoc]
    exact (ha.layers h).append undecided
  case optional => rw [hdoc, MarkerSet.hasAny_append other.1]
  case required => rw [hdoc, MarkerSet.hasAny_append other.2]

variable {s : Side} {P P' : Package} {F F' : SourceFile} {f f' : Field} {d d' : TypeDecl}

/-- A declaration has no diagnostics that it did not have without the marker. -/
theorem checkDecl_sublist (hm : m.BoundsSize n) (name : d.name = d'.name) (pos : d.pos = d'.pos)
    (isAlias : d.isAlias = d'.isAlias) (params : d.params = d'.params)
    (h : c.Subjects registry m d.doc d'.doc (FileContext.declType ⟨c.left, P, F, registry⟩ d)
      (FileContext.declType ⟨c.right, P', F', registry⟩ d')) :
    (Bounds.checkDecl s ⟨c.right, P', F', registry⟩ d').Sublist
      (Bounds.checkDecl s ⟨c.left, P, F, registry⟩ d) := by
  have tight := ha.ofSubject hm h.ref h.layers
  rw [Bounds.checkDecl, Bounds.checkDecl, isAlias, params]
  split
  · exact List.Sublist.refl _
  · have errors : (FileContext.inspectDecl ⟨c.right, P', F', registry⟩ d').errors =
        (FileContext.inspectDecl ⟨c.left, P, F, registry⟩ d).errors := tight.errors
    simp only [errors, ← name, ← pos]
    exact Bounds.checkSubject_sublist (ha.sameShapes h.ref) tight.constraints tight.items

theorem checkField_sublist (hm : m.BoundsSize n) (tag : f.SameTag f') (pos : f.pos = f'.pos)
    (h : c.Subjects registry m f.doc f'.doc
      (FileContext.typeRef ⟨c.left, P, F, registry⟩ f.type d)
      (FileContext.typeRef ⟨c.right, P', F', registry⟩ f'.type d')) :
    (Bounds.checkField s ⟨c.right, P', F', registry⟩ f' d').Sublist
      (Bounds.checkField s ⟨c.left, P, F, registry⟩ f d) := by
  have tight := ha.ofSubject hm h.ref h.layers
  rw [Bounds.checkField, Bounds.checkField, tag.isSkipped]
  split
  · exact List.Sublist.refl _
  · have errors : (FileContext.inspectField ⟨c.right, P', F', registry⟩ f' d').errors =
        (FileContext.inspectField ⟨c.left, P, F, registry⟩ f d).errors := tight.errors
    have optional : (FileContext.inspectField ⟨c.right, P', F', registry⟩ f' d').constraints.optional =
        (FileContext.inspectField ⟨c.left, P, F, registry⟩ f d).constraints.optional := h.optional
    have required : (FileContext.inspectField ⟨c.right, P', F', registry⟩ f' d').constraints.required =
        (FileContext.inspectField ⟨c.left, P, F, registry⟩ f d).constraints.required := h.required
    simp only [errors, optional, required, ← tag.displayName, ← pos]
    exact Bounds.checkSubject_sublist (ha.sameShapes h.ref) { tight.constraints with } tight.items

end Amends
end Correspondence
end ApiConventions
