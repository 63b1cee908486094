import ApiConventions.Proofs.Advice.Table
import ApiConventions.Proofs.Constraint.Parts
import ApiConventions.Proofs.Constraint.Winners
import ApiConventions.Proofs.Correspondence.Revision
import ApiConventions.Proofs.Model.Hole

/-!
# ApiConventions.Proofs.Advice.Pointers

Following the advice on pointers. Adding a pointer level to the type of a field changes the
program, and with it the struct in which the field stands. Yet what the decision table reads
about the field changes only as `FieldFacts.Pointed` says: the field itself bears on the zero
value of its struct only when it has no `omitzero`, and then the table does not ask for the zero
value of a struct. So the advice does not oscillate.
-/

namespace ApiConventions

/-! ## Bounds -/

/-- The same bounds on the subject itself, whatever is asked of its parts. -/
structure Constraints.SameBounds (c c' : Constraints) : Prop where
  numeric : c.numeric = c'.numeric
  minLength : c.minLength = c'.minLength
  minItems : c.minItems = c'.minItems
  minProperties : c.minProperties = c'.minProperties
  enumValues : c.enumValues = c'.enumValues

theorem Constraints.SameBounds.trans {a b c : Constraints} (h : a.SameBounds b)
    (h' : b.SameBounds c) : a.SameBounds c :=
  ⟨h.numeric.trans h'.numeric, h.minLength.trans h'.minLength, h.minItems.trans h'.minItems,
    h.minProperties.trans h'.minProperties, h.enumValues.trans h'.enumValues⟩

theorem Constraints.SameBounds.symm {a b : Constraints} (h : a.SameBounds b) : b.SameBounds a :=
  ⟨h.numeric.symm, h.minLength.symm, h.minItems.symm, h.minProperties.symm, h.enumValues.symm⟩

theorem Constraints.SameBounds.zero {c c' : Constraints} (h : c.SameBounds c') {shape : Shape}
    (hs : shape ≠ .struct) : ZeroValidity.of shape c = ZeroValidity.of shape c' := by
  rw [ZeroValidity.of, ZeroValidity.of, h.enumValues]
  cases c'.enumValues with
  | some values => rfl
  | none =>
    cases shape with
    | struct => exact absurd rfl hs
    | _ => simp only [ZeroValidity.ofShape, h.numeric, h.minLength, h.minItems, h.minProperties]

namespace Extractor

variable {x : Extractor} {levels : Nat} {own : List MarkerSet} {r : Resolved}

/-- The bounds of a subject are read off its layers. -/
theorem extractWithin_sameBounds : (x.extractWithin levels own r).constraints.SameBounds
    (Layers.own (own ++ x.typeLayers r) r.kind).constraints := by
  have part (c : Constraints) : c.SameBounds c.ownPart := ⟨rfl, rfl, rfl, rfl, rfl⟩
  rw [← extractWithin_ownPart]
  exact part _

theorem ofField_sameBounds (f : Field) : (x.ofField f r).constraints.SameBounds
    (Layers.own (x.registry.parse f.doc :: x.typeLayers r) r.kind).constraints := by
  have h : (x.ofField f r).constraints.SameBounds
      (x.extractWithin maxShapeDepth [x.registry.parse f.doc] r).constraints :=
    ⟨rfl, rfl, rfl, rfl, rfl⟩
  exact h.trans extractWithin_sameBounds

/-- The constraints of a type do not depend on the pointers in front of it. -/
theorem extractWithin_pointerDepth (n : Nat) :
    x.extractWithin levels own { r with pointerDepth := n } = x.extractWithin levels own r := by
  have agree : Layers.Agree (own ++ x.typeLayers { r with pointerDepth := n })
    (own ++ x.typeLayers r) := fun _ => rfl
  exact extractWithin_eq_of_agree agree rfl rfl rfl levels

theorem ofField_pointerDepth (f : Field) (n : Nat) :
    x.ofField f { r with pointerDepth := n } = x.ofField f r := by
  simp only [ofField, ofSubject, extractWithin_pointerDepth]

end Extractor

def Field.toPointer (f : Field) : Field :=
  f.withType (.pointer f.type)

theorem Field.toPointer_withType {f : Field} {type : TypeExpr} (h : f.type = .pointer type) :
    (f.withType type).toPointer = f := by
  cases f
  rw [toPointer, withType, withType, ← h]

theorem Field.sameHead_toPointer (f : Field) : f.SameHead f.toPointer := ⟨rfl, rfl, rfl, rfl, rfl⟩

/-- Left out of its struct by its tag, a field does not bear on the zero value. -/
theorem Field.not_bearsShape {f : Field} (hs : f.isSkipped = false)
    (hz : f.jsonTag.omitZero = true) : f.bearsShape = false := by
  rw [isSkipped, Bool.or_eq_false_iff, Bool.or_eq_false_iff] at hs
  obtain ⟨⟨hembedded, hinline⟩, -⟩ := hs
  simp [bearsShape, isInline, hembedded, hinline, hz]

/-! ## The facts about a field -/

/-- What the decision table reads about a field whose type resolved to `r`. -/
def fieldFacts (x : Extractor) (f : Field) (r : Resolved) : FieldFacts :=
  FieldFacts.of f.displayName r (x.ofField f r).constraints

def addPointer (r : Resolved) : Resolved :=
  { r with pointerDepth := r.pointerDepth + 1 }

namespace Correspondence

variable {c : Correspondence}

variable {registry : Registry} {f : Field} {r r' : Resolved}

/-- Past the step limit nothing is known about the pointee. -/
theorem pointed_of_unknown {x x' : Extractor} (kind : r'.kind = .opaqueType)
    (bytes : r'.isByteSlice = false) (depth : r.pointerDepth = 0 → r'.pointerDepth = 0) :
    (fieldFacts x f r).Pointed (fieldFacts x' f.toPointer (addPointer r')) where
  omitZero := rfl
  shape := by
    refine .inl ⟨?_, fun h => congrArg (· + 1) (depth h)⟩
    have hshape : Shape.ofResolved (addPointer r') = Shape.ofResolved r' := rfl
    rw [fieldFacts, FieldFacts.of, hshape, Shape.ofResolved, bytes, kind]
    rfl

theorem Types.sameBounds (hdoc : c.Documented) (h : c.Types r r') :
    (Extractor.ofField ⟨c.left, registry⟩ f r).constraints.SameBounds
      (Extractor.ofField ⟨c.right, registry⟩ f.toPointer (addPointer r')).constraints := by
  have hlayers : Extractor.typeLayers ⟨c.left, registry⟩ r =
      Extractor.typeLayers ⟨c.right, registry⟩ r' := h.typeLayers hdoc
  have hleft := Extractor.ofField_sameBounds (x := ⟨c.left, registry⟩) (r := r) f
  have hright : (Extractor.ofField ⟨c.right, registry⟩ f.toPointer
        (addPointer r')).constraints.SameBounds
      (Layers.own (registry.parse f.doc :: Extractor.typeLayers ⟨c.right, registry⟩ r')
        r'.kind).constraints := Extractor.ofField_sameBounds f.toPointer
  rw [hlayers, h.kind] at hleft
  exact hleft.trans hright.symm

theorem Types.pointed (hc : c.Lawful) (hdoc : c.Documented) (hd : ¬ c.detours) (h : c.Types r r')
    (hf : f.jsonTag.omitZero = true → c.Faithful) :
    (fieldFacts ⟨c.left, registry⟩ f r).Pointed
      (fieldFacts ⟨c.right, registry⟩ f.toPointer (addPointer r')) where
  omitZero := rfl
  shape := by
    have hshape : Shape.ofResolved (addPointer r') = Shape.ofResolved r := h.shape.symm
    refine .inr ⟨hshape, congrArg (· + 1) h.pointerDepth.symm, fun hs => ?_⟩
    have hzero : ZeroValidity.of (Shape.ofResolved r)
          (Extractor.ofField ⟨c.right, registry⟩ f.toPointer (addPointer r')).constraints =
        ZeroValidity.of (Shape.ofResolved r)
          (Extractor.ofField ⟨c.left, registry⟩ f r).constraints := by
      by_cases hstruct : Shape.ofResolved r = .struct
      · rcases hs with hne | homit
        · exact absurd hstruct hne
        · -- The tag leaves the field out of the struct, and the rest of the struct is the same.
          have heq : Extractor.ofField ⟨c.left, registry⟩ f r =
              Extractor.ofField ⟨c.right, registry⟩ f.toPointer r' :=
            ofField_eq hc (hf homit) f.sameHead_toPointer h fun hd' => absurd hd' hd
          rw [addPointer, Extractor.ofField_pointerDepth, heq]
      · exact (h.sameBounds hdoc).symm.zero hstruct
    show ZeroValidity.of (Shape.ofResolved (addPointer r')) _ = _
    rw [hshape]
    exact hzero

theorem Ref.pointed (hc : c.Lawful) (hdoc : c.Documented) (hd : ¬ c.detours) {t t' : TypeRef}
    (h : c.Ref t t')
    (hf : f.jsonTag.omitZero = true → c.Faithful) :
    (fieldFacts ⟨c.left, registry⟩ f (c.left.resolve t)).Pointed
      (fieldFacts ⟨c.right, registry⟩ f.toPointer (addPointer (c.right.resolveWithin 63 t'))) := by
  have within := h.resolveWithin hc (n := 63) fun h => absurd h hd
  have bytes := h.isByteSliceWithin hc (n := 63) (fun h => absurd h hd) fun h => absurd h hd
  cases he : c.left.endsWithin 63 t with
  | false =>
    obtain ⟨kind, notBytes⟩ := Program.resolveWithin_of_not_endsWithin he
    refine pointed_of_unknown (within.kind.symm.trans kind) (bytes.symm.trans notBytes) fun h => ?_
    -- The last step cannot take a pointer away.
    have hdepth := c.left.pointerDepth_le_succ 63 t
    have hzero : (c.left.resolveWithin (63 + 1) t).pointerDepth = 0 := h
    rw [hzero, within.pointerDepth] at hdepth
    exact Nat.le_zero.1 hdepth
  | true =>
    have hleft : c.left.resolve t = c.left.resolveWithin 63 t :=
      Program.resolveWithin_of_le (by decide) he
    rw [hleft]
    exact Types.pointed hc hdoc hd ⟨within, bytes⟩ hf

end Correspondence

namespace FileContext

def facts (ctx : FileContext) (f : Field) (scope : TypeDecl) : FieldFacts :=
  fieldFacts ctx.extractor f (ctx.resolve f.type scope)

end FileContext

namespace Site

variable (s : Site) (f : Field)

/-- The program with the field, and with a pointer level more. -/
def pointerRevision : Revision where
  before := s.program f
  after := s.program f.toPointer
  names _ := True
  exchanged _ _ _ _ := False
  free g := g = f
  detours := False

theorem pointer_decls :
    (s.pointerRevision f).Decls (s.package f.toPointer) (s.decl f) (s.decl f.toPointer) where
  head := ⟨rfl, rfl, rfl, rfl, rfl⟩
  type := s.hole.edit f.sameHead_toPointer fun h => absurd rfl h
  names _ _ := trivial

theorem pointer_packages :
    (s.pointerRevision f).Packages (s.package f) (s.package f.toPointer) :=
  .of_decls rfl (s.forall₂_decls (fun _ _ => .refl _ fun _ _ => trivial) (s.pointer_decls f))

theorem pointer_sound : (s.pointerRevision f).Sound where
  package path := by
    refine Revision.package_rel (forall₂_append_cons (fun P _ => ?_) (s.pointer_packages f)) path
    exact .of_decls rfl (List.forall₂_same.2 fun d _ => .refl P fun _ _ => trivial)
  exchanged _ h := h.elim

/-! ## The facts -/

theorem pointer_ref (registry : Registry) : (s.pointerRevision f).correspondence.Ref
    ((s.context registry f).typeRef f.type (s.decl f))
    ((s.context registry f.toPointer).typeRef f.type (s.decl f.toPointer)) := by
  have names := s.typeNames_subset f
  exact (s.pointer_sound f).typeRef (s.pointer_decls f) (s.pointer_packages f) names (.refl _)

theorem resolve_toPointer (registry : Registry) :
    (s.context registry f.toPointer).resolve f.toPointer.type (s.decl f.toPointer) =
      addPointer ((s.program f.toPointer).resolveWithin 63
        ((s.context registry f.toPointer).typeRef f.type (s.decl f.toPointer))) :=
  Program.resolve_of_pointer rfl

theorem facts_pointed (registry : Registry) (hs : f.isSkipped = false) :
    ((s.context registry f).facts f (s.decl f)).Pointed
      ((s.context registry f.toPointer).facts f.toPointer (s.decl f.toPointer)) := by
  rw [FileContext.facts, FileContext.facts, resolve_toPointer]
  refine (s.pointer_ref f registry).pointed (s.pointer_sound f).lawful Revision.documented id
    fun homit => ?_
  refine Revision.faithful fun g hg heq => ?_
  rw [show g = f from heq, Field.not_bearsShape hs homit] at hg
  cases hg

end Site

/-! ## The rule -/

namespace FieldAdvice

/-- The findings on a field; there are none without the requirement. -/
def findings (r : Requirement) (o : AdviceOptions) (ctx : FileContext) (f : Field)
    (scope : TypeDecl) : List Finding :=
  if f.isSkipped || !isSelected r (ctx.inspectField f scope).constraints then []
  else Advice.evaluate (ctx.facts f scope) r o

def malformed (r : Requirement) (ctx : FileContext) (f : Field) (scope : TypeDecl) :
    List ValueError :=
  if f.isSkipped || !isSelected r (ctx.inspectField f scope).constraints then []
  else (ctx.inspectField f scope).errors

/-- The rule reports malformed markers and findings, and nothing else. -/
theorem checkField_eq (r : Requirement) (o : AdviceOptions) (ctx : FileContext) (f : Field)
    (scope : TypeDecl) : checkField r o ctx f scope =
      Diagnostic.ofErrors f.pos (.field f.displayName) (malformed r ctx f scope) ++
        (findings r o ctx f scope).map (ofFinding f.pos) := by
  rw [checkField, findings, malformed]
  split
  · rfl
  · rfl

variable {r : Requirement} {o : AdviceOptions} {ctx : FileContext} {f : Field} {scope : TypeDecl}
  {g : Finding}

theorem mem_findings (h : g ∈ findings r o ctx f scope) :
    f.isSkipped = false ∧ g ∈ Advice.evaluate (ctx.facts f scope) r o := by
  rw [findings] at h
  split at h
  · cases h
  · rename_i hs
    rw [Bool.or_eq_true, not_or] at hs
    exact ⟨by simpa using hs.1, h⟩

end FieldAdvice

def Site.findings (s : Site) (registry : Registry) (r : Requirement) (o : AdviceOptions)
    (f : Field) : List Finding :=
  FieldAdvice.findings r o (s.context registry f) f (s.decl f)

/--
Advice on pointers is final. When a rule asks to make a field a pointer, a pointer level more
leaves nothing to report but a missing tag. When it asks to remove the pointer of a field, it does
not ask for it once it is removed.
-/
theorem Site.findings_settle (s : Site) (registry : Registry) (r : Requirement) (o : AdviceOptions)
    (f : Field) :
    ((∃ g ∈ s.findings registry r o f, g.kind.asksForPointer = true) →
      ∀ g ∈ s.findings registry r o f.toPointer, g.kind = .missingOmitEmpty) ∧
    ∀ type, f.type = .pointer type →
      (∃ g ∈ s.findings registry r o f, g.kind.asksForNoPointer = true) →
      ∀ g ∈ s.findings registry r o (f.withType type), g.kind.asksForPointer = false := by
  constructor
  · rintro ⟨g, hg, hasks⟩ g' hg'
    obtain ⟨hs, hg⟩ := FieldAdvice.mem_findings hg
    obtain ⟨-, hg'⟩ := FieldAdvice.mem_findings hg'
    exact Advice.evaluate_pointed (s.facts_pointed f registry hs) ⟨g, hg, hasks⟩ hg'
  · rintro type htype ⟨g, hg, hasks⟩ g' hg'
    obtain ⟨hs, hg'⟩ := FieldAdvice.mem_findings hg'
    have pointed := s.facts_pointed (f.withType type) registry hs
    rw [Field.toPointer_withType htype] at pointed
    obtain ⟨-, hg⟩ := FieldAdvice.mem_findings hg
    exact Advice.evaluate_unpointed pointed ⟨g, hg, hasks⟩ hg'

/-- A struct that must not be empty, and of which one member is left open. -/
def nodeSite : Site where
  packagesBefore := []
  packagesAfter := []
  path := "example.com/api"
  name := "api"
  filesBefore := []
  filesAfter := []
  filePath := "api/node.go"
  declsBefore := []
  declsAfter := []
  owner :=
    { name := "Node"
      pos := { line := 4, column := 6 }
      doc := ["// +kubebuilder:validation:MinProperties=1"]
      isAlias := false
      params := []
      type := .func }
  hole := .here [] []

/-- A member whose type is the struct itself; as a pointer it leaves the struct empty. -/
def parentField : Field where
  name := some "Parent"
  pos := { line := 6, column := 2 }
  doc := ["// +optional"]
  type := .ident "Node" none []
  tag := some "json:\"parent,omitempty\""

def labelsField : Field where
  name := some "Labels"
  pos := { line := 6, column := 2 }
  doc := ["// +optional"]
  type := .pointer (.slice (.ident "string" none []))
  tag := some "json:\"labels,omitempty\""

theorem findings_settle_on_node :
    ((∃ g ∈ nodeSite.findings .standard .optional { pointers := .whenRequired } parentField,
        g.kind.asksForPointer = true) ∧
      ∀ g ∈ nodeSite.findings .standard .optional { pointers := .whenRequired }
        parentField.toPointer, g.kind = .missingOmitEmpty) ∧
    (∃ g ∈ nodeSite.findings .standard .optional {} labelsField, g.kind.asksForNoPointer = true) ∧
      ∀ g ∈ nodeSite.findings .standard .optional {}
        (labelsField.withType (.slice (.ident "string" none []))), g.kind.asksForPointer = false := by
  have parent : ∃ g ∈ nodeSite.findings .standard .optional { pointers := .whenRequired }
      parentField, g.kind.asksForPointer = true := by decide +kernel
  have labels : ∃ g ∈ nodeSite.findings .standard .optional {} labelsField,
      g.kind.asksForNoPointer = true := by decide +kernel
  exact ⟨⟨parent, (nodeSite.findings_settle .standard .optional _ parentField).1 parent⟩, labels,
    (nodeSite.findings_settle .standard .optional {} labelsField).2 _ rfl labels⟩

end ApiConventions
