import ApiConventions.Proofs.Correspondence.Inspection
import ApiConventions.Proofs.Rule.Probes

/-!
# ApiConventions.Proofs.Correspondence.Files

Files that go together, and what is known about their declarations and fields. The same is known
about both files where the questions about the right one are answered within the step limit.
-/

namespace ApiConventions

namespace Correspondence

variable {c : Correspondence} {ctx ctx' : FileContext}

/-- Files that go together, each in its program. -/
structure Files (c : Correspondence) (ctx ctx' : FileContext) : Prop where
  left : ctx.program = c.left
  right : ctx'.program = c.right
  registry : ctx.registry = ctx'.registry
  path : ctx.file.path = ctx'.file.path
  decls : List.Forall₂ (fun d d' => d.SameHead d' ∧ c.Ref (ctx.declType d) (ctx'.declType d'))
    ctx.file.decls ctx'.file.decls
  fields : List.Forall₂ (fun q q' => q.1.SameHead q'.1 ∧
    c.Ref (ctx.typeRef q.1.type q.2) (ctx'.typeRef q'.1.type q'.2)) ctx.file.fields ctx'.file.fields

/-- The questions are answered on the right side, wherever it may make detours. -/
def Answered (c : Correspondence) (ps : List Probe) : Prop :=
  c.detours → ∀ q ∈ ps, c.right.answers q = true

theorem Answered.mono {ps qs : List Probe} (h : c.Answered qs) (hs : ps ⊆ qs) : c.Answered ps :=
  fun hd q hq => h hd q (hs hq)

theorem Answered.settled {ts : List TypeRef} (h : c.Answered (ts.map .resolve)) : c.Settled ts :=
  fun hd t ht => h hd (.resolve t) (List.mem_map_of_mem ht)

section Selected

variable {α : Type} {ask : TypeRef → List α}

theorem subset_declProbes {selects : TypeDecl → Bool} {d : TypeDecl} (hd : d ∈ ctx.file.decls)
    (hs : selects d = true) : ask (ctx.declType d) ⊆ ctx.declProbes selects ask :=
  fun _ ha => List.mem_flatMap.2 ⟨d, List.mem_filter.2 ⟨hd, hs⟩, ha⟩

theorem subset_fieldProbes {selects : Field → Bool} {q : Field × TypeDecl}
    (hq : q ∈ ctx.file.fields) (hs : selects q.1 = true) :
    ask (ctx.typeRef q.1.type q.2) ⊆ ctx.fieldProbes selects ask :=
  fun _ ha => List.mem_flatMap.2 ⟨q, List.mem_filter.2 ⟨hq, hs⟩, ha⟩

end Selected

variable {r r' : Resolved} {t t' : TypeRef}

theorem Types.shape (h : c.Types r r') : Shape.ofResolved r = Shape.ofResolved r' := by
  rw [Shape.ofResolved, Shape.ofResolved, h.isByteSlice, h.kind]

/-! ## What is known about a subject -/

structure FieldInfos (c : Correspondence) (registry : Registry) (i i' : FieldInfo) : Prop where
  markers : i.markers = i'.markers
  resolved : c.Types i.resolved i'.resolved
  settled : c.Settled (Extractor.extractProbes ⟨c.right, registry⟩ maxShapeDepth i'.resolved)
  constraints : i.constraints = i'.constraints
  errors : i.errors = i'.errors

structure DeclInfos (c : Correspondence) (registry : Registry) (i i' : DeclInfo) : Prop where
  resolved : c.Types i.resolved i'.resolved
  settled : c.Settled (Extractor.extractProbes ⟨c.right, registry⟩ maxShapeDepth i'.resolved)
  constraints : i.constraints = i'.constraints
  errors : i.errors = i'.errors

theorem Files.extractor (h : c.Files ctx ctx') :
    ctx.extractor = ⟨c.left, ctx'.registry⟩ ∧ ctx'.extractor = ⟨c.right, ctx'.registry⟩ := by
  rw [FileContext.extractor, FileContext.extractor, h.left, h.right, h.registry]
  exact ⟨rfl, rfl⟩

theorem Files.inspectField (h : c.Files ctx ctx') (hc : c.Lawful) (hf : c.Faithful)
    {q q' : Field × TypeDecl} (head : q.1.SameHead q'.1)
    (ht : c.Ref (ctx.typeRef q.1.type q.2) (ctx'.typeRef q'.1.type q'.2))
    (hs : c.Settled (ctx'.extractor.subjectProbes (ctx'.typeRef q'.1.type q'.2))) :
    c.FieldInfos ctx'.registry (ctx.inspectField q.1 q.2) (ctx'.inspectField q'.1 q'.2) := by
  rw [h.extractor.2] at hs
  have types := hs.resolve hc List.mem_cons_self ht
  have settled := hs.mono (List.subset_cons_self _ _)
  have hx := ofField_eq hc hf head types settled
  simp only [FileContext.inspectField, FileContext.resolve, h.extractor.1, h.extractor.2, h.left,
    h.right]
  refine ⟨?_, types, settled, congrArg Extraction.constraints hx, congrArg Extraction.errors hx⟩
  rw [FileContext.markers, FileContext.markers, h.registry, head.doc]

theorem Files.inspectDecl (h : c.Files ctx ctx') (hc : c.Lawful) (hf : c.Faithful)
    {d d' : TypeDecl} (head : d.SameHead d') (ht : c.Ref (ctx.declType d) (ctx'.declType d'))
    (hs : c.Settled (ctx'.extractor.subjectProbes (ctx'.declType d'))) :
    c.DeclInfos ctx'.registry (ctx.inspectDecl d) (ctx'.inspectDecl d') := by
  rw [h.extractor.2] at hs
  have types := hs.resolve hc List.mem_cons_self ht
  have settled := hs.mono (List.subset_cons_self _ _)
  have hx := ofSubject_eq hc hf (ctx'.registry.parse d'.doc) types settled
  simp only [FileContext.inspectDecl, Extractor.ofDecl, h.extractor.1, h.extractor.2, h.left,
    h.right, head.doc]
  exact ⟨types, settled, congrArg Extraction.constraints hx, congrArg Extraction.errors hx⟩

end Correspondence
end ApiConventions
