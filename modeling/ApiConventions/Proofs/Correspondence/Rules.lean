import ApiConventions.Proofs.Correspondence.Files

/-!
# ApiConventions.Proofs.Correspondence.Rules

Files that go together get the same diagnostics from every check, as far as the check's questions
about the right file are answered within the step limit.
-/

namespace ApiConventions

theorem Extractor.listElem_of_shape {r : Resolved} (h : Shape.ofResolved r = .list) :
    Extractor.listElem? r = r.elem? := by
  rw [Shape.ofResolved] at h
  rw [Extractor.listElem?]
  by_cases hb : r.isByteSlice
  · rw [if_pos hb] at h
    cases h
  · rw [if_neg hb] at h
    have hl : r.kind.isList = true := by
      cases hk : r.kind with
      | slice => rfl
      | array => rfl
      | basic b => rw [hk, Shape.ofKind] at h; split_ifs at h
      | _ => rw [hk] at h; cases h
    simp [hl, hb]

namespace Correspondence

variable {c : Correspondence} {ctx ctx' : FileContext} {r r' : Resolved} {t t' : TypeRef}

/-! ## Bounds -/

theorem Types.missingBounds (hc : c.Lawful) (h : c.Types r r') {registry : Registry}
    (hs : c.Settled (Extractor.extractProbes ⟨c.right, registry⟩ maxShapeDepth r')) (s : Side)
    (subject : Subject) (cs : Constraints) (withStructs : Bool) :
    s.missingBounds c.left subject r cs withStructs =
      s.missingBounds c.right subject r' cs withStructs := by
  simp only [Side.missingBounds, h.shape]
  congr 1
  cases hshape : Shape.ofResolved r' with
  | list =>
    -- Only then the elements are asked for, and they are those of the extraction.
    have helem := h.elem
    have hlist := Extractor.listElem_of_shape hshape
    rcases option_rel_cases helem with ⟨he, he'⟩ | ⟨u, u', he, he', hu⟩
    · simp only [he, he']
    · have hprobes := hs.mono (Extractor.elem_subset_extractProbes (hlist.trans he'))
      have types := hprobes.resolve hc List.mem_cons_self hu
      simp only [he, he', types.shape]
  | _ => rfl

theorem Files.bounds (h : c.Files ctx ctx') (hc : c.Lawful) (hf : c.Faithful) (s : Side)
    (hd : c.Settled (ctx'.declProbes (fun d => !(d.isAlias || !d.params.isEmpty))
      ctx'.extractor.subjectProbes))
    (hs : c.Settled (ctx'.fieldProbes (!·.isSkipped) ctx'.extractor.subjectProbes)) :
    Bounds.check s ctx = Bounds.check s ctx' := by
  rw [Bounds.check, Bounds.check]
  congr 2
  · refine flatMap_eq_of_forall₂ h.decls fun d d' hmem hdd => ?_
    obtain ⟨head, ht⟩ := hdd
    rw [Bounds.checkDecl, Bounds.checkDecl, head.isAlias, head.params]
    by_cases hsel : d'.isAlias || !d'.params.isEmpty
    · rw [if_pos hsel, if_pos hsel]
    · rw [if_neg hsel, if_neg hsel]
      have info := h.inspectDecl hc hf head ht
        (hd.mono (subset_declProbes hmem (by simp only [hsel]; rfl)))
      simp only [Bounds.checkSubject, info.constraints, info.errors, head.pos, head.name, h.left,
        h.right, info.resolved.missingBounds hc info.settled]
  · refine flatMap_eq_of_forall₂ h.fields fun q q' hmem hqq => ?_
    obtain ⟨head, ht⟩ := hqq
    simp only [Bounds.checkField, head.isSkipped]
    by_cases hsel : q'.1.isSkipped
    · rw [if_pos hsel, if_pos hsel]
    · rw [if_neg hsel, if_neg hsel]
      have info := h.inspectField hc hf head ht
        (hs.mono (subset_fieldProbes hmem (by simp only [hsel]; rfl)))
      simp only [Bounds.checkSubject, info.constraints, info.errors, head.pos, head.displayName,
        h.left, h.right, info.resolved.missingBounds hc info.settled]

/-! ## Advice -/

theorem Files.fieldAdvice (h : c.Files ctx ctx') (hc : c.Lawful) (hf : c.Faithful)
    (rq : Requirement) (o : AdviceOptions)
    (hs : c.Settled (ctx'.fieldProbes (!·.isSkipped) ctx'.extractor.subjectProbes)) :
    FieldAdvice.check rq o ctx = FieldAdvice.check rq o ctx' := by
  rw [FieldAdvice.check, FieldAdvice.check]
  refine flatMap_eq_of_forall₂ h.fields fun q q' hmem hqq => ?_
  obtain ⟨head, ht⟩ := hqq
  simp only [FieldAdvice.checkField, head.isSkipped]
  by_cases hsel : q'.1.isSkipped
  · simp only [hsel, Bool.true_or, if_true]
  · have info := h.inspectField hc hf head ht
      (hs.mono (subset_fieldProbes hmem (by simp only [hsel]; rfl)))
    simp only [FieldFacts.of, info.constraints, info.errors, info.resolved.shape,
      info.resolved.pointerDepth, head.pos, head.displayName]

/-! ## Maps -/

theorem Ref.isReported (hc : c.Lawful) (h : c.Ref t t') (hs : c.Settled (c.right.mapProbes t'))
    (o : MapOptions) :
    NoMaps.isReported o c.left (c.left.resolve t) =
      NoMaps.isReported o c.right (c.right.resolve t') := by
  have types := hs.resolve hc List.mem_cons_self h
  have hparts := types.mapParts
  rw [NoMaps.isReported, NoMaps.isReported, types.kind]
  cases hk : (c.right.resolve t').kind with
  | map =>
    rcases option_rel_cases hparts with ⟨hm, hm'⟩ | ⟨q, q', hm, hm', hkey, hvalue⟩
    · simp only [hm, hm']
    · have hprobes : c.right.mapProbes t' = [t', q'.1, q'.2] := by
        simp only [Program.mapProbes, hk, hm']
      rw [hprobes] at hs
      have key := hs.resolve hc (by simp) hkey
      have value := hs.resolve hc (by simp) hvalue
      simp only [hm, hm', key.kind, value.kind]
  | _ => rfl

theorem Files.noMaps (h : c.Files ctx ctx') (hc : c.Lawful) (o : MapOptions)
    (hd : c.Settled (ctx'.declProbes (!·.isAlias) ctx'.program.mapProbes))
    (hs : c.Settled (ctx'.fieldProbes
      (fun f => !(f.isEmbedded || o.allowedFieldNames.contains f.displayName))
      ctx'.program.mapProbes)) : NoMaps.check o ctx = NoMaps.check o ctx' := by
  rw [h.right] at hd hs
  rw [NoMaps.check, NoMaps.check]
  congr 2
  · refine flatMap_eq_of_forall₂ h.decls fun d d' hmem hdd => ?_
    obtain ⟨head, ht⟩ := hdd
    simp only [NoMaps.checkDecl, head.isAlias, head.pos, head.name, h.left, h.right]
    by_cases hsel : d'.isAlias
    · simp only [hsel, Bool.not_true, Bool.false_and, Bool.false_eq_true, if_false]
    · have hprobes := hd.mono (subset_declProbes hmem (by simp only [hsel]; rfl))
      rw [ht.isReported hc hprobes]
  · refine flatMap_eq_of_forall₂ h.fields fun q q' hmem hqq => ?_
    obtain ⟨head, ht⟩ := hqq
    simp only [NoMaps.checkField, FileContext.resolve, head.isEmbedded, head.pos,
      head.displayName, h.left, h.right]
    by_cases hsel : q'.1.isEmbedded || o.allowedFieldNames.contains q'.1.displayName
    · rw [if_pos hsel, if_pos hsel]
    · rw [if_neg hsel, if_neg hsel]
      have hprobes := hs.mono (subset_fieldProbes hmem (by simp only [hsel]; rfl))
      rw [ht.isReported hc hprobes]

/-! ## Uses -/

theorem Ref.usesWithin (hc : c.Lawful) {n : Nat} {layer : LayerPath} (h : c.Ref t t')
    (hs : c.Answered (c.right.usesProbes n t')) :
    List.Forall₂ (fun u u' => c.Referents u.1 u'.1 ∧ u.2 = u'.2) (c.left.usesWithin n layer t)
      (c.right.usesWithin n layer t') := by
  induction n generalizing layer t t' with
  | zero => exact .nil
  | succ n ih =>
    rw [Program.usesProbes] at hs
    have alike : c.Alike (c.left.peelAliases t) (c.right.peelAliases t') :=
      h.peelWithin hc fun hd => hs hd (.peel t') List.mem_cons_self
    have hs := hs.mono (List.subset_cons_self _ _)
    rw [Program.usesWithin, Program.usesWithin]
    generalize c.left.peelAliases t = u at alike ⊢
    generalize c.right.peelAliases t' = u' at alike hs ⊢
    cases alike with
    | name left right referents =>
      obtain ⟨_, _, _, he⟩ := Program.expr_of_referent left
      obtain ⟨_, _, _, he'⟩ := Program.expr_of_referent right
      simp only [he, he', left, right, Option.toList_some, List.map_cons, List.map_nil]
      exact .cons ⟨referents, rfl⟩ .nil
    | shape shape =>
      have bytes := (Alike.shape shape).isByteSlice hc
      cases shape with
      | pointer elem => exact ih elem hs
      | @slice P P' b b' e e' elem =>
        have hbytes := bytes fun hd _ he => by
          have hsettles := (Program.settles_iff.1 (hs hd _ List.mem_cons_self)).2
          exact hsettles _ he
        simp only [hbytes]
        by_cases hbyte : c.right.isByteSlice ⟨.slice e', P', b'⟩
        · rw [if_pos hbyte, if_pos hbyte]
          exact .nil
        · rw [if_neg hbyte, if_neg hbyte]
          refine ih elem (hs.mono ?_)
          simp only [if_neg hbyte]
          exact List.subset_cons_self _ _
      | array elem => exact ih elem hs
      | map key value =>
        refine List.rel_append ?_ ?_
        · exact ih key (hs.mono (List.subset_append_left _ _))
        · exact ih value (hs.mono (List.subset_append_right _ _))
      | @interface P P' b b' ts ts' terms =>
        rcases forall₂_map_cases terms with ⟨rfl, rfl⟩ | ⟨e, e', rfl, rfl, term⟩ |
          ⟨_, _, _, _, _, _, rfl, rfl⟩
        · exact .nil
        · exact ih term hs
        · exact .nil
      | _ => exact .nil

/-- A complaint that is the same about referents that go together. -/
def Respects (c : Correspondence) (complaint? : Referent → Option String) : Prop :=
  ∀ ρ ρ', c.Referents ρ ρ' → complaint? ρ = complaint? ρ'

theorem Referents.basic {ρ ρ' : Referent} (h : c.Referents ρ ρ') :
    TypeUsage.basic? ρ = TypeUsage.basic? ρ' := by
  cases h <;> rfl

theorem Referents.typeName (hc : c.Lawful) {ρ ρ' : Referent} (h : c.Referents ρ ρ') :
    TypeUsage.typeName? ρ = TypeUsage.typeName? ρ' := by
  cases h with
  | decl package decl _ => simp only [TypeUsage.typeName?, hc.path package, hc.name decl]
  | _ => rfl

theorem respects_boolComplaint : c.Respects TypeUsage.boolComplaint? := fun _ _ h => by
  rw [TypeUsage.boolComplaint?, TypeUsage.boolComplaint?, h.basic]

theorem respects_floatComplaint : c.Respects TypeUsage.floatComplaint? := fun _ _ h => by
  rw [TypeUsage.floatComplaint?, TypeUsage.floatComplaint?, h.basic]

theorem respects_integerComplaint : c.Respects TypeUsage.integerComplaint? := fun _ _ h => by
  rw [TypeUsage.integerComplaint?, TypeUsage.integerComplaint?, h.basic]

theorem respects_durationComplaint (hc : c.Lawful) : c.Respects TypeUsage.durationComplaint? :=
  fun _ _ h => by
    rw [TypeUsage.durationComplaint?, TypeUsage.durationComplaint?, h.typeName hc]

theorem Files.typeUsage (h : c.Files ctx ctx') (hc : c.Lawful)
    {complaint? : Referent → Option String} (hr : c.Respects complaint?)
    (hd : c.Answered (ctx'.declProbes (fun _ => true) (ctx'.program.usesProbes maxUsageDepth)))
    (hs : c.Answered (ctx'.fieldProbes (!·.isEmbedded) (ctx'.program.usesProbes maxUsageDepth))) :
    TypeUsage.check complaint? ctx = TypeUsage.check complaint? ctx' := by
  have inType {subject : Subject} {pos : Position} {t t' : TypeRef} (ht : c.Ref t t')
      (hp : c.Answered (ctx'.program.usesProbes maxUsageDepth t')) :
      (ctx.program.uses t).filterMap (TypeUsage.diagnose? complaint? subject pos) =
        (ctx'.program.uses t').filterMap (TypeUsage.diagnose? complaint? subject pos) := by
    rw [h.right] at hp
    rw [h.left, h.right]
    refine filterMap_eq_of_forall₂ (ht.usesWithin hc hp) fun u u' _ huu => ?_
    rw [TypeUsage.diagnose?, TypeUsage.diagnose?, hr _ _ huu.1, huu.2]
  simp only [TypeUsage.check]
  congr 2
  · refine flatMap_eq_of_forall₂ h.decls fun d d' hmem hdd => ?_
    obtain ⟨head, ht⟩ := hdd
    rw [head.name, head.pos]
    exact inType ht (hd.mono (subset_declProbes hmem rfl))
  · have named := List.rel_filter (p := fun q => !q.1.isEmbedded) (q := fun q => !q.1.isEmbedded)
      (fun q q' hqq => by simp only [hqq.1.isEmbedded]) h.fields
    refine flatMap_eq_of_forall₂ named fun q q' hmem hqq => ?_
    obtain ⟨head, ht⟩ := hqq
    obtain ⟨hmem, hsel⟩ := List.mem_filter.1 hmem
    rw [head.displayName, head.pos]
    exact inType ht (hs.mono (subset_fieldProbes hmem hsel))

/-! ## List tags -/

theorem namesOfMember_eq {f f' : Field} {inlined inlined' : Resolved → List String}
    (head : f.SameHead f')
    (hi : f.bearsShape = true → f.isInline = true →
      inlined (c.left.resolve (r.memberType f)) = inlined' (c.right.resolve (r'.memberType f'))) :
    ListTags.namesOfMember inlined c.left r f = ListTags.namesOfMember inlined' c.right r' f' := by
  simp only [ListTags.namesOfMember, ListTags.memberName, ← head.jsonTag, ← head.isInline,
    ← head.displayName]
  by_cases hig : f.jsonTag.ignored
  · rw [if_pos hig, if_pos hig]
  · rw [if_neg hig, if_neg hig]
    by_cases hin : f.isInline
    · rw [if_pos hin, if_pos hin]
      exact hi (by simp [Field.bearsShape, hig, hin]) hin
    · rw [if_neg hin, if_neg hin]

/-- The names that a list may have for keys are found by resolutions that its shape needs. -/
theorem memberNames_eq (hc : c.Lawful) (hf : c.Faithful) {registry : Registry} {levels : Nat}
    (h : c.Resolutions r r')
    (hs : c.Settled (Extractor.shapeProbes ⟨c.right, registry⟩ levels r')) :
    ListTags.memberNames c.left (levels + 1) r = ListTags.memberNames c.right (levels + 1) r' := by
  induction levels generalizing r r' with
  | zero =>
    rw [ListTags.memberNames, ListTags.memberNames]
    refine flatMap_eq_of_forall₂ h.members fun f f' hmem hff => ?_
    obtain ⟨hm, ht⟩ := hff
    have head := hf.head hm
    refine namesOfMember_eq head fun hb _ => ?_
    have types := hs.resolve hc (Extractor.memberType_mem_shapeProbes 0 hmem (head.bearsShape ▸ hb))
      (ht (hf.tracked hb))
    -- One level further no member is followed.
    rw [ListTags.memberNames, ListTags.memberNames]
    refine flatMap_eq_of_forall₂ types.members fun g g' _ hgg => ?_
    exact namesOfMember_eq (hf.head hgg.1) fun _ _ => rfl
  | succ levels ih =>
    rw [ListTags.memberNames, ListTags.memberNames]
    refine flatMap_eq_of_forall₂ h.members fun f f' hmem hff => ?_
    obtain ⟨hm, ht⟩ := hff
    have head := hf.head hm
    refine namesOfMember_eq head fun hb hin => ?_
    have hb' : f'.bearsShape = true := head.bearsShape ▸ hb
    have types := hs.resolve hc (Extractor.memberType_mem_shapeProbes _ hmem hb')
      (ht (hf.tracked hb))
    exact ih types.toResolutions
      (hs.mono (Extractor.shapeProbes_subset_of_inline hmem hb' (head.isInline ▸ hin)))

theorem Types.checkElements (hc : c.Lawful) (hf : c.Faithful) (h : c.Types r r')
    {registry : Registry}
    (hs : c.Settled (Extractor.extractProbes ⟨c.right, registry⟩ 7 r')) (usage : SetUsage)
    (name listType : String) (layer : MarkerSet) :
    ListTags.checkElements usage c.left name listType layer r =
      ListTags.checkElements usage c.right name listType layer r' := by
  have hnames : ListTags.memberNames c.left ListTags.maxEmbeddingDepth r =
      ListTags.memberNames c.right ListTags.maxEmbeddingDepth r' :=
    memberNames_eq hc hf h.toResolutions
      (hs.mono (Extractor.shapeProbes_subset_extractProbes 7))
  simp only [ListTags.checkElements, ListTags.checkKeys, h.kind, hnames]

theorem Types.checkList (hc : c.Lawful) (hf : c.Faithful) (h : c.Types r r') {registry : Registry}
    (hs : c.Settled (Extractor.extractProbes ⟨c.right, registry⟩ maxShapeDepth r'))
    (hlist : Extractor.listElem? r' = r'.elem?) (usage : SetUsage) (name : String)
    (layer : MarkerSet) :
    ListTags.checkList usage c.left name layer r =
      ListTags.checkList usage c.right name layer r' := by
  have helem := h.elem
  simp only [ListTags.checkList]
  rcases option_rel_cases helem with ⟨he, he'⟩ | ⟨u, u', he, he', hu⟩
  · simp only [he, he']
  · have hprobes := hs.mono (Extractor.elem_subset_extractProbes (hlist.trans he'))
    have types := hprobes.resolve hc List.mem_cons_self hu
    have hcheck := types.checkElements hc hf (hprobes.mono (List.subset_cons_self _ _)) usage
    simp only [he, he', hcheck]

theorem Types.messages (hc : c.Lawful) (hf : c.Faithful) (h : c.Types r r') {registry : Registry}
    (hs : c.Settled (Extractor.extractProbes ⟨c.right, registry⟩ maxShapeDepth r'))
    (usage : SetUsage) (name : String) (layers : List MarkerSet) :
    ListTags.messages usage c.left name layers r =
      ListTags.messages usage c.right name layers r' := by
  rw [ListTags.messages, ListTags.messages, h.isByteSlice, h.kind]
  cases hbyte : r'.isByteSlice with
  | true => cases layers.find? (·.has MarkerName.listType) <;> rfl
  | false =>
    by_cases hlist : r'.kind.isList
    · have helem : Extractor.listElem? r' = r'.elem? := by
        simp [Extractor.listElem?, hlist, hbyte]
      simp only [h.checkList hc hf hs helem]
    · simp only [hlist, Bool.not_false, if_true]

theorem Files.listTags (h : c.Files ctx ctx') (hc : c.Lawful) (hf : c.Faithful) (usage : SetUsage)
    (hs : c.Settled (ctx'.fieldProbes (!·.isSkipped) ctx'.extractor.subjectProbes)) :
    ListTags.check usage ctx = ListTags.check usage ctx' := by
  rw [ListTags.check, ListTags.check]
  refine flatMap_eq_of_forall₂ h.fields fun q q' hmem hqq => ?_
  obtain ⟨head, ht⟩ := hqq
  simp only [ListTags.checkField, head.isSkipped]
  by_cases hsel : q'.1.isSkipped
  · rw [if_pos hsel, if_pos hsel]
  · rw [if_neg hsel, if_neg hsel]
    have info := h.inspectField hc hf head ht
      (hs.mono (subset_fieldProbes hmem (by simp only [hsel]; rfl)))
    have layers : ctx.extractor.typeLayers (ctx.inspectField q.1 q.2).resolved =
        ctx'.extractor.typeLayers (ctx'.inspectField q'.1 q'.2).resolved := by
      rw [h.extractor.1, h.extractor.2]
      exact info.resolved.typeLayers hf.doc
    simp only [layers, info.markers, head.pos, head.displayName,
      h.left, h.right, info.resolved.messages hc hf info.settled]

/-! ## Checks that do not look at types -/

theorem Files.noReferences (h : c.Files ctx ctx') (policy : ReferencePolicy) :
    NoReferences.check policy ctx = NoReferences.check policy ctx' := by
  rw [NoReferences.check, NoReferences.check]
  refine filterMap_eq_of_forall₂ h.fields fun q q' _ hqq => ?_
  simp only [hqq.1.isEmbedded, hqq.1.jsonTag, hqq.1.displayName, hqq.1.pos]

theorem Files.requirementMarkers (h : c.Files ctx ctx') (preferred : PreferredMarkers) :
    RequirementMarkers.check preferred ctx = RequirementMarkers.check preferred ctx' := by
  rw [RequirementMarkers.check, RequirementMarkers.check]
  refine flatMap_eq_of_forall₂ h.fields fun q q' _ hqq => ?_
  simp only [RequirementMarkers.checkField, RequirementMarkers.misspelled, FileContext.markers,
    hqq.1.isSkipped, hqq.1.doc, hqq.1.displayName, hqq.1.pos, h.registry]

theorem Files.duplicateMarkers (h : c.Files ctx ctx') :
    DuplicateMarkers.check ctx = DuplicateMarkers.check ctx' := by
  rw [DuplicateMarkers.check, DuplicateMarkers.check]
  congr 2
  · refine flatMap_eq_of_forall₂ h.decls fun d d' _ hdd => ?_
    simp only [DuplicateMarkers.checkDoc, FileContext.markers, hdd.1.name, hdd.1.doc, hdd.1.pos,
      h.registry]
  · refine flatMap_eq_of_forall₂ h.fields fun q q' _ hqq => ?_
    simp only [DuplicateMarkers.checkDoc, FileContext.markers, hqq.1.displayName, hqq.1.doc,
      hqq.1.pos, h.registry]

theorem Files.jsonNames (h : c.Files ctx ctx') (pattern : NamePattern) :
    JsonNames.check pattern ctx = JsonNames.check pattern ctx' := by
  rw [JsonNames.check, JsonNames.check]
  refine filterMap_eq_of_forall₂ h.fields fun q q' _ hqq => ?_
  simp only [hqq.1.isSkipped, hqq.1.jsonTag, hqq.1.displayName, hqq.1.pos]

theorem Files.commentStart (h : c.Files ctx ctx') :
    CommentStart.check ctx = CommentStart.check ctx' := by
  rw [CommentStart.check, CommentStart.check]
  refine filterMap_eq_of_forall₂ h.fields fun q q' _ hqq => ?_
  simp only [CommentStart.checkField, hqq.1.isSkipped, hqq.1.jsonTag, hqq.1.displayName, hqq.1.doc,
    hqq.1.pos]

/-! ## All checks -/

theorem Files.diagnostics (h : c.Files ctx ctx') (hc : c.Lawful) (hf : c.Faithful) (check : Check)
    (hp : c.Answered (check.probes ctx')) : check.diagnostics ctx = check.diagnostics ctx' := by
  cases check with
  | minLength =>
    have hs := hp.settled
    exact h.bounds hc hf .minimum (hs.mono (List.subset_append_left _ _))
      (hs.mono (List.subset_append_right _ _))
  | maxLength =>
    have hs := hp.settled
    exact h.bounds hc hf .maximum (hs.mono (List.subset_append_left _ _))
      (hs.mono (List.subset_append_right _ _))
  | noMaps o =>
    have hs := hp.settled
    exact h.noMaps hc o (hs.mono (List.subset_append_left _ _))
      (hs.mono (List.subset_append_right _ _))
  | noDurations =>
    exact h.typeUsage hc (respects_durationComplaint hc) (hp.mono (List.subset_append_left _ _))
      (hp.mono (List.subset_append_right _ _))
  | noFloats =>
    exact h.typeUsage hc respects_floatComplaint (hp.mono (List.subset_append_left _ _))
      (hp.mono (List.subset_append_right _ _))
  | noBools =>
    exact h.typeUsage hc respects_boolComplaint (hp.mono (List.subset_append_left _ _))
      (hp.mono (List.subset_append_right _ _))
  | integers =>
    exact h.typeUsage hc respects_integerComplaint (hp.mono (List.subset_append_left _ _))
      (hp.mono (List.subset_append_right _ _))
  | optionalFields o => exact h.fieldAdvice hc hf .optional o hp.settled
  | requiredFields omitEmpty => exact h.fieldAdvice hc hf .required _ hp.settled
  | listTags usage => exact h.listTags hc hf usage hp.settled
  | noReferences policy => exact h.noReferences policy
  | requirementMarkers preferred => exact h.requirementMarkers preferred
  | duplicateMarkers => exact h.duplicateMarkers
  | jsonNames pattern => exact h.jsonNames pattern
  | commentStart => exact h.commentStart

/-- Files that go together have the same violations of a rule. -/
theorem Files.run (h : c.Files ctx ctx') (hc : c.Lawful) (hf : c.Faithful) (rule : Rule)
    (hp : c.Answered (rule.check.probes ctx')) : rule.run ctx = rule.run ctx' := by
  rw [Rule.run, Rule.run, h.diagnostics hc hf rule.check hp, h.path]

end Correspondence
end ApiConventions
