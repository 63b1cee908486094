import Mathlib.Data.List.Basic
import ApiConventions.Proofs.Report.Sort
import ApiConventions.Rule.Basic

/-!
# ApiConventions.Proofs.Rule.Subjects

A check goes over the declarations of a file and over its fields. `onDecl` and `onField` are what
it has to say about one of them; `diagnostics_eq` puts the answers together, in the order of the
file or sorted by position. `reports` keeps with every diagnostic the declaration it is in, and
`Diagnostic.after?` reads a message.
-/

namespace ApiConventions

theorem Position.le_total (a b : Position) : (a.le b || b.le a) = true := by
  rw [Bool.or_eq_true, Position.le, Position.le]
  by_cases hl : a.line = b.line
  · rw [if_pos hl, if_pos hl.symm, decide_eq_true_iff, decide_eq_true_iff]
    exact UInt64.le_total _ _
  · rw [if_neg hl, if_neg (Ne.symm hl), decide_eq_true_iff, decide_eq_true_iff]
    exact UInt64.le_total _ _

theorem Position.le_trans (a b c : Position) (h : a.le b = true) (h' : b.le c = true) :
    a.le c = true := by
  simp only [Position.le, ← UInt64.toNat_inj, UInt64.le_iff_toNat_le] at h h' ⊢
  split at h <;> split at h' <;> split <;> simp only [decide_eq_true_iff] at h h' ⊢ <;> omega

/-! ## Messages -/

/-- What a diagnostic says of a subject after these words, if it is about the subject in them. -/
def Diagnostic.after? (d : Diagnostic) (subject : Subject) (words : String) : Option String :=
  let start := (subject.text ++ words).toList
  if start.isPrefixOf d.message.toList then some (String.ofList (d.message.toList.drop start.length))
  else none

theorem Diagnostic.after?_eq_some {d : Diagnostic} {subject : Subject} {words rest : String}
    (h : d.message = subject.text ++ words ++ rest) : d.after? subject words = some rest := by
  have split : d.message.toList = (subject.text ++ words).toList ++ rest.toList := by
    rw [h]
    exact String.toList_append
  have hstart : (subject.text ++ words).toList.isPrefixOf d.message.toList = true := by
    rw [split, List.isPrefixOf_iff_prefix]
    exact List.prefix_append _ _
  simp only [after?]
  rw [if_pos hstart, split, List.drop_left, String.ofList_toList]

theorem Diagnostic.exists_of_isSome_after? {d : Diagnostic} {subject : Subject} {words : String}
    (h : (d.after? subject words).isSome = true) :
    ∃ rest, d.message = subject.text ++ (words ++ rest) := by
  simp only [after?] at h
  split at h
  · rename_i hstart
    obtain ⟨rest, hrest⟩ := List.isPrefixOf_iff_prefix.1 hstart
    refine ⟨String.ofList rest, ?_⟩
    rw [← String.append_assoc, ← String.toList_inj, String.toList_append, String.toList_ofList]
    exact hrest.symm
  · cases h

/-- Where a message goes on in other words, it does not go on in these. -/
theorem Diagnostic.after?_eq_none {d : Diagnostic} {subject : Subject} {words said rest : String}
    (h : d.message = subject.text ++ (said ++ rest))
    (differ : (words.toList.isPrefixOf said.toList || said.toList.isPrefixOf words.toList) = false) :
    d.after? subject words = none := by
  rw [← Option.not_isSome_iff_eq_none]
  intro hsome
  obtain ⟨rest', h'⟩ := exists_of_isSome_after? hsome
  have same : said.toList ++ rest.toList = words.toList ++ rest'.toList := by
    rw [h, ← String.toList_inj] at h'
    simpa only [String.toList_append, List.append_cancel_left_eq] using h'
  have hsaid : said.toList <+: said.toList ++ rest.toList := List.prefix_append _ _
  have hwords : words.toList <+: said.toList ++ rest.toList := same ▸ List.prefix_append _ _
  rw [Bool.or_eq_false_iff] at differ
  rcases List.prefix_or_prefix_of_prefix hwords hsaid with hp | hp
  · rw [List.isPrefixOf_iff_prefix.2 hp] at differ
    cases differ.1
  · rw [List.isPrefixOf_iff_prefix.2 hp] at differ
    cases differ.2

/-! ## Checks -/

theorem flatMap_filter {α β : Type} (p : α → Bool) (f : α → List β) (l : List α) :
    (l.filter p).flatMap f = l.flatMap fun a => if p a then f a else [] := by
  induction l with
  | nil => rfl
  | cons a l ih =>
    rw [List.filter_cons, List.flatMap_cons]
    split
    · rw [List.flatMap_cons, ih]
    · rw [List.nil_append, ih]

/-- The uses in one type that there is a complaint about. -/
def TypeUsage.inType (complaint? : Referent → Option String) (ctx : FileContext)
    (subject : Subject) (pos : Position) (t : TypeRef) : List Diagnostic :=
  (ctx.program.uses t).filterMap (diagnose? complaint? subject pos)

def TypeUsage.onDecl (complaint? : Referent → Option String) (ctx : FileContext) (d : TypeDecl) :
    List Diagnostic :=
  inType complaint? ctx (.type d.name) d.pos (ctx.declType d)

def TypeUsage.onField (complaint? : Referent → Option String) (ctx : FileContext) (f : Field)
    (scope : TypeDecl) : List Diagnostic :=
  if f.isEmbedded then []
  else inType complaint? ctx (.field f.displayName) f.pos (ctx.typeRef f.type scope)

namespace Check

def onDecl (c : Check) (ctx : FileContext) (d : TypeDecl) : List Diagnostic :=
  match c with
  | .minLength => Bounds.checkDecl .minimum ctx d
  | .maxLength => Bounds.checkDecl .maximum ctx d
  | .noMaps o => NoMaps.checkDecl o ctx d
  | .noDurations => TypeUsage.onDecl TypeUsage.durationComplaint? ctx d
  | .noFloats => TypeUsage.onDecl TypeUsage.floatComplaint? ctx d
  | .noBools => TypeUsage.onDecl TypeUsage.boolComplaint? ctx d
  | .integers => TypeUsage.onDecl TypeUsage.integerComplaint? ctx d
  | .duplicateMarkers => DuplicateMarkers.checkDoc ctx d.pos (.type d.name) d.doc
  | .noReferences _ | .optionalFields _ | .requiredFields _ | .listTags _ | .requirementMarkers _
  | .jsonNames _ | .commentStart => []

def onField (c : Check) (ctx : FileContext) (f : Field) (scope : TypeDecl) : List Diagnostic :=
  match c with
  | .minLength => Bounds.checkField .minimum ctx f scope
  | .maxLength => Bounds.checkField .maximum ctx f scope
  | .noMaps o => NoMaps.checkField o ctx f scope
  | .noDurations => TypeUsage.onField TypeUsage.durationComplaint? ctx f scope
  | .noFloats => TypeUsage.onField TypeUsage.floatComplaint? ctx f scope
  | .noBools => TypeUsage.onField TypeUsage.boolComplaint? ctx f scope
  | .integers => TypeUsage.onField TypeUsage.integerComplaint? ctx f scope
  | .duplicateMarkers => DuplicateMarkers.checkDoc ctx f.pos (.field f.displayName) f.doc
  | .optionalFields o => FieldAdvice.checkField .optional o ctx f scope
  | .requiredFields omitEmpty => FieldAdvice.checkField .required { omitEmpty } ctx f scope
  | .listTags usage => ListTags.checkField usage ctx f scope
  | .requirementMarkers preferred => RequirementMarkers.checkField preferred ctx f
  | .noReferences policy =>
    if f.isEmbedded || f.jsonTag.ignored then []
    else
      (NoReferences.message? policy f.displayName).toList.map fun message =>
        { pos := f.pos, message }
  | .jsonNames pattern =>
    if f.isSkipped then []
    else
      (JsonNames.message? pattern f.displayName f.jsonTag).toList.map fun message =>
        { pos := f.pos, message }
  | .commentStart => (CommentStart.checkField f).toList

/-- Whether the diagnostics on a file are sorted by position. -/
def isSorted : Check → Bool
  | .minLength | .maxLength | .noMaps _ | .noDurations | .noFloats | .noBools | .integers
  | .duplicateMarkers => true
  | .noReferences _ | .optionalFields _ | .requiredFields _ | .listTags _ | .requirementMarkers _
  | .jsonNames _ | .commentStart => false

variable {α β : Type}

/-- Puts answers at positions into the order of the check. -/
def arrange (c : Check) (pos : α → Position) (l : List α) : List α :=
  if c.isSorted then l.mergeSort fun a b => (pos a).le (pos b) else l

theorem arrange_perm (c : Check) (pos : α → Position) (l : List α) : (c.arrange pos l).Perm l := by
  rw [arrange]
  split
  · exact List.mergeSort_perm _ _
  · exact .refl _

theorem map_arrange (c : Check) (pos : β → Position) (g : α → β) (l : List α) :
    (c.arrange (fun a => pos (g a)) l).map g = c.arrange pos (l.map g) := by
  rw [arrange, arrange]
  split
  · exact List.map_mergeSort fun _ _ _ _ => rfl
  · rfl

theorem filter_arrange (c : Check) (pos : α → Position) (p : α → Bool) (l : List α) :
    (c.arrange pos l).filter p = c.arrange pos (l.filter p) := by
  rw [arrange, arrange]
  split
  · have trans (a b d : α) := Position.le_trans (pos a) (pos b) (pos d)
    have total (a b : α) := Position.le_total (pos a) (pos b)
    exact (mergeSort_filter trans total p).symm
  · rfl

theorem usage_eq (complaint? : Referent → Option String) (ctx : FileContext) :
    TypeUsage.check complaint? ctx =
      Diagnostic.sort (ctx.file.decls.flatMap (TypeUsage.onDecl complaint? ctx) ++
        ctx.file.fields.flatMap fun q => TypeUsage.onField complaint? ctx q.1 q.2) := by
  have named := flatMap_filter (fun q : Field × TypeDecl => !q.1.isEmbedded)
    (fun q => TypeUsage.inType complaint? ctx (.field q.1.displayName) q.1.pos
      (ctx.typeRef q.1.type q.2)) ctx.file.fields
  have each (q : Field × TypeDecl) : (if (!q.1.isEmbedded) = true then
        TypeUsage.inType complaint? ctx (.field q.1.displayName) q.1.pos (ctx.typeRef q.1.type q.2)
      else []) = TypeUsage.onField complaint? ctx q.1 q.2 := by
    rw [TypeUsage.onField]
    cases q.1.isEmbedded <;> rfl
  simp only [each] at named
  rw [← named]
  rfl

theorem arrange_of_fields {c : Check} {ctx : FileContext} (hs : c.isSorted = false)
    (hd : ∀ d, c.onDecl ctx d = []) (ds : List Diagnostic) :
    c.arrange (·.pos) (ctx.file.decls.flatMap (c.onDecl ctx) ++ ds) = ds := by
  have none : ctx.file.decls.flatMap (c.onDecl ctx) = [] :=
    List.flatMap_eq_nil_iff.2 fun d _ => hd d
  rw [none, List.nil_append, arrange, hs]
  rfl

/-- A check says about a file what it says about its declarations and about its fields. -/
theorem diagnostics_eq (c : Check) (ctx : FileContext) :
    c.diagnostics ctx = c.arrange (·.pos) (ctx.file.decls.flatMap (c.onDecl ctx) ++
      ctx.file.fields.flatMap fun q => c.onField ctx q.1 q.2) := by
  -- Some checks have at most one diagnostic for a field, if the field is not exempt.
  have exempt (b : Field → Bool) (message? : Field → Option String) :
      (ctx.file.fields.filterMap fun q => if b q.1 then none
        else (message? q.1).map fun message => ({ pos := q.1.pos, message } : Diagnostic)) =
      ctx.file.fields.flatMap fun q => if b q.1 then []
        else (message? q.1).toList.map fun message => { pos := q.1.pos, message } := by
    rw [List.filterMap_eq_flatMap_toList]
    congr 1
    funext q
    split
    · rfl
    · cases message? q.1 <;> rfl
  cases c with
  | noDurations => exact usage_eq _ ctx
  | noFloats => exact usage_eq _ ctx
  | noBools => exact usage_eq _ ctx
  | integers => exact usage_eq _ ctx
  | minLength => rfl
  | maxLength => rfl
  | noMaps o => rfl
  | duplicateMarkers => rfl
  | optionalFields o => exact (arrange_of_fields rfl (fun _ => rfl) _).symm
  | requiredFields omitEmpty => exact (arrange_of_fields rfl (fun _ => rfl) _).symm
  | listTags usage => exact (arrange_of_fields rfl (fun _ => rfl) _).symm
  | requirementMarkers preferred => exact (arrange_of_fields rfl (fun _ => rfl) _).symm
  | noReferences policy =>
    rw [arrange_of_fields rfl fun _ => rfl]
    exact exempt (fun f => f.isEmbedded || f.jsonTag.ignored)
      fun f => NoReferences.message? policy f.displayName
  | jsonNames pattern =>
    rw [arrange_of_fields rfl fun _ => rfl]
    exact exempt (·.isSkipped) fun f => JsonNames.message? pattern f.displayName f.jsonTag
  | commentStart =>
    rw [arrange_of_fields rfl fun _ => rfl]
    exact List.filterMap_eq_flatMap_toList _ _

/-! ## Reports -/

/-- The diagnostics on a file, each with the declaration it is in. -/
def reports (c : Check) (ctx : FileContext) : List (TypeDecl × Diagnostic) :=
  c.arrange (·.2.pos)
    (ctx.file.decls.flatMap (fun d => (c.onDecl ctx d).map (d, ·)) ++
      ctx.file.fields.flatMap fun q => (c.onField ctx q.1 q.2).map (q.2, ·))

theorem map_reports (c : Check) (ctx : FileContext) :
    (c.reports ctx).map (·.2) = c.diagnostics ctx := by
  have harrange := map_arrange c (fun d : Diagnostic => d.pos) (fun q : TypeDecl × Diagnostic => q.2)
  rw [reports, harrange, diagnostics_eq]
  simp only [List.map_append, List.map_flatMap, List.map_map, Function.comp_def, List.map_id']

/-! ## Files with fewer declarations -/

variable {c : Check} {ctx : FileContext} {F : SourceFile}

theorem onDecl_file (d : TypeDecl) : c.onDecl { ctx with file := F } d = c.onDecl ctx d := by
  cases c <;> rfl

theorem onField_file (f : Field) (scope : TypeDecl) :
    c.onField { ctx with file := F } f scope = c.onField ctx f scope := by
  cases c <;> rfl

/-- The reports in some of the declarations are those on a file with only these declarations. -/
theorem filter_reports (p : TypeDecl → Bool) :
    (c.reports ctx).filter (fun q => p q.1) =
      c.reports { ctx with file := { ctx.file with decls := ctx.file.decls.filter p } } := by
  have tagged (d : TypeDecl) (ds : List Diagnostic) : (ds.map (d, ·)).filter (fun q => p q.1) =
      if p d then ds.map (d, ·) else [] := by
    cases hd : p d with
    | true => exact List.filter_eq_self.2 (by simp [hd])
    | false => exact List.filter_eq_nil_iff.2 (by simp [hd])
  have inDecls : (ctx.file.decls.flatMap fun d => (c.onDecl ctx d).map (d, ·)).filter
      (fun q => p q.1) = (ctx.file.decls.filter p).flatMap fun d => (c.onDecl ctx d).map (d, ·) := by
    rw [List.filter_flatMap, flatMap_filter]
    simp only [tagged]
  have inFields : (ctx.file.fields.flatMap fun q => (c.onField ctx q.1 q.2).map (q.2, ·)).filter
      (fun q => p q.1) =
        (SourceFile.fields { ctx.file with decls := ctx.file.decls.filter p }).flatMap fun q =>
          (c.onField ctx q.1 q.2).map (q.2, ·) := by
    simp only [SourceFile.fields, List.filter_flatMap, List.flatMap_assoc, List.flatMap_map,
      flatMap_filter, tagged]
    congr 1
    funext d
    split
    · rw [List.flatMap_map]
    · rw [List.flatMap_nil]
      exact List.flatMap_eq_nil_iff.2 fun _ _ => rfl
  rw [reports, reports, filter_arrange, List.filter_append, inDecls, inFields]
  simp only [onDecl_file, onField_file]

end Check

/-- The violations in a file, each with the declaration it is in. -/
def Rule.attributed (r : Rule) (ctx : FileContext) : List (TypeDecl × Violation) :=
  (r.check.reports ctx).map fun q => (q.1, r.violation ctx.file.path q.2)

theorem Rule.map_attributed (r : Rule) (ctx : FileContext) :
    (r.attributed ctx).map (·.2) = r.run ctx := by
  rw [run, ← Check.map_reports, attributed, List.map_map, List.map_map]
  rfl

theorem Rule.filter_attributed (r : Rule) (ctx : FileContext) (p : TypeDecl → Bool) :
    ((r.attributed ctx).filter fun q => p q.1).map (·.2) =
      r.run { ctx with file := { ctx.file with decls := ctx.file.decls.filter p } } := by
  rw [← map_attributed, attributed, attributed, ← Check.filter_reports, List.filter_map]
  rfl

end ApiConventions
