import Mathlib.Data.List.Count
import ApiConventions.Proofs.Correspondence.Annotation
import ApiConventions.Proofs.Rule.Subjects

/-!
# ApiConventions.Proofs.Discharge

Messages that ask for a marker are settled by the marker. When the marker is added to the comments
of the subject that a message is about, this message is gone, and no other message comes up in the
file: neither on the subject, nor on the fields and declarations that inherit the marker.
-/

namespace ApiConventions

/-! ## Lists -/

/-- Nothing is added to a list, and an occurrence of the element is gone. -/
structure Discharges {α : Type} [DecidableEq α] (a : α) (l l' : List α) : Prop where
  sublist : l'.Sublist l
  gone : l'.count a < l.count a

theorem sublist_flatMap {α β : Type} {R : β → β → Prop} {f f' : β → List α} {l l' : List β}
    (h : List.Forall₂ R l l') (hf : ∀ x x', R x x' → (f' x').Sublist (f x)) :
    (l'.flatMap f').Sublist (l.flatMap f) := by
  induction h with
  | nil => exact List.Sublist.refl _
  | cons hx _ ih => exact (hf _ _ hx).append ih

namespace Discharges

variable {α β : Type} [DecidableEq α] [DecidableEq β] {a : α} {l l' us us' vs vs' : List α}

theorem of_notMem (sublist : l'.Sublist l) (mem : a ∈ l) (notMem : a ∉ l') :
    Discharges a l l' where
  sublist := sublist
  gone := by
    rw [List.count_eq_zero_of_not_mem notMem]
    exact List.count_pos_iff.2 mem

theorem length_lt (h : Discharges a l l') : l'.length < l.length := by
  refine Nat.lt_of_le_of_ne h.sublist.length_le fun same => ?_
  have gone := h.gone
  rw [h.sublist.eq_of_length same] at gone
  exact Nat.lt_irrefl _ gone

theorem append (before : us'.Sublist us) (h : Discharges a l l') (after : vs'.Sublist vs) :
    Discharges a (us ++ (l ++ vs)) (us' ++ (l' ++ vs')) where
  sublist := before.append (h.sublist.append after)
  gone := by
    have hus := before.count_le a
    have hvs := after.count_le a
    have gone := h.gone
    rw [List.count_append, List.count_append, List.count_append, List.count_append]
    omega

theorem append_left (before : us'.Sublist us) (h : Discharges a l l') :
    Discharges a (us ++ l) (us' ++ l') := by
  simpa only [List.append_nil] using append before h (List.Sublist.refl [])

theorem append_right (h : Discharges a l l') (after : vs'.Sublist vs) :
    Discharges a (l ++ vs) (l' ++ vs') :=
  append (List.Sublist.refl []) h after

theorem map (h : Discharges a l l') {f : α → β} (hf : Function.Injective f) :
    Discharges (f a) (l.map f) (l'.map f) where
  sublist := h.sublist.map f
  gone := by
    rw [List.count_map_of_injective l f hf, List.count_map_of_injective l' f hf]
    exact h.gone

/-- One of the lists that are put together is discharged, and nothing is added to the others. -/
theorem flatMap {γ : Type} {f f' : γ → List α} {xs ys : List γ} {x x' : γ}
    (rest : ∀ y ∈ xs ++ ys, (f' y).Sublist (f y)) (h : Discharges a (f x) (f' x')) :
    Discharges a ((xs ++ [x] ++ ys).flatMap f) ((xs ++ [x'] ++ ys).flatMap f') := by
  have sublist (zs : List γ) (hzs : ∀ z ∈ zs, (f' z).Sublist (f z)) :
      (zs.flatMap f').Sublist (zs.flatMap f) :=
    sublist_flatMap (List.forall₂_same.2 hzs) fun _ _ hz => hz
  simp only [List.flatMap_append, List.flatMap_singleton, List.append_assoc]
  exact append (sublist xs fun y hy => rest y (List.mem_append_left _ hy)) h
    (sublist ys fun y hy => rest y (List.mem_append_right _ hy))

end Discharges

/-! ## Files -/

namespace Check

variable {c : Check} {ctx ctx' : FileContext} {g : Diagnostic}

def onFields (c : Check) (ctx : FileContext) (d : TypeDecl) : List Diagnostic :=
  d.type.fields.flatMap fun f => c.onField ctx f d

theorem diagnostics_eq_onFields (c : Check) (ctx : FileContext) :
    c.diagnostics ctx = c.arrange (·.pos)
      (ctx.file.decls.flatMap (c.onDecl ctx) ++ ctx.file.decls.flatMap (c.onFields ctx)) := by
  rw [diagnostics_eq, SourceFile.fields, List.flatMap_assoc]
  simp only [List.flatMap_map]
  rfl

theorem discharges_arrange {l l' : List Diagnostic} (h : Discharges g l l') :
    Discharges g (c.arrange (·.pos) l) (c.arrange (·.pos) l') where
  sublist := by
    rw [arrange, arrange]
    split
    · have trans (a b d : Diagnostic) := Position.le_trans a.pos b.pos d.pos
      have total (a b : Diagnostic) := Position.le_total a.pos b.pos
      exact sublist_mergeSort_of_sublist trans total h.sublist
    · exact h.sublist
  gone := by
    rw [(c.arrange_perm (·.pos) l).count_eq g, (c.arrange_perm (·.pos) l').count_eq g]
    exact h.gone

end Check

theorem Rule.violation_injective (r : Rule) (file : String) :
    Function.Injective (r.violation file) := by
  rintro ⟨⟨line, column⟩, message, suggestion, fact⟩ ⟨⟨line', column'⟩, message', suggestion', fact'⟩ h
  simp only [violation, Violation.mk.injEq, Location.mk.injEq] at h
  obtain ⟨-, -, -, ⟨-, rfl, rfl⟩, rfl, rfl, rfl⟩ := h
  rfl

/-! ## Markers in comments -/

namespace Annotation

/-- The marker is all that the comments of the subject have more. -/
structure Adds (a : Annotation) (registry : Registry) (m : Marker) (n : Int) : Prop where
  amends : a.correspondence.Amends registry m
  boundsSize : m.BoundsSize n
  decl : a.correspondence.Subjects registry m a.before.doc a.after.doc
    ((a.leftContext registry).declType a.before)
    ((a.rightContext registry).declType a.after)
  field (f f' : Field) : a.members f f' → a.correspondence.Subjects registry m f.doc f'.doc
    ((a.leftContext registry).typeRef f.type a.before)
    ((a.rightContext registry).typeRef f'.type a.after)

namespace Adds

variable {a : Annotation} {registry : Registry} {m : Marker} {n : Int} (h : a.Adds registry m n)
  (s : Side) {d d' : TypeDecl} {f f' : Field}

include h

theorem onDecl_sublist (hd : a.correspondence.decls d d') :
    (s.check.onDecl (a.rightContext registry) d').Sublist
      (s.check.onDecl (a.leftContext registry) d) := by
  rw [FileContext.onDecl_side, FileContext.onDecl_side]
  rcases hd with rfl | ⟨rfl, rfl⟩
  · exact h.amends.checkDecl_sublist h.boundsSize rfl rfl rfl rfl
      (h.amends.subjects_of_ref (typeRef registry (.inl rfl) (.refl _)) d.doc)
  · exact h.amends.checkDecl_sublist h.boundsSize a.name a.pos a.isAlias a.params h.decl

theorem onField_sublist (hd : a.correspondence.decls d d') (head : f.SameHead f')
    (type : TypeExpr.Edit (OneMember a.members) (fun _ => False) f.type f'.type) :
    (s.check.onField (a.rightContext registry) f' d').Sublist
      (s.check.onField (a.leftContext registry) f d) := by
  rw [FileContext.onField_side, FileContext.onField_side]
  refine h.amends.checkField_sublist h.boundsSize head.sameTag head.pos ?_
  rw [← head.doc]
  exact h.amends.subjects_of_ref (typeRef registry hd type) f.doc

theorem onFields_sublist (hd : a.correspondence.decls d d') (type : d.type = d'.type) :
    (s.check.onFields (a.rightContext registry) d').Sublist
      (s.check.onFields (a.leftContext registry) d) := by
  rw [Check.onFields, Check.onFields, ← type]
  refine sublist_flatMap (List.forall₂_same.2 fun _ _ => rfl) ?_
  rintro e _ rfl
  exact h.onField_sublist s hd (.refl e) (.refl e.type)

theorem onMember_sublist (hf : a.members f f') :
    (s.check.onField (a.rightContext registry) f' a.after).Sublist
      (s.check.onField (a.leftContext registry) f a.before) := by
  have uncommented := a.uncommented hf
  have pos : f.pos = f'.pos := by rw [uncommented]
  rw [FileContext.onField_side, FileContext.onField_side]
  exact h.amends.checkField_sublist h.boundsSize (h.amends.shaped.tag (.inr hf)) pos
    (h.field f f' hf)

end Adds

theorem forall₂_file_decls (a : Annotation) (registry : Registry) :
    List.Forall₂ a.correspondence.decls (a.leftContext registry).file.decls
      (a.rightContext registry).file.decls := by
  show List.Forall₂ _ (a.site.declsBefore ++ [a.before] ++ a.site.declsAfter)
    (a.site.declsBefore ++ [a.after] ++ a.site.declsAfter)
  rw [← List.append_cons, ← List.append_cons]
  exact forall₂_append_cons (fun _ _ => .inl rfl) a.declared

end Annotation

/-! ## Lines in comments -/

def Field.withLine (f : Field) (line : String) : Field :=
  { f with doc := f.doc ++ [line] }

def TypeDecl.withLine (d : TypeDecl) (line : String) : TypeDecl :=
  { d with doc := d.doc ++ [line] }

theorem Side.parse_append_validationLine (s : Side) (q : Side.Target × Side.Measure)
    (doc : List String) : Registry.standard.parse (doc ++ [validationLine (s.markerName q.1 q.2)]) =
      Registry.standard.parse doc ++ [s.marker q.1 q.2] := by
  rw [← s.parse_validationLine q.1 q.2]
  exact List.filterMap_append

section Adds

variable {registry : Registry} {line : String} {m : Marker} {n : Int} {f : Field} {d : TypeDecl}
  (other : m.identifier ∉ MarkerName.optionalFamily ++ MarkerName.requiredFamily)
  (boundsSize : m.BoundsSize n)

namespace Site

def declSite (t : Site) : DeclSite where
  packagesBefore := t.packagesBefore
  packagesAfter := t.packagesAfter
  path := t.path
  name := t.name
  filesBefore := t.filesBefore
  filesAfter := t.filesAfter
  filePath := t.filePath
  declsBefore := t.declsBefore
  declsAfter := t.declsAfter

theorem context_declSite (t : Site) (registry : Registry) (f : Field) :
    t.declSite.context registry [t.decl f] = t.context registry f := by
  simp [declSite, DeclSite.context, DeclSite.program, DeclSite.package, DeclSite.file, context,
    program, package, file]

def annotation (t : Site) (f : Field) (line : String) : Annotation where
  site := t.declSite
  before := t.decl f
  after := t.decl (f.withLine line)
  members g g' := g = f ∧ g' = f.withLine line
  name := rfl
  pos := rfl
  isAlias := rfl
  params := rfl
  uncommented := by
    rintro _ _ ⟨rfl, rfl⟩
    rfl
  type := t.hole.edit_of_structs fun us vs => .base ⟨us, f, _, vs, ⟨rfl, rfl⟩, rfl, rfl⟩

include other boundsSize in
theorem adds {t : Site} (parsed : registry.parse (f.doc ++ [line]) = registry.parse f.doc ++ [m])
    (undecided : Layers.winner? (registry.parse f.doc ::
      Extractor.typeLayers (t.context registry f).extractor
        ((t.context registry f).resolve f.type (t.decl f))) m.identifier = none) :
    (t.annotation f line).Adds registry m n := by
  have amends : (t.annotation f line).correspondence.Amends registry m := by
    refine Annotation.amends_of_doc m rfl ?_
    rintro _ _ ⟨rfl, rfl⟩
    rw [Field.withLine, parsed, MarkerSet.hasAny_append]
    exact fun hmem => other (List.mem_append_right _ hmem)
  refine ⟨amends, boundsSize, ?decl, ?field⟩
  case decl =>
    have ref := Annotation.typeRef registry (t.annotation f line).declared (t.annotation f line).type
    exact amends.subjects_of_ref ref t.owner.doc
  case field =>
    have ref := Annotation.typeRef registry (t.annotation f line).declared (.refl f.type)
    rintro _ _ ⟨rfl, rfl⟩
    rw [← context_declSite] at undecided
    exact amends.subjects_append ref parsed other undecided

end Site

namespace DeclSite

def annotation (t : DeclSite) (d : TypeDecl) (line : String) : Annotation where
  site := t
  before := d
  after := d.withLine line
  members _ _ := False
  name := rfl
  pos := rfl
  isAlias := rfl
  params := rfl
  uncommented h := h.elim
  type := .refl d.type

include other boundsSize in
/-- A declaration on which nothing decides may get the marker, and all that refer to it inherit. -/
theorem adds {t : DeclSite} (parsed : registry.parse (d.doc ++ [line]) = registry.parse d.doc ++ [m])
    (params : d.params = [])
    (undecided : Layers.winner? (registry.parse d.doc ::
      Extractor.typeLayers (t.context registry [d]).extractor
        ((t.context registry [d]).program.resolve ((t.context registry [d]).declType d)))
      m.identifier = none) :
    (t.annotation d line).Adds registry m n := by
  have amends : (t.annotation d line).correspondence.Amends registry m :=
    Annotation.amends_of_append parsed params undecided fun _ _ hff => hff.elim
  have ref := Annotation.typeRef registry (t.annotation d line).declared (.refl d.type)
  exact ⟨amends, boundsSize, amends.subjects_append ref parsed other undecided, fun _ _ h => h.elim⟩

end DeclSite

end Adds

/-! ## Requests -/

variable {s : Side} {f : Field} {d : TypeDecl} {g : Diagnostic} {name : String}

theorem Site.discharges_onFields {t : Site} {line : String} {m : Marker} {n : Int}
    (entered : t.hole.isEntered = true) (adds : (t.annotation f line).Adds .standard m n)
    (hg : g ∈ s.check.onField ((t.annotation f line).leftContext .standard) f (t.decl f))
    (gone : g ∉ s.check.onField ((t.annotation f line).rightContext .standard) (f.withLine line)
      (t.decl (f.withLine line))) :
    Discharges g (s.check.onFields ((t.annotation f line).leftContext .standard) (t.decl f))
      (s.check.onFields ((t.annotation f line).rightContext .standard)
        (t.decl (f.withLine line))) := by
  have structs (us vs : List Field) : TypeExpr.Edit (OneMember (t.annotation f line).members)
      (fun _ => False) (.struct (us ++ f :: vs)) (.struct (us ++ f.withLine line :: vs)) :=
    .base ⟨us, f, f.withLine line, vs, ⟨rfl, rfl⟩, rfl, rfl⟩
  -- The structs around the field come before it, and change with it only in their types.
  obtain ⟨us, us', vs, before, after, each⟩ := t.hole.exists_fields_plug structs entered rfl
  have declared := (t.annotation f line).declared
  have own := adds.onMember_sublist s ⟨rfl, rfl⟩
  have left : (t.decl f).type.fields = us ++ f :: vs := before
  have right : (t.decl (f.withLine line)).type.fields = us' ++ f.withLine line :: vs := after
  rw [Check.onFields, Check.onFields, left, right, List.flatMap_append, List.flatMap_append,
    List.flatMap_cons, List.flatMap_cons]
  refine .append ?_ (.of_notMem own hg gone) ?_
  · exact sublist_flatMap each fun _ _ hff => adds.onField_sublist s declared hff.1 hff.2
  · refine sublist_flatMap (List.forall₂_same.2 fun _ _ => rfl) ?_
    rintro e _ rfl
    exact adds.onField_sublist s declared (.refl e) (.refl e.type)

/-- A field that gets the marker does not ask for it again, and nobody else asks for more. -/
theorem Site.discharges {t : Site} (entered : t.hole.isEntered = true)
    (hg : g ∈ Bounds.checkField s (t.context .standard f) f (t.decl f)) (h : g.AsksFor name) :
    g ∉ Bounds.checkField s (t.context .standard (f.withLine (validationLine name)))
        (f.withLine (validationLine name)) (t.decl (f.withLine (validationLine name))) ∧
      Discharges g (s.check.diagnostics (t.context .standard f))
        (s.check.diagnostics (t.context .standard (f.withLine (validationLine name)))) := by
  obtain ⟨q, rfl, message, undecided⟩ := FileContext.typeRef_undecided hg h
  have parsed := s.parse_append_validationLine q f.doc
  have adds := Site.adds (s.marker_not_requirement q.1 q.2) (s.boundsSize_marker q.1 q.2) parsed
    undecided
  generalize validationLine (s.markerName q.1 q.2) = line at parsed adds ⊢
  have gone : g ∉ Bounds.checkField s (t.context .standard (f.withLine line)) (f.withLine line)
      (t.decl (f.withLine line)) := FileContext.notMem_checkField message parsed undecided
  refine ⟨gone, ?_⟩
  rw [← FileContext.onField_side, ← context_declSite] at hg gone
  rw [← context_declSite, ← context_declSite, Check.diagnostics_eq_onFields,
    Check.diagnostics_eq_onFields]
  refine Check.discharges_arrange (.append_left ?decls (.flatMap ?others ?own))
  case decls =>
    refine sublist_flatMap ((t.annotation f line).forall₂_file_decls .standard) fun _ _ hd => ?_
    exact adds.onDecl_sublist s hd
  case others => exact fun d _ => adds.onFields_sublist s (.inl rfl) rfl
  case own => exact Site.discharges_onFields entered adds hg gone

theorem DeclSite.discharges {t : DeclSite}
    (hg : g ∈ Bounds.checkDecl s (t.context .standard [d]) d) (h : g.AsksFor name) :
    g ∉ Bounds.checkDecl s (t.context .standard [d.withLine (validationLine name)])
        (d.withLine (validationLine name)) ∧
      Discharges g (s.check.diagnostics (t.context .standard [d]))
        (s.check.diagnostics (t.context .standard [d.withLine (validationLine name)])) := by
  obtain ⟨q, rfl, message, exempt, undecided⟩ := FileContext.declType_undecided hg h
  have parsed := s.parse_append_validationLine q d.doc
  have params : d.params = [] := by
    rw [Bool.or_eq_false_iff, Bool.not_eq_false'] at exempt
    exact List.isEmpty_iff.1 exempt.2
  have adds := DeclSite.adds (s.marker_not_requirement q.1 q.2) (s.boundsSize_marker q.1 q.2)
    parsed params undecided
  generalize validationLine (s.markerName q.1 q.2) = line at parsed adds ⊢
  have declared := (t.annotation d line).declared
  have gone : g ∉ Bounds.checkDecl s (t.context .standard [d.withLine line]) (d.withLine line) :=
    FileContext.notMem_checkDecl message parsed undecided
  refine ⟨gone, ?_⟩
  rw [← FileContext.onDecl_side] at hg gone
  rw [Check.diagnostics_eq_onFields, Check.diagnostics_eq_onFields]
  refine Check.discharges_arrange (.append_right (.flatMap ?others ?own) ?fields)
  case others => exact fun e _ => adds.onDecl_sublist s (.inl rfl)
  case own => exact .of_notMem (adds.onDecl_sublist s declared) hg gone
  case fields =>
    refine sublist_flatMap ((t.annotation d line).forall₂_file_decls .standard) fun e e' he => ?_
    have type : e.type = e'.type := by
      rcases he with rfl | ⟨rfl, rfl⟩ <;> rfl
    exact adds.onFields_sublist s he type

theorem Discharges.run {ctx ctx' : FileContext}
    (h : Discharges g (s.check.diagnostics ctx) (s.check.diagnostics ctx')) {r : Rule}
    (hr : r.check = s.check) {file : String} (left : ctx.file.path = file)
    (right : ctx'.file.path = file) :
    Discharges (r.violation file g) (r.run ctx) (r.run ctx') := by
  rw [Rule.run, Rule.run, left, right, hr]
  exact h.map (r.violation_injective file)

/--
Who adds the marker that a message asks for, on the field or declaration that the message is about,
gets the violations that there were before, in their order, without this one. The field is one that
rules look at: about any other there are no messages.
-/
theorem Rule.run_discharges (s : Side) (r : Rule) (hr : r.check = s.check) :
    (∀ (t : Site) (f f' : Field) (g : Diagnostic) (name : String), t.hole.isEntered = true →
      g ∈ Bounds.checkField s (t.context .standard f) f (t.decl f) → g.AsksFor name →
      f' = f.withLine (validationLine name) →
      g ∉ Bounds.checkField s (t.context .standard f') f' (t.decl f') ∧
      (r.run (t.context .standard f')).length < (r.run (t.context .standard f)).length ∧
      Discharges (r.violation t.filePath g) (r.run (t.context .standard f))
        (r.run (t.context .standard f'))) ∧
    ∀ (t : DeclSite) (d d' : TypeDecl) (g : Diagnostic) (name : String),
      g ∈ Bounds.checkDecl s (t.context .standard [d]) d → g.AsksFor name →
      d' = d.withLine (validationLine name) →
      g ∉ Bounds.checkDecl s (t.context .standard [d']) d' ∧
      (r.run (t.context .standard [d'])).length < (r.run (t.context .standard [d])).length ∧
      Discharges (r.violation t.filePath g) (r.run (t.context .standard [d]))
        (r.run (t.context .standard [d'])) := by
  refine ⟨fun t f f' g name entered hg h hf => ?field, fun t d d' g name hg h hd => ?decl⟩
  case field =>
    subst hf
    obtain ⟨gone, discharged⟩ := t.discharges entered hg h
    have run := discharged.run hr rfl rfl
    exact ⟨gone, run.length_lt, run⟩
  case decl =>
    subst hd
    obtain ⟨gone, discharged⟩ := t.discharges hg h
    have run := discharged.run hr rfl rfl
    exact ⟨gone, run.length_lt, run⟩

/-- A file with a list of names, and with a struct around the field. -/
def teamSite : Site where
  packagesBefore := []
  packagesAfter := []
  path := "example.com/api"
  name := "api"
  filesBefore := []
  filesAfter := []
  filePath := "api/team.go"
  declsBefore :=
    [{ name := "Names"
       pos := { line := 3, column := 6 }
       doc := []
       isAlias := false
       params := []
       type := .slice (.ident "string" none []) }]
  declsAfter := []
  owner :=
    { name := "Team"
      pos := { line := 5, column := 6 }
      doc := []
      isAlias := false
      params := []
      type := .func }
  hole := .here [] []

def membersField : Field where
  name := some "Members"
  pos := { line := 6, column := 2 }
  doc := ["// +required"]
  type := .ident "Names" none []
  tag := some "json:\"members\""

def membersRequest : Diagnostic where
  pos := { line := 6, column := 2 }
  message := "field Members array element must have a minimum length, add " ++
    "kubebuilder:validation:items:MinLength marker"

def namesDecl : TypeDecl where
  name := "Names"
  pos := { line := 3, column := 6 }
  doc := []
  isAlias := false
  params := []
  type := .slice (.ident "string" none [])

def namesSite : DeclSite where
  packagesBefore := []
  packagesAfter := []
  path := "example.com/api"
  name := "api"
  filesBefore := []
  filesAfter := []
  filePath := "api/team.go"
  declsBefore := []
  declsAfter := [teamSite.decl membersField]

def namesRequest : Diagnostic where
  pos := { line := 3, column := 6 }
  message := "type Names array element must have a minimum length, add " ++
    "kubebuilder:validation:items:MinLength marker"

theorem run_discharges_on_team :
    Discharges ((Rule.default .minLength).violation "api/team.go" membersRequest)
        ((Rule.default .minLength).run (teamSite.context .standard membersField))
        ((Rule.default .minLength).run (teamSite.context .standard
          (membersField.withLine (validationLine "items:MinLength")))) ∧
      Discharges ((Rule.default .minLength).violation "api/team.go" namesRequest)
        ((Rule.default .minLength).run (namesSite.context .standard [namesDecl]))
        ((Rule.default .minLength).run (namesSite.context .standard
          [namesDecl.withLine (validationLine "items:MinLength")])) := by
  obtain ⟨field, decl⟩ := Rule.run_discharges .minimum (Rule.default .minLength) rfl
  have asksField : membersRequest.AsksFor "items:MinLength" :=
    ⟨by decide, "field Members array element must have a minimum length", by decide⟩
  have asksDecl : namesRequest.AsksFor "items:MinLength" :=
    ⟨by decide, "type Names array element must have a minimum length", by decide⟩
  have onField : membersRequest ∈ Bounds.checkField .minimum
      (teamSite.context .standard membersField) membersField (teamSite.decl membersField) := by
    decide +kernel
  have onDecl : namesRequest ∈ Bounds.checkDecl .minimum
      (namesSite.context .standard [namesDecl]) namesDecl := by
    decide +kernel
  exact ⟨(field teamSite membersField _ membersRequest _ rfl onField asksField rfl).2.2,
    (decl namesSite namesDecl _ namesRequest _ onDecl asksDecl rfl).2.2⟩

end ApiConventions
