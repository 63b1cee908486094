import Mathlib.Data.List.Perm.Basic
import ApiConventions.Proofs.Advice.Table
import ApiConventions.Proofs.Rule.Subjects

/-!
# ApiConventions.Proofs.Rule.InvalidMarkers

Who reports a malformed marker. Four checks look at the markers of a field: the two sides of the
bounds, and the advice on optional and on required fields. The sides share the errors of
declarations and of fields without a requirement, and the advice has those of all other fields.
So every error is reported, and by one check only.
-/

namespace ApiConventions

def Side.check : Side → Check
  | .minimum => .minLength
  | .maximum => .maxLength

/-- The error in the marker of a subject that a diagnostic reports. -/
def Diagnostic.invalidMarker? (d : Diagnostic) (subject : Subject) : Option String :=
  d.after? subject " has an invalid validation marker: "

/-- Whether a diagnostic asks for a bound on a subject, or on the elements of a subject. -/
def Diagnostic.asksForBound (d : Diagnostic) (subject : Subject) : Bool :=
  (d.after? subject " must have a ").isSome ||
    (d.after? subject " array element must have a ").isSome

/-! ## Sides -/

namespace Side

variable {s : Side} {p : Program} {subject : Subject} {r : Resolved} {c : Constraints}
  {withStructs : Bool} {message : String}

theorem of_mem_missingBounds (h : message ∈ s.missingBounds p subject r c withStructs) :
    ∃ m, message = s.missing subject "" "" m ∨
      message = s.missing subject " array element" "items:" m := by
  simp only [missingBounds] at h
  rcases List.mem_append.1 h with h | h
  · obtain ⟨m, -, rfl⟩ := List.mem_map.1 h
    exact ⟨m, .inl rfl⟩
  · split at h
    · obtain ⟨m, -, rfl⟩ := List.mem_map.1 h
      exact ⟨m, .inr rfl⟩
    · cases h

theorem owns_perm (errors : List ValueError) :
    (errors.filter Side.minimum.owns ++ errors.filter Side.maximum.owns).Perm errors := by
  have swap := List.filter_append_perm (fun e => Side.maximum.owns e) errors
  exact List.perm_append_comm.trans swap

end Side

/-! ## Messages -/

section Messages

variable {pos : Position} {subject : Subject} {errors : List ValueError} {g : Diagnostic}

theorem invalidMarker_ofErrors :
    (Diagnostic.ofErrors pos subject errors).filterMap (·.invalidMarker? subject) =
      errors.map (·.message) := by
  have each (e : ValueError) : Diagnostic.invalidMarker?
      { pos, message := subject.text ++ " has an invalid validation marker: " ++ e.message }
      subject = some e.message := Diagnostic.after?_eq_some rfl
  rw [Diagnostic.ofErrors, List.filterMap_map]
  induction errors with
  | nil => rfl
  | cons e es ih => rw [List.filterMap_cons, Function.comp_apply, each, ih, List.map_cons]

theorem not_asksForBound_of_mem_ofErrors (h : g ∈ Diagnostic.ofErrors pos subject errors) :
    g.asksForBound subject = false := by
  obtain ⟨e, -, rfl⟩ := List.mem_map.1 h
  have said : subject.text ++ " has an invalid validation marker: " ++ e.message =
      subject.text ++ (" has an invalid validation marker: " ++ e.message) := String.append_assoc
  rw [Diagnostic.asksForBound, Diagnostic.after?_eq_none said (by decide +kernel),
    Diagnostic.after?_eq_none said (by decide +kernel)]
  rfl

theorem asksForBound_of_mem_missingBounds {s : Side} {p : Program} {r : Resolved}
    {c : Constraints} {withStructs : Bool}
    (h : g.message ∈ s.missingBounds p subject r c withStructs) : g.asksForBound subject = true := by
  rw [Diagnostic.asksForBound, Bool.or_eq_true]
  obtain ⟨m, hm | hm⟩ := Side.of_mem_missingBounds h
  · left
    simp only [Side.missing, String.append_empty, String.append_assoc] at hm
    rw [Diagnostic.after?_eq_some (hm.trans String.append_assoc.symm)]
    rfl
  · right
    have words : subject.text ++ " array element" ++ " must have a " =
        subject.text ++ " array element must have a " := String.append_assoc
    rw [Side.missing, words] at hm
    simp only [String.append_assoc] at hm
    rw [Diagnostic.after?_eq_some (hm.trans String.append_assoc.symm)]
    rfl

theorem invalidMarker_of_asksForBound (h : g.asksForBound subject = true) :
    g.invalidMarker? subject = none := by
  rw [Diagnostic.asksForBound, Bool.or_eq_true] at h
  rw [Diagnostic.invalidMarker?]
  rcases h with h | h
  all_goals
    obtain ⟨rest, said⟩ := Diagnostic.exists_of_isSome_after? h
    exact Diagnostic.after?_eq_none said (by decide +kernel)

theorem invalidMarker_remark {x : FieldFacts} {finding : Finding} (h : Advice.Remark x finding) :
    (FieldAdvice.ofFinding pos finding).invalidMarker? (.field x.name) = none := by
  obtain ⟨rest, said⟩ := h.message
  have differ : ∀ kind : FindingKind,
      (" has an invalid validation marker: ".toList.isPrefixOf kind.opening.toList ||
        kind.opening.toList.isPrefixOf " has an invalid validation marker: ".toList) = false := by
    intro kind
    cases kind <;> decide +kernel
  exact Diagnostic.after?_eq_none said (differ finding.kind)

end Messages

/-! ## Checks of one subject -/

section Subject

variable {s : Side} {p : Program} {pos : Position} {subject : Subject} {r : Resolved}
  {c : Constraints} {errors : List ValueError} {reports withStructs : Bool} {ctx : FileContext}
  {f : Field} {scope : TypeDecl} {d : TypeDecl}

/-- A side reports the errors that it owns, on the subjects that it reports errors on. -/
theorem invalidMarker_checkSubject :
    (Bounds.checkSubject s p pos subject r c errors reports withStructs).filterMap
        (·.invalidMarker? subject) =
      if reports then (errors.filter s.owns).map (·.message) else [] := by
  have absent : (if (errors.filter s.owns).isEmpty then
      (s.missingBounds p subject r c withStructs).map fun message => { pos, message }
      else []).filterMap (fun d : Diagnostic => d.invalidMarker? subject) = [] := by
    rw [List.filterMap_eq_nil_iff]
    intro g hg
    split at hg
    · obtain ⟨message, hmem, rfl⟩ := List.mem_map.1 hg
      exact invalidMarker_of_asksForBound (asksForBound_of_mem_missingBounds hmem)
    · cases hg
  rw [Bounds.checkSubject, List.filterMap_append, absent, List.append_nil]
  split
  · exact invalidMarker_ofErrors
  · rfl

theorem not_asksForBound_of_owns {e : ValueError} (he : e ∈ errors) (hs : s.owns e = true)
    {g : Diagnostic}
    (hg : g ∈ Bounds.checkSubject s p pos subject r c errors reports withStructs) :
    g.asksForBound subject = false := by
  have hne : (errors.filter s.owns).isEmpty = false := by
    rw [List.isEmpty_eq_false_iff]
    exact List.ne_nil_of_mem (List.mem_filter.2 ⟨he, hs⟩)
  simp only [Bounds.checkSubject, hne, Bool.false_eq_true, if_false, List.append_nil] at hg
  split at hg
  · exact not_asksForBound_of_mem_ofErrors hg
  · cases hg

/-- The advice reports every error of the fields that it is about. -/
theorem invalidMarker_advice {requirement : Requirement} {o : AdviceOptions}
    (hf : f.isSkipped = false) :
    (FieldAdvice.checkField requirement o ctx f scope).filterMap
        (·.invalidMarker? (.field f.displayName)) =
      if FieldAdvice.isSelected requirement (ctx.inspectField f scope).constraints then
        (ctx.inspectField f scope).errors.map (·.message) else [] := by
  rw [FieldAdvice.checkField, hf, Bool.false_or]
  cases FieldAdvice.isSelected requirement (ctx.inspectField f scope).constraints with
  | false => rfl
  | true =>
    have remarks (x : FieldFacts) (hx : x.name = f.displayName) :
        ((Advice.evaluate x requirement o).map (FieldAdvice.ofFinding f.pos)).filterMap
          (·.invalidMarker? (.field f.displayName)) = [] := by
      rw [List.filterMap_eq_nil_iff, ← hx]
      intro g hg
      obtain ⟨finding, hmem, rfl⟩ := List.mem_map.1 hg
      exact invalidMarker_remark (Advice.remark_of_mem_evaluate hmem)
    simp only [Bool.not_true, Bool.false_eq_true, if_false, if_true, List.filterMap_append]
    rw [remarks _ rfl, List.append_nil]
    exact invalidMarker_ofErrors

end Subject

namespace FileContext

variable (ctx : FileContext) {f : Field} {scope : TypeDecl} {d : TypeDecl}

theorem onField_side (s : Side) : s.check.onField ctx f scope = Bounds.checkField s ctx f scope := by
  cases s <;> rfl

theorem onDecl_side (s : Side) : s.check.onDecl ctx d = Bounds.checkDecl s ctx d := by
  cases s <;> rfl

theorem invalidMarker_onField (s : Side) (scope : TypeDecl) (hf : f.isSkipped = false) :
    (s.check.onField ctx f scope).filterMap (·.invalidMarker? (.field f.displayName)) =
      if !(ctx.inspectField f scope).constraints.optional &&
          !(ctx.inspectField f scope).constraints.required then
        ((ctx.inspectField f scope).errors.filter s.owns).map (·.message) else [] := by
  rw [ctx.onField_side, Bounds.checkField, hf]
  exact invalidMarker_checkSubject

/-- All errors of a field are reported, each once, unless the field is optional and required. -/
theorem errors_of_field (o : AdviceOptions) (omitEmpty : OmitEmptyPolicy) (hf : f.isSkipped = false)
    (hboth : ¬((ctx.inspectField f scope).constraints.optional = true ∧
      (ctx.inspectField f scope).constraints.required = true)) :
    ((([.minLength, .maxLength, .optionalFields o, .requiredFields omitEmpty] : List Check).flatMap
      (·.onField ctx f scope)).filterMap (·.invalidMarker? (.field f.displayName))).Perm
      ((ctx.inspectField f scope).errors.map (·.message)) := by
  have minimum := ctx.invalidMarker_onField .minimum scope hf
  have maximum := ctx.invalidMarker_onField .maximum scope hf
  have optional : ((Check.optionalFields o).onField ctx f scope).filterMap _ = _ :=
    invalidMarker_advice hf
  have required : ((Check.requiredFields omitEmpty).onField ctx f scope).filterMap _ = _ :=
    invalidMarker_advice hf
  have shared := (Side.owns_perm (ctx.inspectField f scope).errors).map (·.message)
  rw [List.map_append] at shared
  -- The marks of the field say who reports.
  have share {low high all : List String} (shared : (low ++ high).Perm all) (isOptional isRequired : Bool)
      (hboth : ¬(isOptional = true ∧ isRequired = true)) :
      ((if !isOptional && !isRequired then low else []) ++
        ((if !isOptional && !isRequired then high else []) ++
          ((if isOptional then all else []) ++ if isRequired then all else []))).Perm all := by
    cases isOptional <;> cases isRequired
    case false.false => simpa using shared
    case false.true => simp
    case true.false => simp
    case true.true => exact absurd ⟨rfl, rfl⟩ hboth
  simp only [List.flatMap_cons, List.flatMap_nil, List.append_nil, List.filterMap_append]
  simp only [Side.check] at minimum maximum
  rw [minimum, maximum, optional, required]
  exact share shared _ _ hboth

theorem errors_of_decl (ha : d.isAlias = false) (hp : d.params = []) :
    ((([.minLength, .maxLength] : List Check).flatMap (·.onDecl ctx d)).filterMap
      (·.invalidMarker? (.type d.name))).Perm ((ctx.inspectDecl d).errors.map (·.message)) := by
  have side (s : Side) : (s.check.onDecl ctx d).filterMap (·.invalidMarker? (.type d.name)) =
      ((ctx.inspectDecl d).errors.filter s.owns).map (·.message) := by
    rw [ctx.onDecl_side, Bounds.checkDecl, ha, hp]
    exact invalidMarker_checkSubject
  have shared := (Side.owns_perm (ctx.inspectDecl d).errors).map (·.message)
  rw [List.map_append, ← side, ← side] at shared
  simp only [List.flatMap_cons, List.flatMap_nil, List.append_nil, List.filterMap_append]
  exact shared

theorem not_asksForBound_onField {s : Side} {e : ValueError} {g : Diagnostic}
    (he : e ∈ (ctx.inspectField f scope).errors) (hs : s.owns e = true)
    (hg : g ∈ s.check.onField ctx f scope) : g.asksForBound (.field f.displayName) = false := by
  rw [ctx.onField_side, Bounds.checkField] at hg
  split at hg
  · cases hg
  · exact not_asksForBound_of_owns he hs hg

theorem not_asksForBound_onDecl {s : Side} {e : ValueError} {g : Diagnostic}
    (he : e ∈ (ctx.inspectDecl d).errors) (hs : s.owns e = true)
    (hg : g ∈ s.check.onDecl ctx d) : g.asksForBound (.type d.name) = false := by
  rw [ctx.onDecl_side, Bounds.checkDecl] at hg
  split at hg
  · cases hg
  · exact not_asksForBound_of_owns he hs hg

/--
No malformed marker is lost, and none is reported twice: on a field by the four checks that look at
the markers of fields, on a declaration by the two sides. A side asks for no bounds where an error
is its own. What the checks say about the file is what they say about its fields and declarations.
-/
theorem errors_reported_once (o : AdviceOptions) (omitEmpty : OmitEmptyPolicy) :
    (∀ f scope, f.isSkipped = false →
      ¬((ctx.inspectField f scope).constraints.optional = true ∧
        (ctx.inspectField f scope).constraints.required = true) →
      ((([.minLength, .maxLength, .optionalFields o, .requiredFields omitEmpty] : List Check).flatMap
        (·.onField ctx f scope)).filterMap (·.invalidMarker? (.field f.displayName))).Perm
        ((ctx.inspectField f scope).errors.map (·.message))) ∧
    (∀ d : TypeDecl, d.isAlias = false → d.params = [] →
      ((([.minLength, .maxLength] : List Check).flatMap (·.onDecl ctx d)).filterMap
        (·.invalidMarker? (.type d.name))).Perm ((ctx.inspectDecl d).errors.map (·.message))) ∧
    (∀ s : Side,
      (∀ f scope, ∀ e ∈ (ctx.inspectField f scope).errors, s.owns e = true →
        ∀ g ∈ s.check.onField ctx f scope, g.asksForBound (.field f.displayName) = false) ∧
      ∀ d, ∀ e ∈ (ctx.inspectDecl d).errors, s.owns e = true →
        ∀ g ∈ s.check.onDecl ctx d, g.asksForBound (.type d.name) = false) ∧
    ∀ c : Check, (c.diagnostics ctx).Perm (ctx.file.decls.flatMap (c.onDecl ctx) ++
      ctx.file.fields.flatMap fun q => c.onField ctx q.1 q.2) := by
  refine ⟨fun f scope hf hboth => ctx.errors_of_field o omitEmpty hf hboth,
    fun d ha hp => ctx.errors_of_decl ha hp, fun s => ⟨?field, ?decl⟩, fun c => ?file⟩
  case field =>
    intro f scope e he hs g hg
    exact ctx.not_asksForBound_onField he hs hg
  case decl =>
    intro d e he hs g hg
    exact ctx.not_asksForBound_onDecl he hs hg
  case file =>
    rw [c.diagnostics_eq]
    exact c.arrange_perm _ _

end FileContext

/-- A string type with two malformed bounds. -/
def titleDecl : TypeDecl where
  name := "Title"
  pos := { line := 5, column := 6 }
  doc := ["// +kubebuilder:validation:MinLength=short", "// +kubebuilder:validation:MaxLength=long"]
  isAlias := false
  params := []
  type := .ident "string" none []

/-- An optional field that has a malformed bound of its own on top of the lower one of its type. -/
def titleField : Field where
  name := some "Title"
  pos := { line := 11, column := 2 }
  doc := ["// +optional", "// +kubebuilder:validation:MaxLength"]
  type := .ident "Title" none []
  tag := some "json:\"title,omitempty\""

def bookDecl : TypeDecl where
  name := "Book"
  pos := { line := 8, column := 6 }
  doc := []
  isAlias := false
  params := []
  type := .struct [titleField]

def bookFile : SourceFile :=
  { path := "api/book.go", decls := [titleDecl, bookDecl] }

def bookPackage : Package :=
  { path := "example.com/api", name := "api", files := [bookFile] }

def bookContext : FileContext where
  program := ⟨[bookPackage]⟩
  package := bookPackage
  file := bookFile
  registry := .standard

theorem errors_reported_once_in_book :
    ((titleField.isSkipped = false ∧
        ¬((bookContext.inspectField titleField bookDecl).constraints.optional = true ∧
          (bookContext.inspectField titleField bookDecl).constraints.required = true)) ∧
      ((([.minLength, .maxLength, .optionalFields {}, .requiredFields .warn] : List Check).flatMap
        (·.onField bookContext titleField bookDecl)).filterMap
          (·.invalidMarker? (.field titleField.displayName))).Perm
        ((bookContext.inspectField titleField bookDecl).errors.map (·.message))) ∧
    ((titleDecl.isAlias = false ∧ titleDecl.params = []) ∧
      ((([.minLength, .maxLength] : List Check).flatMap (·.onDecl bookContext titleDecl)).filterMap
        (·.invalidMarker? (.type titleDecl.name))).Perm
        ((bookContext.inspectDecl titleDecl).errors.map (·.message))) ∧
    (∃ e ∈ (bookContext.inspectDecl titleDecl).errors, Side.maximum.owns e = true) ∧
      ∀ g ∈ Check.maxLength.onDecl bookContext titleDecl,
        g.asksForBound (.type titleDecl.name) = false := by
  have notSkipped : titleField.isSkipped = false := by decide +kernel
  have optional : ¬((bookContext.inspectField titleField bookDecl).constraints.optional = true ∧
      (bookContext.inspectField titleField bookDecl).constraints.required = true) := by
    decide +kernel
  have owned : ∃ e ∈ (bookContext.inspectDecl titleDecl).errors, Side.maximum.owns e = true := by
    decide +kernel
  obtain ⟨fields, decls, sides, -⟩ := bookContext.errors_reported_once {} .warn
  refine ⟨⟨⟨notSkipped, optional⟩, fields titleField bookDecl notSkipped optional⟩,
    ⟨⟨rfl, rfl⟩, decls titleDecl rfl rfl⟩, owned, fun g hg => ?_⟩
  obtain ⟨e, he, hs⟩ := owned
  exact (sides .maximum).2 titleDecl e he hs g hg

end ApiConventions
