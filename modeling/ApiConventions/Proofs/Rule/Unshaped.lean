import ApiConventions.Proofs.Resolution.Bytes
import ApiConventions.Proofs.Rule.InvalidMarkers

/-!
# ApiConventions.Proofs.Rule.Unshaped

Types without a shape. These are the interfaces, functions, channels and complex numbers, and the
types that resolution does not get to the end of: names that the program does not declare, cycles,
and whatever lies behind more steps than there are. No check judges the structure of such a type,
nor that of the elements of a list of them.
-/

namespace ApiConventions

/-- The kinds of the types without a shape. -/
def Kind.unshaped : List Kind :=
  [.opaqueType, .interface, .func, .chan, .basic .complex64, .basic .complex128]

theorem Shape.ofKind_eq_other_iff {kind : Kind} : ofKind kind = .other ↔ kind ∈ Kind.unshaped := by
  cases kind with
  | basic b => cases b <;> decide
  | _ => decide

theorem Shape.of_ofResolved_other {r : Resolved} (h : ofResolved r = .other) :
    r.isByteSlice = false ∧ r.kind ∈ Kind.unshaped := by
  rw [ofResolved] at h
  split at h
  · cases h
  · rename_i bytes
    exact ⟨by simpa using bytes, ofKind_eq_other_iff.1 h⟩

namespace Program

variable {p : Program} {t : TypeRef}

theorem slice_of_isByteSlice (bytes : (p.resolve t).isByteSlice = true) :
    (p.resolve t).kind = .slice := by
  obtain ⟨link, spec, same⟩ := resolveWithin_end (ends_of_isByteSlice bytes)
  have spec : p.EndSpec (p.resolve t).underlying (p.resolve t).kind link := spec
  have bytes : p.isByteSlice (p.resolve t).underlying = true := same.symm.trans bytes
  generalize (p.resolve t).kind = kind at spec ⊢
  cases spec with
  | slice expr => rfl
  | basic refers => simp [isByteSlice_of_referent refers] at bytes
  | anyValue refers => simp [isByteSlice_of_referent refers] at bytes
  | known refers _ => simp [isByteSlice_of_referent refers] at bytes
  | external refers => simp [isByteSlice_of_referent refers] at bytes
  | unknown refers => simp [isByteSlice_of_referent refers] at bytes
  | _ expr => simp [isByteSlice, expr] at bytes

theorem shape_eq_other_iff :
    Shape.ofResolved (p.resolve t) = .other ↔ (p.resolve t).kind ∈ Kind.unshaped := by
  refine ⟨fun h => (Shape.of_ofResolved_other h).2, fun h => ?_⟩
  rw [Shape.ofResolved, if_neg, Shape.ofKind_eq_other_iff]
  · exact h
  · intro bytes
    rw [slice_of_isByteSlice bytes] at h
    exact absurd h (by decide)

/-- A type is opaque if it has no end within the limit, or a type outside the program for one. -/
theorem kind_eq_opaqueType_iff : (p.resolve t).kind = .opaqueType ↔
    p.endsWithin maxSteps t = false ∨ ∃ link,
      p.referent? (p.resolve t).underlying = some (.unknown link) ∨
        p.referent? (p.resolve t).underlying = some (.known link none) := by
  cases ends : p.endsWithin maxSteps t with
  | false => simp [resolve, (resolveWithin_of_not_endsWithin ends).1]
  | true =>
    obtain ⟨link, spec, -⟩ := resolveWithin_end ends
    have spec : p.EndSpec (p.resolve t).underlying (p.resolve t).kind link := spec
    generalize (p.resolve t).kind = kind at spec ⊢
    cases spec with
    | external refers => simp [refers]
    | unknown refers => simp [refers]
    | basic refers => simp [refers]
    | anyValue refers => simp [refers]
    | known refers _ => simp [refers]
    | _ expr => simp [referent?, expr]

end Program

/-! ## Checks of one subject -/

section Subject

variable {s : Side} {p : Program} {pos : Position} {subject : Subject} {r : Resolved}
  {c : Constraints} {errors : List ValueError} {reports withStructs : Bool} {g : Diagnostic}
  {t : TypeRef} {message : String}

theorem Side.missingBounds_of_other (other : Shape.ofResolved r = .other) :
    s.missingBounds p subject r c withStructs = [] := by
  simp only [missingBounds, other]
  rfl

/-- A list of elements without a shape lacks a bound of its own at most. -/
theorem Side.own_of_mem_missingBounds (list : r.kind.isList = true) (elem : r.elem? = some t)
    (other : Shape.ofResolved (p.resolve t) = .other) (bytes : r.isByteSlice = false)
    (h : message ∈ s.missingBounds p subject r c withStructs) :
    message = s.missing subject "" "" .items := by
  have shape : Shape.ofResolved r = .list := by
    rw [Shape.ofResolved, if_neg (by simp [bytes])]
    revert list
    cases r.kind <;> simp [Kind.isList, Shape.ofKind]
  simp only [missingBounds, shape, elem, other, lackingElement?, lacking?] at h
  split at h
  · simpa using h
  · simp at h

/-- A side reports malformed markers and missing bounds, and nothing else. -/
theorem Bounds.of_mem_checkSubject
    (h : g ∈ checkSubject s p pos subject r c errors reports withStructs) :
    g ∈ Diagnostic.ofErrors pos subject errors ∨
      g.message ∈ s.missingBounds p subject r c withStructs := by
  rcases List.mem_append.1 h with h | h
  · left
    split at h
    · obtain ⟨e, he, rfl⟩ := List.mem_map.1 h
      exact List.mem_map.2 ⟨e, (List.mem_filter.1 he).1, rfl⟩
    · cases h
  · right
    split at h
    · obtain ⟨message, mem, rfl⟩ := List.mem_map.1 h
      exact mem
    · cases h

theorem Advice.onPointer_of_other {x : FieldFacts} {requirement : Requirement} {o : AdviceOptions}
    (other : x.shape = .other) (depth : x.pointerDepth ≤ 1) : onPointer x requirement o = none := by
  rw [onPointer, if_neg (by omega), other]
  rfl

theorem NoMaps.isReported_of_unshaped {o : MapOptions} (h : r.kind ∈ Kind.unshaped) :
    isReported o p r = false := by
  rw [isReported]
  split
  · rename_i kind _
    rw [kind] at h
    exact absurd h (by decide)
  · rfl

end Subject

/-! ## Lists -/

namespace ListTags

variable {usage : SetUsage} {p : Program} {r : Resolved} {layers : List MarkerSet}
  {name message : String} {t : TypeRef}

/-- The message about a list without a `listType`. -/
def missingType (name : String) : String :=
  s!"field {name} should have a listType marker for proper Server-Side Apply behavior " ++
    "(atomic, set, or map)"

/-- The message about a list with a `listType` that there is not. -/
def invalidType (name listType : String) : String :=
  s!"field {name} has invalid listType \"{listType}\", must be one of: atomic, set, map"

theorem messages_of_unshaped (bytes : r.isByteSlice = false) (h : r.kind ∈ Kind.unshaped) :
    messages usage p name layers r = [] := by
  have list : r.kind.isList = false := by
    revert h
    cases r.kind <;> simp [Kind.unshaped, Kind.isList]
  simp [messages, bytes, list]

/-- What the elements are decides nothing where it is not known. -/
theorem of_mem_messages (bytes : r.isByteSlice = false) (elem : r.elem? = some t)
    (unknown : Element.of (p.resolve t).kind = .unknown)
    (h : message ∈ messages usage p name layers r) :
    message = missingType name ∨
      ∃ listType ∉ ["atomic", "set", "map"], message = invalidType name listType := by
  simp only [messages, bytes] at h
  split at h
  · cases h
  · split at h
    · exact .inl (List.mem_singleton.1 h)
    · simp only [checkList] at h
      split at h
      · rename_i layer found other
        exact .inr ⟨_, by simpa using other, List.mem_singleton.1 h⟩
      · simp [elem, checkElements, unknown] at h

end ListTags

/-! ## Fields -/

namespace FileContext

variable {ctx : FileContext} {f : Field} {scope : TypeDecl} {t : TypeRef}

/-- The reports of the malformed markers of a field. -/
def invalidMarkers (ctx : FileContext) (f : Field) (scope : TypeDecl) : List Diagnostic :=
  Diagnostic.ofErrors f.pos (.field f.displayName) (ctx.inspectField f scope).errors

/-- Of the structure of a field nothing is said, and of its tag only that it lacks `omitempty`. -/
structure TagOnly (ctx : FileContext) (f : Field) (scope : TypeDecl) : Prop where
  bounds : ∀ s : Side, ∀ g ∈ s.check.onField ctx f scope, g ∈ ctx.invalidMarkers f scope
  maps : ∀ o, (Check.noMaps o).onField ctx f scope = []
  lists : ∀ usage, (Check.listTags usage).onField ctx f scope = []
  optional : ∀ o, ∀ g ∈ (Check.optionalFields o).onField ctx f scope,
    g ∈ ctx.invalidMarkers f scope ∨
      g.message = s!"field {f.displayName} should have the omitempty tag."
  required : ∀ omitEmpty, ∀ g ∈ (Check.requiredFields omitEmpty).onField ctx f scope,
    g ∈ ctx.invalidMarkers f scope ∨
      g.message = s!"field {f.displayName} should have the omitempty tag."

/-- Of a list nothing is said that depends on its elements. -/
structure ListOnly (ctx : FileContext) (f : Field) (scope : TypeDecl) : Prop where
  bounds : ∀ s : Side, ∀ g ∈ s.check.onField ctx f scope, g ∈ ctx.invalidMarkers f scope ∨
    g.message = s.missing (.field f.displayName) "" "" .items
  lists : ∀ usage, ∀ g ∈ (Check.listTags usage).onField ctx f scope,
    g.message = ListTags.missingType f.displayName ∨
      ∃ listType ∉ ["atomic", "set", "map"],
        g.message = ListTags.invalidType f.displayName listType

theorem of_mem_onField_side {s : Side} {g : Diagnostic} (h : g ∈ s.check.onField ctx f scope) :
    g ∈ ctx.invalidMarkers f scope ∨
      g.message ∈ s.missingBounds ctx.program (.field f.displayName) (ctx.resolve f.type scope)
        (ctx.inspectField f scope).constraints true := by
  rw [ctx.onField_side, Bounds.checkField] at h
  split at h
  · cases h
  · exact Bounds.of_mem_checkSubject h

theorem of_mem_advice {r : Requirement} {o : AdviceOptions} {g : Diagnostic}
    (other : Shape.ofResolved (ctx.resolve f.type scope) = .other)
    (depth : (ctx.resolve f.type scope).pointerDepth ≤ 1)
    (h : g ∈ FieldAdvice.checkField r o ctx f scope) : g ∈ ctx.invalidMarkers f scope ∨
      g.message = s!"field {f.displayName} should have the omitempty tag." := by
  rw [FieldAdvice.checkField] at h
  split at h
  · cases h
  · refine (List.mem_append.1 h).imp id fun h => ?_
    obtain ⟨finding, mem, rfl⟩ := List.mem_map.1 h
    rcases Advice.mem_evaluate.1 mem with omission | pointer
    · rw [Advice.onOmission] at omission
      split at omission
      · cases omission
        rfl
      · cases omission
    · rw [Advice.onPointer_of_other other depth] at pointer
      cases pointer

theorem tagOnly (other : Shape.ofResolved (ctx.resolve f.type scope) = .other)
    (depth : (ctx.resolve f.type scope).pointerDepth ≤ 1) : ctx.TagOnly f scope := by
  obtain ⟨bytes, unshaped⟩ := Shape.of_ofResolved_other other
  refine { bounds := fun s g hg => ?bounds, maps := fun o => ?maps, lists := fun usage => ?lists,
           optional := fun o g hg => of_mem_advice other depth hg,
           required := fun omitEmpty g hg => of_mem_advice other depth hg }
  case bounds =>
    refine (of_mem_onField_side hg).resolve_right fun mem => ?_
    rw [Side.missingBounds_of_other other] at mem
    cases mem
  case maps =>
    simp only [Check.onField, NoMaps.checkField, NoMaps.isReported_of_unshaped unshaped]
    split <;> rfl
  case lists =>
    rw [Check.onField, ListTags.checkField]
    split
    · rfl
    · exact congrArg (List.map _) (ListTags.messages_of_unshaped bytes unshaped)

theorem listOnly (list : (ctx.resolve f.type scope).kind.isList = true)
    (bytes : (ctx.resolve f.type scope).isByteSlice = false)
    (elem : (ctx.resolve f.type scope).elem? = some t)
    (unknown : (ctx.program.resolve t).kind ∈ [.opaqueType, .interface]) :
    ctx.ListOnly f scope := by
  constructor
  case bounds =>
    intro s g hg
    have other : Shape.ofResolved (ctx.program.resolve t) = .other :=
      Program.shape_eq_other_iff.2 (List.mem_append_left _ unknown)
    exact (of_mem_onField_side hg).imp id (Side.own_of_mem_missingBounds list elem other bytes)
  case lists =>
    intro usage g hg
    have unknown : ListTags.Element.of (ctx.program.resolve t).kind = .unknown := by
      revert unknown
      cases (ctx.program.resolve t).kind <;> simp [ListTags.Element.of]
    rw [Check.onField, ListTags.checkField] at hg
    split at hg
    · cases hg
    · obtain ⟨message, mem, rfl⟩ := List.mem_map.1 hg
      exact ListTags.of_mem_messages bytes elem unknown mem

/--
Types that cannot be resolved are not judged. The types without a shape are those of six kinds,
one of which is what a type outside the program and a type beyond the step limit come to. With one
pointer level at most, such a field has no remark on its structure, and a list of such elements has
none that depends on them. What the checks say about the file is what they say about its fields and
declarations.
-/
theorem unshaped_unremarked (ctx : FileContext) :
    (∀ t, (Shape.ofResolved (ctx.program.resolve t) = .other ↔
        (ctx.program.resolve t).kind ∈ [.opaqueType, .interface, .func, .chan, .basic .complex64,
          .basic .complex128]) ∧
      ((ctx.program.resolve t).kind = .opaqueType ↔
        ctx.program.endsWithin maxSteps t = false ∨ ∃ link,
          ctx.program.referent? (ctx.program.resolve t).underlying = some (.unknown link) ∨
          ctx.program.referent? (ctx.program.resolve t).underlying = some (.known link none))) ∧
    (∀ f scope, Shape.ofResolved (ctx.resolve f.type scope) = .other →
      (ctx.resolve f.type scope).pointerDepth ≤ 1 → ctx.TagOnly f scope) ∧
    (∀ f scope, (ctx.resolve f.type scope).kind ∈ [.slice, .array] →
      (ctx.resolve f.type scope).isByteSlice = false →
      (∀ t, (ctx.resolve f.type scope).elem? = some t →
        (ctx.program.resolve t).kind ∈ [.opaqueType, .interface]) → ctx.ListOnly f scope) ∧
    ∀ c : Check, (c.diagnostics ctx).Perm (ctx.file.decls.flatMap (c.onDecl ctx) ++
      ctx.file.fields.flatMap fun q => c.onField ctx q.1 q.2) := by
  refine ⟨fun t => ⟨Program.shape_eq_other_iff, Program.kind_eq_opaqueType_iff⟩,
    fun f scope other depth => tagOnly other depth, fun f scope list bytes unknown => ?list,
    fun c => ?file⟩
  case list =>
    have isList : (ctx.resolve f.type scope).kind.isList = true := by
      simp only [List.mem_cons, List.not_mem_nil, or_false] at list
      rcases list with kind | kind <;> rw [kind] <;> rfl
    obtain ⟨t, elem⟩ := Program.elem_of_isList isList
    exact listOnly isList bytes elem (unknown t elem)
  case file =>
    rw [c.diagnostics_eq]
    exact c.arrange_perm _ _

end FileContext

namespace Unshaped

def declaration (name : String) (line : UInt64) (type : TypeExpr) : TypeDecl where
  name := name
  pos := ⟨line, 6⟩
  doc := []
  isAlias := false
  params := []
  type := type

/-- Two types that are declared by one another. -/
def cycle : List TypeDecl :=
  [declaration "Loop" 3 (.ident "Back" none []), declaration "Back" 5 (.ident "Loop" none [])]

def loop : Field where
  name := some "Loop"
  pos := ⟨8, 2⟩
  doc := ["// +optional", "// +kubebuilder:validation:MinLength=short"]
  type := .pointer (.ident "Loop" none [])
  tag := some "json:\"loop\""

/-- A list of lists, each of which lies behind more pointers than a resolution has steps. -/
def remote : Field where
  name := some "Remote"
  pos := ⟨12, 2⟩
  doc := ["// +listType=map"]
  type := .slice (maxSteps.repeat .pointer (.slice (.ident "string" none [])))
  tag := some "json:\"remote\""

def spec : TypeDecl := declaration "Spec" 7 (.struct [loop, remote])

def file : SourceFile :=
  { path := "api/spec.go", decls := cycle ++ [spec] }

def package : Package := ⟨"example.com/api", "api", [file]⟩

def ctx : FileContext where
  program := ⟨[package]⟩
  package := package
  file := file
  registry := .standard

theorem elem_remote : (ctx.resolve remote.type spec).elem? =
    some ⟨maxSteps.repeat .pointer (.slice (.ident "string" none [])), package, []⟩ := rfl

/-- A pointer into a cycle, and elements that resolution leaves at a list without a kind. -/
theorem unshaped_unremarked_in_spec :
    (Shape.ofResolved (ctx.resolve loop.type spec) = .other ∧
      (ctx.resolve loop.type spec).pointerDepth = 1) ∧
    ctx.TagOnly loop spec ∧
    ((ctx.resolve remote.type spec).kind = .slice ∧
      ∃ t, (ctx.resolve remote.type spec).elem? = some t ∧
        (ctx.program.resolve t).kind = .opaqueType ∧
        (ctx.program.resolve t).underlying.expr = .slice (.ident "string" none [])) ∧
    ctx.ListOnly remote spec := by
  obtain ⟨-, tags, lists, -⟩ := ctx.unshaped_unremarked
  have other : Shape.ofResolved (ctx.resolve loop.type spec) = .other := by decide +kernel
  have depth : (ctx.resolve loop.type spec).pointerDepth = 1 := by decide +kernel
  have slice : (ctx.resolve remote.type spec).kind = .slice := by decide +kernel
  refine ⟨⟨other, depth⟩, tags loop spec other (Nat.le_of_eq depth), ⟨slice, _, elem_remote, ?_, rfl⟩,
    lists remote spec (by rw [slice]; decide) (by decide +kernel) fun t elem => ?_⟩
  · decide +kernel
  · rw [elem_remote] at elem
    cases elem
    decide +kernel

example : ((Check.optionalFields {}).onField ctx loop spec).map (·.message) =
    ["field Loop has an invalid validation marker: " ++
        "invalid value \"short\" for marker kubebuilder:validation:MinLength: not a valid integer",
      "field Loop should have the omitempty tag."] := by decide +kernel

end Unshaped
end ApiConventions
