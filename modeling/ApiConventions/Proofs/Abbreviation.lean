import ApiConventions.Proofs.Correspondence.Revision
import ApiConventions.Proofs.Correspondence.Rules
import ApiConventions.Proofs.Model.Hole
import ApiConventions.Proofs.Model.Lookup

/-!
# ApiConventions.Proofs.Abbreviation

Aliases are transparent. A type expression inside the type of a field gets a name of its own: an
alias of it is declared in another file of the package, and the name takes its place. Every
reference to the name is one detour away from the expression, in whatever scope it is used, so no
rule sees a difference in the file.
-/

namespace ApiConventions

/-- A name for a type expression. -/
structure Abbreviation where
  name : String
  type : TypeExpr
  pos : Position
  doc : List String

namespace Abbreviation

def decl (a : Abbreviation) : TypeDecl :=
  { name := a.name, pos := a.pos, doc := a.doc, isAlias := true, params := [], type := a.type }

def use (a : Abbreviation) : TypeExpr :=
  .ident a.name none []

end Abbreviation

/-- Every name that a declaration introduces or mentions. -/
def TypeDecl.identifiers (d : TypeDecl) : List String :=
  d.name :: d.params.map (·.name) ++ d.typeNames.map (·.name)

def Program.identifiers (p : Program) : List String :=
  p.packages.flatMap fun P => P.decls.flatMap (·.identifiers)

/-- One declaration more in one of the files. -/
inductive SourceFile.DeclAdded (d : TypeDecl) : List SourceFile → List SourceFile → Prop where
  | here {path : String} {before after : List TypeDecl} {files : List SourceFile} :
      DeclAdded d (⟨path, before ++ after⟩ :: files) (⟨path, before ++ d :: after⟩ :: files)
  | there {file : SourceFile} {files files' : List SourceFile} (h : DeclAdded d files files') :
      DeclAdded d (file :: files) (file :: files')

/-- One declaration more in another file of the package. -/
inductive Site.DeclAdded (d : TypeDecl) (s : Site) : Site → Prop where
  | before {files : List SourceFile} (h : SourceFile.DeclAdded d s.filesBefore files) :
      DeclAdded d s { s with filesBefore := files }
  | after {files : List SourceFile} (h : SourceFile.DeclAdded d s.filesAfter files) :
      DeclAdded d s { s with filesAfter := files }

/-- A field whose type is `hole` around an expression that gets a name. -/
structure Abbreviates (a : Abbreviation) (s s' : Site) (f : Field) (hole : TypeHole) : Prop where
  added : s.DeclAdded a.decl s'
  named : f.isEmbedded = false
  fresh : a.name ∉ (s.program (f.withType (hole.plug a.type))).identifiers
  noFields : a.type.fields = []
  noParams : ∀ n ∈ a.type.plainNames, n ∉ s.owner.params.map (·.name)

/-! ## The added declaration -/

namespace SourceFile.DeclAdded

variable {d x : TypeDecl} {files files' : List SourceFile}

theorem mem_iff (h : DeclAdded d files files') :
    x ∈ files'.flatMap (·.decls) ↔ x = d ∨ x ∈ files.flatMap (·.decls) := by
  induction h with
  | here =>
    simp only [List.flatMap_cons, List.mem_append, List.mem_cons]
    tauto
  | there _ ih =>
    simp only [List.flatMap_cons, List.mem_append, ih]
    tauto

theorem find?_eq (h : DeclAdded d files files') {p : TypeDecl → Bool} (hp : p d = false) :
    (files'.flatMap (·.decls)).find? p = (files.flatMap (·.decls)).find? p := by
  induction h with
  | here => simp [List.find?_append, hp]
  | there _ ih =>
    rw [List.flatMap_cons, List.flatMap_cons, List.find?_append, List.find?_append, ih]

end SourceFile.DeclAdded

namespace Site.DeclAdded

variable {d x : TypeDecl} {s s' : Site} {f : Field}

theorem mem_iff (h : s.DeclAdded d s') :
    x ∈ (s'.package f).decls ↔ x = d ∨ x ∈ (s.package f).decls := by
  cases h with
  | before h =>
    simp only [decls_eq, List.mem_append, h.mem_iff]
    tauto
  | after h =>
    simp only [decls_eq, List.mem_append, List.mem_cons, h.mem_iff]
    tauto

theorem decl?_eq (h : s.DeclAdded d s') {name : String} (hn : d.name ≠ name) :
    (s'.package f).decl? name = (s.package f).decl? name := by
  rw [Package.decl?, Package.decl?, decls_eq, decls_eq]
  cases h with
  | before h =>
    have hfind := h.find?_eq (p := fun x => x.name == name) (beq_false_of_ne hn)
    simp only [List.find?_append, hfind]
    rfl
  | after h =>
    have hfind := h.find?_eq (p := fun x => x.name == name) (beq_false_of_ne hn)
    simp only [List.find?_append, List.find?_cons, hfind]
    rfl

end Site.DeclAdded

/-! ## The revisions -/

namespace Abbreviates

variable {a : Abbreviation} {s s' : Site} {f : Field} {hole : TypeHole}

theorem fresh_decl (h : Abbreviates a s s' f hole) {P : Package}
    (hP : P ∈ (s.program (f.withType (hole.plug a.type))).packages) {d : TypeDecl}
    (hd : d ∈ P.decls) : a.name ∉ d.identifiers := fun hmem =>
  h.fresh (List.mem_flatMap.2 ⟨P, hP, List.mem_flatMap.2 ⟨d, hd, hmem⟩⟩)

theorem fresh_names (h : Abbreviates a s s' f hole) {P : Package}
    (hP : P ∈ (s.program (f.withType (hole.plug a.type))).packages) {d : TypeDecl}
    (hd : d ∈ P.decls) (n : TypeName) (hn : n ∈ d.typeNames) : n.name ≠ a.name := fun heq =>
  h.fresh_decl hP hd (List.mem_append_right _ (List.mem_map.2 ⟨n, hn, heq⟩))

def revision (_ : Abbreviates a s s' f hole) : Revision where
  before := s.program (f.withType (hole.plug a.type))
  after := s'.program (f.withType (hole.plug a.use))
  names n := n ≠ a.name
  exchanged P' params e e' := e = a.type ∧ e' = a.use ∧ P'.decl? a.name = some a.decl ∧
    ∀ n ∈ a.name :: a.type.plainNames, n ∉ params.map (·.name)
  free _ := False
  detours := True

theorem package_mem : s.package f ∈ (s.program f).packages :=
  List.mem_append_right _ List.mem_cons_self

theorem decl_mem : s.decl f ∈ (s.package f).decls := by
  rw [Site.decls_eq]
  exact List.mem_append_right _ List.mem_cons_self

theorem decl?_name (h : Abbreviates a s s' f hole) :
    (s'.package (f.withType (hole.plug a.use))).decl? a.name = some a.decl := by
  have names : List.Forall₂ (fun d d' : TypeDecl => d.name = d'.name)
      (s.package (f.withType (hole.plug a.type))).decls
      (s.package (f.withType (hole.plug a.use))).decls := s.forall₂_decls (fun _ _ => rfl) rfl
  have hmem : a.decl ∈ (s'.package (f.withType (hole.plug a.use))).decls :=
    h.added.mem_iff.2 (.inl rfl)
  refine find?_eq_some_of_unique hmem (beq_self_eq_true _) fun x hx hn => ?_
  rcases h.added.mem_iff.1 hx with rfl | hx
  · rfl
  · obtain ⟨d, hd, hdx⟩ := exists_left_of_mem names hx
    have hname : d.name = a.name := hdx.trans (eq_of_beq hn)
    exact absurd (hname ▸ List.mem_cons_self) (h.fresh_decl package_mem hd)

theorem typeNames_subset (a : Abbreviation) (s : Site) (f : Field) (hole : TypeHole) :
    a.type.typeNames ⊆ (s.decl (f.withType (hole.plug a.type))).typeNames :=
  List.Subset.trans (hole.typeNames_subset a.type)
    (s.typeNames_subset (f.withType (hole.plug a.type)))

/-- The expression goes with its name, wherever none of its own names is bound. -/
theorem type_ref (h : Abbreviates a s s' f hole) {P P' : Package}
    {b b' : List (String × TypeRef)} (hp : h.revision.Packages P P')
    (hd : P'.decl? a.name = some a.decl) (hb' : b'.lookup a.name = none)
    (hb : ∀ n ∈ a.type.plainNames, b.lookup n = none) :
    h.revision.correspondence.Ref ⟨a.type, P, b⟩ ⟨a.use, P', b'⟩ := by
  have through : (s'.program (f.withType (hole.plug a.use))).lookThrough? ⟨a.use, P', b'⟩ =
      some ⟨a.type, P', []⟩ := by
    have hr : (s'.program (f.withType (hole.plug a.use))).referent? ⟨a.use, P', b'⟩ =
        some (.decl P' a.decl ⟨a.type, P', []⟩) := by
      simp only [Program.referent?, Abbreviation.use, Program.unqualified, List.isEmpty_nil,
        if_true, hb', hd]
      rfl
    rw [Program.lookThrough?, hr]
    rfl
  refine .detour trivial through ?_
  have known : h.revision.correspondence.NamesKnown b [] a.type := fun n hn => by
    have hname := h.fresh_names package_mem decl_mem n (typeNames_subset a s f hole hn)
    refine ⟨hname, fun hpath hargs => ?_⟩
    rw [hb n.name (TypeExpr.mem_plainNames hn hpath hargs)]
    exact .none
  exact known.ref (.refl _ : TypeExpr.Edit (fun _ _ => False) (fun _ => False) _ _) hp
    (fun _ _ hff => hff) (fun _ _ hf => hf) fun _ _ hff => hff.elim

theorem sameHead (h : Abbreviates a s s' f hole) (e e' : TypeExpr) :
    (f.withType e).SameHead (f.withType e') := by
  have hnamed := h.named
  refine ⟨rfl, rfl, rfl, rfl, ?_⟩
  rw [Field.isEmbedded] at hnamed
  simp only [Field.displayName, Field.withType]
  cases hname : f.name with
  | none =>
    rw [hname] at hnamed
    cases hnamed
  | some name => rfl

theorem decls (h : Abbreviates a s s' f hole) :
    h.revision.Decls (s'.package (f.withType (hole.plug a.use)))
      (s.decl (f.withType (hole.plug a.type))) (s.decl (f.withType (hole.plug a.use))) where
  head := ⟨rfl, rfl, rfl, rfl, rfl⟩
  type := by
    refine s.hole.edit (h.sameHead _ _) fun _ => hole.edit ⟨rfl, rfl, h.decl?_name, ?_⟩
    refine List.forall_mem_cons.2 ⟨fun hmem => ?_, h.noParams⟩
    exact h.fresh_decl package_mem decl_mem
      (List.mem_append_left _ (List.mem_cons_of_mem _ hmem))
  names := h.fresh_names package_mem decl_mem

theorem decls_refl (h : Abbreviates a s s' f hole) {P : Package}
    (hP : P ∈ (s.program (f.withType (hole.plug a.type))).packages) (P' : Package) {d : TypeDecl}
    (hd : d ∈ P.decls) : h.revision.Decls P' d d :=
  .refl P' (h.fresh_names hP hd)

theorem packages (h : Abbreviates a s s' f hole) :
    h.revision.Packages (s.package (f.withType (hole.plug a.type)))
      (s'.package (f.withType (hole.plug a.use))) where
  path := by
    cases h.added <;> rfl
  decl name hn := by
    rw [h.added.decl?_eq (Ne.symm hn)]
    refine find?_rel (s.forall₂_decls (fun d hd => h.decls_refl package_mem _ hd) h.decls) ?_
    exact fun d d' hdd => by rw [hdd.head.name]

theorem sound (h : Abbreviates a s s' f hole) : h.revision.Sound where
  package path := by
    have same : h.revision.after.packages =
        s.packagesBefore ++ s'.package (f.withType (hole.plug a.use)) :: s.packagesAfter := by
      cases h.added <;> rfl
    refine Revision.package_rel ?_ path
    rw [same]
    refine forall₂_append_cons (fun P hP => ?_) h.packages
    exact .of_decls rfl (List.forall₂_same.2 fun d hd => h.decls_refl hP P hd)
  exchanged hp hex hb := by
    obtain ⟨rfl, rfl, hd, hn⟩ := hex
    obtain ⟨hname, hnames⟩ := List.forall_mem_cons.1 hn
    exact h.type_ref hp hd (hb _ hname).2 fun n hmem => (hb n (hnames n hmem)).1

/-! ## The file -/

theorem files (h : Abbreviates a s s' f hole) (registry : Registry) :
    h.revision.correspondence.Files (s.context registry (f.withType (hole.plug a.type)))
      (s'.context registry (f.withType (hole.plug a.use))) := by
  have same : s'.file (f.withType (hole.plug a.use)) = s.file (f.withType (hole.plug a.use)) := by
    cases h.added <;> rfl
  refine h.sound.files h.packages registry (fun _ hf => hf) (fun _ e e' hex => ?_) ?_ ?_
  · obtain ⟨rfl, rfl, -, -⟩ := hex
    exact ⟨h.noFields, rfl⟩
  · rw [same]
    rfl
  · rw [same]
    refine forall₂_append_cons (fun d hd => ?_) h.decls
    refine h.decls_refl package_mem _ (List.mem_flatMap.2 ⟨s.file _, ?_, hd⟩)
    exact List.mem_append_right _ List.mem_cons_self

/--
No rule sees the name. The violations in the file are the same before and after, provided that the
step limit plays no part in what the rule asks about the file afterwards.
-/
theorem run_abbreviated (h : Abbreviates a s s' f hole) (registry : Registry) (rule : Rule)
    (answered : ∀ q ∈ rule.check.probes (s'.context registry (f.withType (hole.plug a.use))),
      (s'.program (f.withType (hole.plug a.use))).answers q = true) :
    rule.run (s.context registry (f.withType (hole.plug a.type))) =
      rule.run (s'.context registry (f.withType (hole.plug a.use))) :=
  (h.files registry).run h.sound.lawful (Revision.faithful fun _ _ hf => hf) rule fun _ => answered

end Abbreviates

namespace Abbreviation

/-- A struct of which one member is left open, and a second file without declarations. -/
def widgetSite : Site where
  packagesBefore := []
  packagesAfter := []
  path := "example.com/api"
  name := "api"
  filesBefore := []
  filesAfter := [⟨"api/names.go", []⟩]
  filePath := "api/widget.go"
  declsBefore := []
  declsAfter := []
  owner :=
    { name := "Widget"
      pos := { line := 3, column := 6 }
      doc := []
      isAlias := false
      params := [⟨"T", .ident "any" none []⟩]
      type := .func }
  hole := .here [] []

def namedSite (a : Abbreviation) : Site :=
  { widgetSite with filesAfter := [⟨"api/names.go", [a.decl]⟩] }

def sizesField : Field where
  name := some "Sizes"
  pos := { line := 4, column := 2 }
  doc := []
  type := .func
  tag := some "json:\"sizes\""

def sizes : Abbreviation where
  name := "Sizes"
  type := .slice (.pointer (.ident "uint" none []))
  pos := { line := 3, column := 6 }
  doc := []

def sizesHole : TypeHole :=
  .mapValue (.ident "T" none []) .here

theorem sizes_declAdded : SourceFile.DeclAdded sizes.decl [⟨"api/names.go", [] ++ []⟩]
    [⟨"api/names.go", [] ++ sizes.decl :: []⟩] := .here

theorem sizes_abbreviates :
    Abbreviates sizes widgetSite (namedSite sizes) sizesField sizesHole where
  added := .after sizes_declAdded
  named := rfl
  fresh := by decide
  noFields := rfl
  noParams := by decide

theorem run_integers_sizes :
    (Abbreviates sizes widgetSite (namedSite sizes) sizesField sizesHole ∧
      ∀ q ∈ (Rule.default .integers).check.probes
        ((namedSite sizes).context .standard (sizesField.withType (sizesHole.plug sizes.use))),
        ((namedSite sizes).program (sizesField.withType (sizesHole.plug sizes.use))).answers q =
          true) ∧
      (Rule.default .integers).run
          (widgetSite.context .standard (sizesField.withType (sizesHole.plug sizes.type))) =
        (Rule.default .integers).run
          ((namedSite sizes).context .standard
            (sizesField.withType (sizesHole.plug sizes.use))) := by
  have answered : ∀ q ∈ (Rule.default .integers).check.probes
      ((namedSite sizes).context .standard (sizesField.withType (sizesHole.plug sizes.use))),
      ((namedSite sizes).program (sizesField.withType (sizesHole.plug sizes.use))).answers q =
        true := by decide +kernel
  exact ⟨⟨sizes_abbreviates, answered⟩, sizes_abbreviates.run_abbreviated .standard _ answered⟩

end Abbreviation
end ApiConventions
