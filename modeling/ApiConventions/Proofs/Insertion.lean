import ApiConventions.Proofs.Correspondence.Revision
import ApiConventions.Proofs.Correspondence.Rules
import ApiConventions.Proofs.Model.Hole
import ApiConventions.Proofs.Rule.Subjects

/-!
# ApiConventions.Proofs.Insertion

Declarations are checked on their own. A declaration that nothing mentions is inserted into a file.
The name of the declaration is the only one that is looked up with another result, and nobody looks
it up, so every other declaration and field is known as before.
-/

namespace ApiConventions

/-- Nothing in the program has the name of the declaration, or mentions it. -/
structure DeclSite.Fresh (s : DeclSite) (d : TypeDecl) : Prop where
  undeclared : ∀ e ∈ (s.package []).decls, e.name ≠ d.name
  unused : ∀ P ∈ (s.program []).packages, ∀ e ∈ P.decls, ∀ n ∈ e.typeNames, n.name ≠ d.name

namespace DeclSite

variable {s : DeclSite} {d : TypeDecl}

theorem decl?_insert {name : String} (hn : name ≠ d.name) :
    (s.package [d]).decl? name = (s.package []).decl? name := by
  have other : (d.name == name) = false := beq_false_of_ne (Ne.symm hn)
  rw [Package.decl?, Package.decl?, decls_eq, decls_eq]
  simp only [List.find?_append, List.find?_cons, other, List.find?_nil]

theorem package_mem (ds : List TypeDecl) : s.package ds ∈ (s.program ds).packages :=
  List.mem_append_right _ List.mem_cons_self

/-- What an insertion changes: what one name refers to. -/
def insertion (s : DeclSite) (d : TypeDecl) : Revision where
  before := s.program []
  after := s.program [d]
  names n := n ≠ d.name
  exchanged _ _ _ _ := False
  free _ := False
  detours := False

namespace Fresh

variable (h : s.Fresh d)

include h

theorem decls {P : Package} (hP : P ∈ (s.program []).packages) (P' : Package) {e : TypeDecl}
    (he : e ∈ P.decls) : (s.insertion d).Decls P' e e :=
  .refl P' (h.unused P hP e he)

theorem packages : (s.insertion d).Packages (s.package []) (s.package [d]) where
  path := rfl
  decl name hn := by
    rw [decl?_insert hn]
    cases hd : (s.package []).decl? name with
    | none => exact .none
    | some e =>
      have he : e ∈ (s.package []).decls := List.mem_of_find?_eq_some hd
      exact .some (h.decls (package_mem []) _ he)

theorem packages_refl {P : Package} (hP : P ∈ (s.program []).packages) :
    (s.insertion d).Packages P P :=
  .of_decls rfl (List.forall₂_same.2 fun _ he => h.decls hP P he)

theorem sound : (s.insertion d).Sound where
  package := Revision.package_rel (forall₂_append_cons (fun _ hP => h.packages_refl hP) h.packages)
  exchanged _ hex := hex.elim

theorem run_eq (registry : Registry) {P P' : Package} {F : SourceFile} (r : Rule)
    (hP : P ∈ (s.program []).packages) (hF : F ∈ P.files)
    (hPP : (s.insertion d).Packages P P') :
    r.run ⟨s.program [], P, F, registry⟩ = r.run ⟨s.program [d], P', F, registry⟩ := by
  have declared : ∀ e ∈ F.decls, e ∈ P.decls := fun e he => List.mem_flatMap.2 ⟨F, hF, he⟩
  have files : (s.insertion d).correspondence.Files ⟨s.program [], P, F, registry⟩
      ⟨s.program [d], P', F, registry⟩ :=
    h.sound.files hPP registry (fun _ hf => hf) (fun _ _ _ hex => hex.elim) rfl
      (List.forall₂_same.2 fun e he => h.decls hP P' (declared e he))
  have faithful := Revision.faithful (v := s.insertion d) fun _ _ hf => hf
  exact files.run h.sound.lawful faithful r fun detours => detours.elim

theorem filter_file : (s.file [d]).decls.filter (fun e => e.name != d.name) = (s.file []).decls := by
  have others {ds : List TypeDecl} (hds : ∀ e ∈ ds, e ∈ (s.package []).decls) :
      ds.filter (fun e => e.name != d.name) = ds :=
    List.filter_eq_self.2 fun e he => bne_iff_ne.2 (h.undeclared e (hds e he))
  have before : s.declsBefore.filter (fun e => e.name != d.name) = s.declsBefore :=
    others fun e he => by simp [decls_eq, he]
  have after : s.declsAfter.filter (fun e => e.name != d.name) = s.declsAfter :=
    others fun e he => by simp [decls_eq, he]
  simp [file, before, after]

/--
A declaration that nothing mentions adds its own violations and those of its fields, and nothing
else changes: not the others in its file, nor their order, nor those in any other file.
-/
theorem run_insert (registry : Registry) (r : Rule) :
    (r.attributed (s.context registry [d])).map (·.2) = r.run (s.context registry [d]) ∧
    ((r.attributed (s.context registry [d])).filter fun q => q.1.name != d.name).map (·.2) =
      r.run (s.context registry []) ∧
    (∀ F ∈ s.filesBefore ++ s.filesAfter,
      r.run ⟨s.program [d], s.package [d], F, registry⟩ =
        r.run ⟨s.program [], s.package [], F, registry⟩) ∧
    ∀ P ∈ s.packagesBefore ++ s.packagesAfter, ∀ F ∈ P.files,
      r.run ⟨s.program [d], P, F, registry⟩ = r.run ⟨s.program [], P, F, registry⟩ := by
  refine ⟨r.map_attributed _, ?file, fun F hF => ?package, fun P hP F hF => ?program⟩
  case file =>
    have mem : s.file [] ∈ (s.package []).files := List.mem_append_right _ List.mem_cons_self
    have others := r.filter_attributed (s.context registry [d]) fun e => e.name != d.name
    simp only [context, h.filter_file] at others
    exact others.trans (h.run_eq registry r (package_mem []) mem h.packages).symm
  case package =>
    have mem : F ∈ (s.package []).files := by
      rw [package, List.mem_append, List.mem_cons]
      rcases List.mem_append.1 hF with hF | hF
      · exact .inl hF
      · exact .inr (.inr hF)
    exact (h.run_eq registry r (package_mem []) mem h.packages).symm
  case program =>
    have mem : P ∈ (s.program []).packages := by
      rw [program, List.mem_append, List.mem_cons]
      rcases List.mem_append.1 hP with hP | hP
      · exact .inl hP
      · exact .inr (.inr hP)
    exact (h.run_eq registry r mem hF (h.packages_refl mem)).symm

end Fresh
end DeclSite

/-- A file between two declarations, and a second file that mentions one of them. -/
def orderSite : DeclSite where
  packagesBefore := []
  packagesAfter := []
  path := "example.com/api"
  name := "api"
  filesBefore := []
  filesAfter :=
    [⟨"api/orders.go",
      [{ name := "Orders"
         pos := { line := 3, column := 6 }
         doc := []
         isAlias := false
         params := []
         type := .slice (.ident "Order" none []) }]⟩]
  filePath := "api/order.go"
  declsBefore := []
  declsAfter :=
    [{ name := "Order"
       pos := { line := 3, column := 6 }
       doc := []
       isAlias := false
       params := []
       type := .struct
         [{ name := some "ID"
            pos := { line := 4, column := 2 }
            doc := []
            type := .ident "string" none []
            tag := none }] }]

/-- A declaration with a malformed marker and a type that is declared nowhere. -/
def draftDecl : TypeDecl where
  name := "Draft"
  pos := { line := 7, column := 6 }
  doc := ["// +kubebuilder:validation:MinProperties=few"]
  isAlias := false
  params := []
  type := .struct
    [{ name := some "Parent"
       pos := { line := 8, column := 2 }
       doc := []
       type := .pointer (.ident "Draft" none [])
       tag := none },
     { name := some "Unknown"
       pos := { line := 9, column := 2 }
       doc := []
       type := .slice (.ident "Missing" (some "example.com/missing") [])
       tag := none }]

theorem fresh_draftDecl : orderSite.Fresh draftDecl where
  undeclared := by decide
  unused := by decide

theorem run_insert_draftDecl :
    orderSite.Fresh draftDecl ∧
      (((Rule.default .minLength).attributed (orderSite.context .standard [draftDecl])).filter
        fun q => q.1.name != draftDecl.name).map (·.2) =
        (Rule.default .minLength).run (orderSite.context .standard []) :=
  ⟨fresh_draftDecl, (fresh_draftDecl.run_insert .standard (Rule.default .minLength)).2.1⟩

end ApiConventions
