import ApiConventions.Proofs.Correspondence.Bindings
import ApiConventions.Proofs.Correspondence.Files

/-!
# ApiConventions.Proofs.Correspondence.Revision

Two revisions of a program: packages keep their paths, and declarations their names and
parameters, while right-hand sides are edited. When the exchanged subexpressions go together, so
do the revisions.
-/

namespace ApiConventions

/-- Two revisions of a program, and what may differ between them. -/
structure Revision where
  before : Program
  after : Program
  /-- The names that both revisions use. -/
  names : String → Prop
  /-- The subexpressions that are exchanged where these parameters of a package are bound. -/
  exchanged : Package → List TypeParam → TypeExpr → TypeExpr → Prop
  /-- The members whose types may change at will. -/
  free : Field → Prop
  /-- Whether the later revision may look through new aliases. -/
  detours : Prop

namespace Revision

/-- A declaration in both revisions of a package, of which `P'` is the later one. -/
structure Decls (v : Revision) (P' : Package) (d d' : TypeDecl) : Prop where
  head : d.SameHead d'
  type : TypeExpr.Edit (v.exchanged P' d.params) v.free d.type d'.type
  names : ∀ n ∈ d.typeNames, v.names n.name

structure Packages (v : Revision) (P P' : Package) : Prop where
  path : P.path = P'.path
  decl (name : String) : v.names name → Option.Rel (v.Decls P') (P.decl? name) (P'.decl? name)

def correspondence (v : Revision) : Correspondence where
  left := v.before
  right := v.after
  packages := v.Packages
  decls := TypeDecl.SameHead
  members := Field.SameHead
  tracked f := ¬ v.free f
  names := v.names
  detours := v.detours

/-- What two revisions owe: the same packages, and exchanged subexpressions that go together. -/
structure Sound (v : Revision) : Prop where
  package (path : String) : Option.Rel v.Packages (v.before.package? path) (v.after.package? path)
  exchanged {P P' : Package} {params : List TypeParam} {e e' : TypeExpr}
    {b b' : List (String × TypeRef)} : v.Packages P P' → v.exchanged P' params e e' →
    (∀ n, n ∉ params.map (·.name) → b.lookup n = none ∧ b'.lookup n = none) →
    v.correspondence.Ref ⟨e, P, b⟩ ⟨e', P', b'⟩

variable {v : Revision} {P P' : Package} {d d' : TypeDecl}

theorem Decls.constraint_names (h : v.Decls P' d d') {q : TypeParam} (hq : q ∈ d.params)
    (n : TypeName) (hn : n ∈ q.constraint.typeNames) : v.names n.name :=
  h.names n (List.mem_append_left _ (List.mem_flatMap.2 ⟨q, hq, hn⟩))

theorem Decls.bindings (h : v.Decls P' d d') (hp : v.Packages P P') {s s' : TypeRef}
    {args args' : List TypeExpr} (ha : List.Forall₂ v.correspondence.Ref (args.map s.withExpr)
      (args'.map s'.withExpr)) :
    v.correspondence.Bindings (d.instantiate P args s) (d'.instantiate P' args' s') := by
  rw [TypeDecl.instantiate, TypeDecl.instantiate, ← h.head.params]
  refine Correspondence.Bindings.bindParams .nil ha fun q hq b b' hb => ?_
  have known : v.correspondence.NamesKnown b b' q.constraint :=
    .of_bindings (fun n hn => h.constraint_names hq n hn) hb
  exact known.ref (.refl _ : TypeExpr.Edit (fun _ _ => False) v.free _ _) hp (fun _ _ hff => hff)
    (fun _ hf => hf) fun _ _ hff => hff.elim

/-- Edited expressions go together inside the declarations in which they are written. -/
theorem Sound.ref (hv : v.Sound) (h : v.Decls P' d d') (hp : v.Packages P P') {s s' : TypeRef}
    {args args' : List TypeExpr} (ha : List.Forall₂ v.correspondence.Ref (args.map s.withExpr)
      (args'.map s'.withExpr)) {e e' : TypeExpr} (hn : e.typeNames ⊆ d.typeNames)
    (he : TypeExpr.Edit (v.exchanged P' d.params) v.free e e') :
    v.correspondence.Ref ⟨e, P, d.instantiate P args s⟩ ⟨e', P', d'.instantiate P' args' s'⟩ := by
  have known : v.correspondence.NamesKnown (d.instantiate P args s)
      (d'.instantiate P' args' s') e :=
    .of_bindings (fun n hmem => h.names n (hn hmem)) (h.bindings hp ha)
  refine known.ref he hp (fun _ _ hff => hff) (fun _ hf => hf) fun e e' hex => ?_
  refine hv.exchanged hp hex fun n hn => ⟨TypeDecl.lookup_instantiate hn, ?_⟩
  exact TypeDecl.lookup_instantiate (h.head.params ▸ hn)

theorem Sound.lawful (hv : v.Sound) : v.correspondence.Lawful where
  path h := h.path
  package path := hv.package path
  lookup {P P' name} hp hn := by
    have h := hp.decl name hn
    generalize P.decl? name = o at h ⊢
    generalize P'.decl? name = o' at h ⊢
    cases h with
    | none => exact .none
    | some h => exact .some h.head
  name h := h.name
  isAlias h := h.isAlias
  body {P P' name d d' s s' args args'} hp hn hd hd' ha := by
    have h := hp.decl name hn
    rw [hd, hd'] at h
    cases h with
    | some h => exact hv.ref h hp ha (List.subset_append_right _ _) h.type

theorem documented : v.correspondence.Documented := fun _ _ h => h.doc

theorem faithful (h : ∀ f : Field, f.bearsShape = true → ¬ v.free f) :
    v.correspondence.Faithful where
  doc := documented
  head hf := hf
  tracked hf := h _ hf

/-! ## Packages -/

theorem Decls.refl (P' : Package) {d : TypeDecl} (h : ∀ n ∈ d.typeNames, v.names n.name) :
    v.Decls P' d d :=
  ⟨.refl d, .refl d.type, h⟩

theorem Packages.of_decls (path : P.path = P'.path)
    (decls : List.Forall₂ (v.Decls P') P.decls P'.decls) : v.Packages P P' where
  path := path
  decl _ _ := find?_rel decls fun _ _ h => by rw [h.head.name]

theorem package_rel (h : List.Forall₂ v.Packages v.before.packages v.after.packages)
    (path : String) : Option.Rel v.Packages (v.before.package? path) (v.after.package? path) :=
  Program.package?_rel h (fun _ _ hP => hP.path) path

/-! ## Files -/

/-- A type inside a declaration of a file goes with its edited copy. -/
theorem Sound.typeRef (hv : v.Sound) (h : v.Decls P' d d') (hp : v.Packages P P')
    {F F' : SourceFile} {registry : Registry} {e e' : TypeExpr} (hn : e.typeNames ⊆ d.typeNames)
    (he : TypeExpr.Edit (v.exchanged P' d.params) v.free e e') :
    v.correspondence.Ref (FileContext.typeRef ⟨v.before, P, F, registry⟩ e d)
      (FileContext.typeRef ⟨v.after, P', F', registry⟩ e' d') :=
  hv.ref h hp .nil hn he

/-- A file whose declarations are edited goes with the original. -/
theorem Sound.files (hv : v.Sound) (hp : v.Packages P P') {F F' : SourceFile}
    (registry : Registry) (hfree : ∀ f, ¬ v.free f)
    (hfields : ∀ params e e', v.exchanged P' params e e' → e.fields = [] ∧ e'.fields = [])
    (path : F.path = F'.path) (decls : List.Forall₂ (v.Decls P') F.decls F'.decls) :
    v.correspondence.Files ⟨v.before, P, F, registry⟩ ⟨v.after, P', F', registry⟩ where
  left := rfl
  right := rfl
  registry := rfl
  path := path
  decls := decls.imp fun d d' h =>
    ⟨h.head, hv.typeRef h hp (List.subset_append_right _ _) h.type⟩
  fields := by
    rw [SourceFile.fields, SourceFile.fields]
    generalize F.decls = ds at decls ⊢
    generalize F'.decls = ds' at decls ⊢
    induction decls with
    | nil => exact .nil
    | @cons d d' ds ds' h _ ih =>
      rw [List.flatMap_cons, List.flatMap_cons]
      refine List.rel_append ?_ ih
      rw [List.forall₂_map_left_iff, List.forall₂_map_right_iff]
      have hedit := h.type.fields hfree (hfields d.params)
      refine List.forall₂_iff_zip.2 ⟨hedit.length_eq, fun {f f'} hq => ?_⟩
      have hff := List.forall₂_zip hedit hq
      have hn : f.type.typeNames ⊆ d.typeNames :=
        TypeDecl.typeNames_of_mem_fields (List.of_mem_zip hq).1
      exact ⟨hff.1, hv.typeRef h hp hn hff.2⟩

end Revision
end ApiConventions
