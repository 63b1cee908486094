import ApiConventions.Proofs.Correspondence.Amendment
import ApiConventions.Proofs.Correspondence.Bindings
import ApiConventions.Proofs.Model.Hole
import ApiConventions.Proofs.Resolution.Unfolding

/-!
# ApiConventions.Proofs.Correspondence.Annotation

Other comments in one declaration, on the declaration itself or on one of its members. Comments
play no part in resolution, so the program goes with the annotated one in lockstep.
-/

namespace ApiConventions

/-- Structs that differ in one of the members that may differ. -/
def OneMember (members : Field → Field → Prop) (e e' : TypeExpr) : Prop :=
  ∃ us f f' vs, members f f' ∧ e = .struct (us ++ f :: vs) ∧ e' = .struct (us ++ f' :: vs)

/-- A declaration of a program, before and after comments are changed. -/
structure Annotation where
  site : DeclSite
  before : TypeDecl
  after : TypeDecl
  /-- The members of which comments are changed. -/
  members : Field → Field → Prop
  name : before.name = after.name
  pos : before.pos = after.pos
  isAlias : before.isAlias = after.isAlias
  params : before.params = after.params
  uncommented {f f' : Field} : members f f' → f' = { f with doc := f'.doc }
  type : TypeExpr.Edit (OneMember members) (fun _ => False) before.type after.type

namespace Annotation

variable (a : Annotation)

def correspondence : Correspondence where
  left := a.site.program [a.before]
  right := a.site.program [a.after]
  packages P P' := P = P' ∨ P = a.site.package [a.before] ∧ P' = a.site.package [a.after]
  decls d d' := d = d' ∨ d = a.before ∧ d' = a.after
  members f f' := f.SameHead f' ∨ a.members f f'
  tracked _ := True
  names _ := True
  detours := False

variable {a} {P P' : Package} {b b' : List (String × TypeRef)} {d d' : TypeDecl}

/-- Expressions that are the same up to comments go together in scopes that go together. -/
theorem ref {e e' : TypeExpr} (he : TypeExpr.Edit (OneMember a.members) (fun _ => False) e e')
    (hp : a.correspondence.packages P P') (hb : a.correspondence.Bindings b b') :
    a.correspondence.Ref ⟨e, P, b⟩ ⟨e', P', b'⟩ := by
  have known (e : TypeExpr) : a.correspondence.NamesKnown b b' e :=
    .of_bindings (fun _ _ => trivial) hb
  have same (e : TypeExpr) : a.correspondence.Ref ⟨e, P, b⟩ ⟨e, P', b'⟩ := by
    refine (known e).ref (.refl e : TypeExpr.Edit (fun _ _ => False) (fun _ => False) _ _) hp ?_ ?_ ?_
    · exact fun _ _ head => .inl head
    · exact fun _ _ hff => hff
    · exact fun _ _ hff => hff.elim
  refine (known e).ref he hp (fun _ _ head => .inl head) (fun _ _ hff => hff) ?_
  rintro _ _ ⟨us, f, f', vs, hff, rfl, rfl⟩
  refine .shape (.struct (forall₂_append_cons (fun g _ => .inl (.refl g)) (.inr hff)) ?_)
  intro q hq _
  rcases mem_zip_append_cons hq with heq | rfl
  · rw [heq]
    exact same _
  · have uncommented := a.uncommented hff
    have htype : f'.type = f.type := by rw [uncommented]
    show a.correspondence.Ref ⟨f.type, P, b⟩ ⟨f'.type, P', b'⟩
    rw [htype]
    exact same _

theorem declared (a : Annotation) : a.correspondence.decls a.before a.after := .inr ⟨rfl, rfl⟩

theorem decls_params (h : a.correspondence.decls d d') : d.params = d'.params := by
  rcases h with rfl | ⟨rfl, rfl⟩
  · rfl
  · exact a.params

theorem decls_type (h : a.correspondence.decls d d') :
    TypeExpr.Edit (OneMember a.members) (fun _ => False) d.type d'.type := by
  rcases h with rfl | ⟨rfl, rfl⟩
  · exact .refl _
  · exact a.type

theorem bindings (h : a.correspondence.decls d d') (hp : a.correspondence.packages P P')
    {s s' : TypeRef} {args args' : List TypeExpr}
    (ha : List.Forall₂ a.correspondence.Ref (args.map s.withExpr) (args'.map s'.withExpr)) :
    a.correspondence.Bindings (d.instantiate P args s) (d'.instantiate P' args' s') := by
  rw [TypeDecl.instantiate, TypeDecl.instantiate, ← decls_params h]
  exact Correspondence.Bindings.bindParams .nil ha fun q _ b b' hb => ref (.refl _) hp hb

theorem packages_path (h : a.correspondence.packages P P') : P.path = P'.path := by
  rcases h with rfl | ⟨rfl, rfl⟩ <;> rfl

theorem package_rel (path : String) : Option.Rel a.correspondence.packages
    (a.correspondence.left.package? path) (a.correspondence.right.package? path) := by
  have each : List.Forall₂ a.correspondence.packages a.correspondence.left.packages
      a.correspondence.right.packages :=
    forall₂_append_cons (fun _ _ => Or.inl rfl) (Or.inr ⟨rfl, rfl⟩)
  exact Program.package?_rel each (fun _ _ hP => packages_path hP) path

theorem decls_name (h : a.correspondence.decls d d') : d.name = d'.name := by
  rcases h with rfl | ⟨rfl, rfl⟩
  · rfl
  · exact a.name

theorem decl?_rel (h : a.correspondence.packages P P') (name : String) :
    Option.Rel a.correspondence.decls (P.decl? name) (P'.decl? name) := by
  have each : List.Forall₂ a.correspondence.decls P.decls P'.decls := by
    rcases h with rfl | ⟨rfl, rfl⟩
    · exact List.forall₂_same.2 fun _ _ => .inl rfl
    · rw [DeclSite.decls_eq, DeclSite.decls_eq, ← List.append_cons, ← List.append_cons]
      exact forall₂_append_cons (fun _ _ => .inl rfl) (.inr ⟨rfl, rfl⟩)
  exact find?_rel each fun _ _ hd => by rw [decls_name hd]

theorem lawful : a.correspondence.Lawful where
  path := packages_path
  package := package_rel
  lookup hp _ := decl?_rel hp _
  name := decls_name
  isAlias h := by
    rcases h with rfl | ⟨rfl, rfl⟩
    · rfl
    · exact a.isAlias
  body {P P' name d d' s s' args args'} hp _ hd hd' ha := by
    have h := decl?_rel hp name
    rw [hd, hd'] at h
    cases h with
    | some h => exact ref (decls_type h) hp (bindings h hp ha)

def leftContext (a : Annotation) (registry : Registry) : FileContext :=
  a.site.context registry [a.before]

def rightContext (a : Annotation) (registry : Registry) : FileContext :=
  a.site.context registry [a.after]

theorem typeRef (registry : Registry) (h : a.correspondence.decls d d') {e e' : TypeExpr}
    (he : TypeExpr.Edit (OneMember a.members) (fun _ => False) e e') : a.correspondence.Ref
      ((a.leftContext registry).typeRef e d) ((a.rightContext registry).typeRef e' d') := by
  have packages : a.correspondence.packages (a.site.package [a.before]) (a.site.package [a.after]) :=
    .inr ⟨rfl, rfl⟩
  exact ref he packages (bindings h packages .nil)

/-- Comments on members matter for the shape of a struct only where they mark a requirement. -/
theorem shaped {registry : Registry} (h : ∀ f f', a.members f f' →
    (registry.parse f.doc).hasAny MarkerName.requiredFamily =
      (registry.parse f'.doc).hasAny MarkerName.requiredFamily) :
    a.correspondence.Shaped registry where
  tag hm := by
    rcases hm with hm | hm
    · exact hm.sameTag
    · rw [a.uncommented hm]
      exact ⟨rfl, rfl, rfl⟩
  required hm := by
    rcases hm with hm | hm
    · rw [hm.doc]
    · exact h _ _ hm
  tracked _ := trivial

/-! ## Layers -/

theorem amends_of_doc {registry : Registry} (m : Marker) (hdoc : a.before.doc = a.after.doc)
    (required : ∀ f f', a.members f f' →
      (registry.parse f.doc).hasAny MarkerName.requiredFamily =
        (registry.parse f'.doc).hasAny MarkerName.requiredFamily) :
    a.correspondence.Amends registry m where
  lawful := lawful
  lockstep hd := hd
  shaped := shaped required
  layers {t t'} h := by
    have documented : a.correspondence.Documented := by
      rintro d d' (rfl | ⟨rfl, rfl⟩)
      · rfl
      · exact hdoc
    have types : a.correspondence.Types (a.correspondence.left.resolve t)
        (a.correspondence.right.resolve t') := h.resolve lawful fun hd => hd.elim
    rw [types.toResolutions.typeLayers documented]
    exact .refl m _

section Append

variable {registry : Registry} {m : Marker}
  (hdoc : registry.parse a.after.doc = registry.parse a.before.doc ++ [m])
  (params : a.before.params = [])
  (undecided : Layers.winner? (registry.parse a.before.doc ::
    Extractor.typeLayers ⟨a.correspondence.left, registry⟩ (a.correspondence.left.resolve
      ((a.leftContext registry).declType a.before))) m.identifier = none)

include params undecided in
theorem undecided_within {n : Nat} (hn : n ≤ maxSteps) : Layers.winner? (registry.parse a.before.doc ::
    Extractor.typeLayers ⟨a.correspondence.left, registry⟩ (a.correspondence.left.resolveWithin n
      ⟨a.before.type, a.site.package [a.before], []⟩)) m.identifier = none := by
  have body : (a.leftContext registry).declType a.before =
      ⟨a.before.type, a.site.package [a.before], []⟩ := by
    rw [FileContext.declType, FileContext.typeRef, TypeDecl.scopeBindings, TypeDecl.instantiate,
      params]
    rfl
  rw [body, Layers.winner?_cons, Option.or_eq_none_iff] at undecided
  rw [Layers.winner?_cons, undecided.1, Option.none_or]
  -- With fewer steps, the resolution crosses only the first of the declarations.
  have chain := Program.chain_prefix_of_le hn a.correspondence.left
    ⟨a.before.type, a.site.package [a.before], []⟩
  have layers := (chain.filterMap (·.decl)).map fun d => registry.parse d.doc
  exact layers.findSome?_eq_none undecided.2

include hdoc params undecided in
theorem extends_decl {n : Nat} (hn : n ≤ maxSteps) {t t' u u' : TypeRef}
    (left : a.correspondence.left.referent? t = some (.decl P d u))
    (right : a.correspondence.right.referent? t' = some (.decl P' d' u'))
    (hp : a.correspondence.packages P P') (hd : a.correspondence.decls d d')
    (rest : Layers.Extends m
      (Extractor.typeLayers ⟨a.correspondence.left, registry⟩
        (a.correspondence.left.resolveWithin n u))
      (Extractor.typeLayers ⟨a.correspondence.right, registry⟩
        (a.correspondence.right.resolveWithin n u'))) :
    Layers.Extends m
      (registry.parse d.doc :: Extractor.typeLayers ⟨a.correspondence.left, registry⟩
        (a.correspondence.left.resolveWithin n u))
      (registry.parse d'.doc :: Extractor.typeLayers ⟨a.correspondence.right, registry⟩
        (a.correspondence.right.resolveWithin n u')) := by
  rcases hd with rfl | ⟨rfl, rfl⟩
  · exact rest.cons (registry.parse d.doc)
  · cases Program.refers_of_referent left with
    | decl declared args =>
      cases Program.refers_of_referent right with
      | decl declared' args' =>
        rcases hp with rfl | ⟨rfl, rfl⟩
        · -- In one package, declarations of one name are the same.
          rw [a.name, declared'] at declared
          have same : a.after = a.before := Option.some.inj declared
          rw [same] at rest ⊢
          exact rest.cons (registry.parse a.before.doc)
        · -- The marker is added in front of layers in which nothing decides on it.
          have within := undecided_within params undecided hn
          rw [TypeDecl.instantiate, params] at rest ⊢
          rw [hdoc]
          exact rest.append within

include hdoc params undecided in
/-- By induction on the steps: the marker decides where nothing did, and nothing else changes. -/
theorem extends_within {n : Nat} (hn : n ≤ maxSteps) {t t' : TypeRef}
    (h : a.correspondence.Ref t t') : Layers.Extends m
      (Extractor.typeLayers ⟨a.correspondence.left, registry⟩
        (a.correspondence.left.resolveWithin n t))
      (Extractor.typeLayers ⟨a.correspondence.right, registry⟩
        (a.correspondence.right.resolveWithin n t')) := by
  induction n generalizing t t' with
  | zero => exact .refl m []
  | succ n ih =>
    have hn := Nat.le_of_succ_le hn
    have alike := h.alike lawful fun hd => hd
    have steps := alike.step lawful
    rw [Program.resolveWithin, Program.resolveWithin]
    generalize hs : a.correspondence.left.step t = step at steps ⊢
    generalize hs' : a.correspondence.right.step t' = step' at steps ⊢
    cases steps with
    | pointer hu => exact ih hn hu
    | transparent hu => exact ih hn hu
    | @defined l l' u u' hl hu =>
      obtain ⟨P, d, left, link⟩ := Program.referent_of_step_defined hs
      obtain ⟨P', d', right, link'⟩ := Program.referent_of_step_defined hs'
      have referents := alike.referents
      rw [left, right] at referents
      cases referents with
      | some referents =>
        cases referents with
        | decl hp hd _ =>
          have extended := extends_decl hdoc params undecided hn left right hp hd (ih hn hu)
          simpa only [Extractor.typeLayers, Resolved.decls, List.filterMap_cons, link, link',
            List.map_cons] using extended
    | @final k l l' hl =>
      cases hl with
      | none => exact .refl m []
      | some hl =>
        simp only [Extractor.typeLayers, Resolved.decls, Option.toList_some,
          List.filterMap_cons, Program.decl_of_step_final hs, Program.decl_of_step_final hs']
        exact .refl m []

include hdoc params undecided in
theorem amends_of_append (required : ∀ f f', a.members f f' →
      (registry.parse f.doc).hasAny MarkerName.requiredFamily =
        (registry.parse f'.doc).hasAny MarkerName.requiredFamily) :
    a.correspondence.Amends registry m where
  lawful := lawful
  lockstep hd := hd
  shaped := shaped required
  layers h := extends_within hdoc params undecided (Nat.le_refl maxSteps) h

end Append

end Annotation
end ApiConventions
