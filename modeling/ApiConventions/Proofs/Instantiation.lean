import ApiConventions.Proofs.Correspondence.Bindings
import ApiConventions.Proofs.Correspondence.Resolution
import ApiConventions.Proofs.Model.Substitution
import ApiConventions.Proofs.Resolution.Unfolding

/-!
# ApiConventions.Proofs.Instantiation

Generic types. Resolution binds the parameters of a declaration and looks through them one by one;
writing the declaration out for its arguments needs no parameters at all. Both give the same type.

The two are related by a correspondence of the program with itself, in which the right side may
stand behind bound parameters. Every use of a parameter is one detour, so the left side, where
parameters are replaced, takes no more steps than the right one.
-/

namespace ApiConventions

/-! ## Types that resolve alike -/

/-- The parts of two resolved types: the elements, the keys and values, and the members. -/
structure Resolved.Parts (R : TypeRef → TypeRef → Prop) (r r' : Resolved) : Prop where
  elem : Option.Rel R r.elem? r'.elem?
  mapParts : Option.Rel (fun q q' => R q.1 q'.1 ∧ R q.2 q'.2) r.mapParts? r'.mapParts?
  members : List.Forall₂
    (fun f f' => f = f'.withType f.type ∧ R (r.memberType f) (r'.memberType f'))
    r.members r'.members

/--
Unless the second reference meets the step limit, the first one does not meet it either, and gives
the same type, down to a depth of parts within parts.
-/
def Program.ResolvesLike (p : Program) : Nat → TypeRef → TypeRef → Prop
  | 0, _, _ => True
  | depth + 1, t, t' => p.endsWithin maxSteps t' = true →
      p.endsWithin maxSteps t = true ∧
      (p.resolve t).kind = (p.resolve t').kind ∧
      (p.resolve t).pointerDepth = (p.resolve t').pointerDepth ∧
      (p.resolve t).chain = (p.resolve t').chain ∧
      (p.resolve t).Parts (p.ResolvesLike depth) (p.resolve t')

namespace TypeDecl

/-- The declared type, applied to arguments in its own package. -/
def applied (d : TypeDecl) (args : List TypeExpr) : TypeExpr :=
  .ident d.name none args

/-- What the declared type adds to a chain. -/
def links (d : TypeDecl) (P : Package) : List Link :=
  if d.isAlias then [] else [{ package := P.path, name := d.name, decl := some d }]

end TypeDecl

namespace Correspondence

/-- A program with itself, where the right side may stand behind bound parameters. -/
def self (p : Program) : Correspondence where
  left := p
  right := p
  packages := Eq
  decls := Eq
  members f f' := f = f'.withType f.type
  tracked _ := True
  names _ := True
  detours := True

variable {p : Program} {P : Package} {t t' : TypeRef}

theorem self_members {f f' : Field} (h : f.SameHead f') : (self p).members f f' := by
  cases f
  cases f'
  obtain ⟨rfl, rfl, rfl, rfl, -⟩ := h
  rfl

theorem self_ref {b b' : List (String × TypeRef)} (hb : (self p).Bindings b b') (e : TypeExpr) :
    (self p).Ref ⟨e, P, b⟩ ⟨e, P, b'⟩ := by
  have known : (self p).NamesKnown b b' e := .of_bindings (fun _ _ => trivial) hb
  exact known.ref (.refl e : TypeExpr.Edit (fun _ _ => False) (fun _ => False) e e) rfl
    (fun _ _ => self_members) (fun _ _ hf => hf) fun _ _ hf => hf.elim

theorem self_lawful (p : Program) : (self p).Lawful where
  path h := congrArg Package.path h
  package _ := option_rel_refl _
  lookup {P P' name} hp _ := by
    cases hp
    exact option_rel_refl _
  name h := congrArg TypeDecl.name h
  isAlias h := congrArg TypeDecl.isAlias h
  body {P P' name d d' s s' args args'} hp _ hd hd' ha := by
    cases hp
    rw [hd] at hd'
    cases hd'
    exact self_ref (Bindings.bindParams .nil ha fun q _ _ _ hb => self_ref hb q.constraint) d.type

/-! ## Replaced parameters -/

/-- The replacements of parameters, written in `P`, go with what the parameters are bound to. -/
def Replaced (p : Program) (P : Package) (σ : List (String × TypeExpr))
    (b : List (String × TypeRef)) : Prop :=
  List.Forall₂ (fun x y => x.1 = y.1 ∧ (self p).Ref (.closed x.2 P) y.2) σ b

variable {σ : List (String × TypeExpr)} {b : List (String × TypeRef)}

theorem Replaced.lookup (h : Replaced p P σ b) (name : String) :
    Option.Rel (fun e u => (self p).Ref (.closed e P) u) (σ.lookup name) (b.lookup name) :=
  lookup_rel (R := fun e u => (self p).Ref (.closed e P) u) h name

theorem lookThrough_param {name : String} {u : TypeRef} (h : b.lookup name = some u) :
    p.lookThrough? ⟨.ident name none [], P, b⟩ = some u := by
  have hr : p.referent? ⟨.ident name none [], P, b⟩ = some (.param u) := by
    simp only [Program.referent?, Program.unqualified, List.isEmpty_nil, if_true, h]
  rw [Program.lookThrough?, hr]

/-- With the parameters replaced, an expression goes with the original under their bindings. -/
theorem Replaced.ref (h : Replaced p P σ b) (e : TypeExpr) :
    (self p).Ref (.closed (e.subst σ) P) ⟨e, P, b⟩ := by
  have each : ∀ es : List TypeExpr,
      (∀ e ∈ es, (self p).Ref (.closed (e.subst σ) P) ⟨e, P, b⟩) →
      List.Forall₂ (self p).Ref ((es.map (·.subst σ)).map (⟨·, P, []⟩)) (es.map (⟨·, P, b⟩)) := by
    intro es hes
    rw [List.map_map, List.forall₂_map_left_iff, List.forall₂_map_right_iff]
    exact List.forall₂_same.2 hes
  induction e with
  | ident name path args ih =>
    rcases option_rel_cases (h.lookup name) with ⟨hσ, hb⟩ | ⟨e, u, hσ, hu, hr⟩
    · rw [TypeExpr.subst_ident fun _ _ => hσ]
      refine .name trivial rfl (each args ih) fun _ _ => ?_
      rw [hb]
      exact .none
    · -- The name of a parameter is one only without package and arguments.
      by_cases hplain : path = none ∧ args = []
      · obtain ⟨rfl, rfl⟩ := hplain
        rw [TypeExpr.subst_param hσ]
        exact .detour trivial (lookThrough_param hu) hr
      · rw [TypeExpr.subst_ident fun hpath hargs => absurd ⟨hpath, hargs⟩ hplain]
        refine .name trivial rfl (each args ih) fun hpath hargs => ?_
        exact absurd ⟨hpath, List.map_eq_nil_iff.1 hargs⟩ hplain
  | pointer e ih => exact .shape (.pointer ih)
  | slice e ih => exact .shape (.slice ih)
  | array n e ih => exact .shape (.array ih)
  | chan e ih => exact .shape (.chan ih)
  | map k v ihk ihv => exact .shape (.map ihk ihv)
  | struct fs ih =>
    rw [TypeExpr.subst, substMembers_eq]
    refine .shape (.struct ?_ fun q hq _ => ?_)
    · rw [List.forall₂_map_left_iff]
      exact List.forall₂_same.2 fun _ _ => rfl
    · rw [List.zip_map_left, List.mem_map] at hq
      obtain ⟨r, hr, rfl⟩ := hq
      obtain ⟨heq, hmem⟩ := TypeExpr.mem_zip_self hr
      have hi := ih r.1 hmem
      rw [heq] at hi
      simp only [Prod.map, heq]
      exact hi
  | interface ts ih =>
    rw [TypeExpr.subst, substEach_eq]
    exact .shape (.interface (each ts ih))
  | func => exact .shape .func

theorem Replaced.params (h : Replaced p P σ b) (e : TypeExpr) (params : List TypeParam)
    (args : List TypeExpr) :
    Replaced p P (replaceParams σ params args) (bindParams (.closed e P) P b params args) := by
  induction params generalizing σ b args with
  | nil =>
    rw [replaceParams, bindParams]
    exact h
  | cons q qs ih =>
    cases args with
    | nil =>
      rw [replaceParams, bindParams]
      exact ih (.cons ⟨rfl, h.ref q.constraint⟩ h) []
    | cons arg args =>
      rw [replaceParams, bindParams]
      exact ih (.cons ⟨rfl, self_ref .nil arg⟩ h) args

/-- A declaration written out goes with its right-hand side under the bindings of its parameters. -/
theorem expand_ref (p : Program) (P : Package) (d : TypeDecl) (args : List TypeExpr)
    (e : TypeExpr) : (self p).Ref (.closed (d.expand args) P) ⟨d.type, P, d.instantiate P args (.closed e P)⟩ :=
  Replaced.ref (Replaced.params .nil e d.params args) d.type

/-! ## The answers -/

theorem Links.eq_of_self {l l' : Link} (h : (self p).Links l l') : l = l' := by
  cases l with
  | mk package name decl =>
    cases l' with
    | mk package' name' decl' =>
      obtain ⟨rfl, rfl, hd⟩ := h
      cases hd with
      | none => rfl
      | some hd => cases hd; rfl

theorem Resolutions.chain_eq {r r' : Resolved} (h : (self p).Resolutions r r') :
    r.chain = r'.chain := by
  have hl := h.chain.imp fun _ _ => Links.eq_of_self
  rw [List.forall₂_eq_eq_eq] at hl
  exact hl

theorem Resolutions.parts {R : TypeRef → TypeRef → Prop} {r r' : Resolved}
    (h : (self p).Resolutions r r') (hR : ∀ t t', (self p).Ref t t' → R t t') : r.Parts R r' where
  elem := option_rel_mono h.elem hR
  mapParts := option_rel_mono h.mapParts fun _ _ hq => ⟨hR _ _ hq.1, hR _ _ hq.2⟩
  members := h.members.imp fun _ _ hf => ⟨hf.1, hR _ _ (hf.2 trivial)⟩

/-- What goes together in a program and itself resolves alike, at every depth. -/
theorem Ref.resolvesLike (h : (self p).Ref t t') (depth : Nat) : p.ResolvesLike depth t t' := by
  induction depth generalizing t t' with
  | zero => trivial
  | succ depth ih =>
    intro ends
    have hr := h.resolveWithin (self_lawful p) fun _ => ends
    exact ⟨h.endsWithin (self_lawful p) ends, hr.kind, hr.pointerDepth, hr.chain_eq,
      hr.parts fun _ _ => ih⟩

end Correspondence

/-! ## Applied types -/

namespace TypeDecl

variable {p : Program} {P : Package} {d : TypeDecl} {args : List TypeExpr}

def body (d : TypeDecl) (P : Package) (args : List TypeExpr) : TypeRef :=
  ⟨d.type, P, d.instantiate P args (.closed (d.applied args) P)⟩

theorem step_applied (declared : P.decl? d.name = some d) :
    p.step (.closed (d.applied args) P) =
      if d.isAlias then .transparent (d.body P args)
      else .defined (d.link P) (d.body P args) := by
  have denotes : p.Denotes (.closed (d.applied args) P) P d args :=
    .own rfl (fun _ => rfl) declared
  exact denotes.step

theorem endsWithin_applied (declared : P.decl? d.name = some d) (n : Nat) :
    p.endsWithin (n + 1) (.closed (d.applied args) P) = p.endsWithin n (d.body P args) := by
  rw [Program.endsWithin, step_applied declared]
  by_cases ha : d.isAlias
  · simp [ha]
  · simp [ha]

theorem resolveWithin_applied (declared : P.decl? d.name = some d) (n : Nat) :
    p.resolveWithin (n + 1) (.closed (d.applied args) P) =
      { p.resolveWithin n (d.body P args) with
        chain := d.links P ++ (p.resolveWithin n (d.body P args)).chain } := by
  rw [Program.resolveWithin, step_applied declared, links]
  by_cases ha : d.isAlias
  · simp [ha]
  · simp [ha, link]

/--
Applying a type is writing its declaration out. Unless the applied type meets the step limit, the
written-out one does not meet it either and resolves to the same kind behind as many pointers,
through the same named types after the declared one, and with the same parts at every depth.
-/
theorem resolve_expand (declared : P.decl? d.name = some d)
    (ends : p.endsWithin maxSteps (.closed (d.applied args) P) = true) :
    p.endsWithin maxSteps (.closed (d.expand args) P) = true ∧
      (p.resolve (.closed (d.expand args) P)).kind =
        (p.resolve (.closed (d.applied args) P)).kind ∧
      (p.resolve (.closed (d.expand args) P)).pointerDepth =
        (p.resolve (.closed (d.applied args) P)).pointerDepth ∧
      d.links P ++ (p.resolve (.closed (d.expand args) P)).chain =
        (p.resolve (.closed (d.applied args) P)).chain ∧
      ∀ depth, (p.resolve (.closed (d.expand args) P)).Parts (p.ResolvesLike depth)
        (p.resolve (.closed (d.applied args) P)) := by
  have hc := Correspondence.self_lawful p
  have href := Correspondence.expand_ref p P d args (d.applied args)
  -- The name takes one of the steps, and the right-hand side the others.
  have hsteps : maxSteps = 63 + 1 := rfl
  rw [hsteps, endsWithin_applied declared] at ends
  have hends : p.endsWithin 63 (.closed (d.expand args) P) = true := href.endsWithin hc ends
  have hr := href.resolveWithin hc fun _ => ends
  have hexpand : p.resolve (.closed (d.expand args) P) =
      p.resolveWithin 63 (.closed (d.expand args) P) := by
    rw [Program.resolve, hsteps, Program.resolveWithin_succ hends]
  have happlied : p.resolve (.closed (d.applied args) P) =
      { p.resolveWithin 63 (d.body P args) with
        chain := d.links P ++ (p.resolveWithin 63 (d.body P args)).chain } := by
    rw [Program.resolve, hsteps, resolveWithin_applied declared]
  rw [hexpand, happlied]
  refine ⟨Program.endsWithin_succ hends, hr.kind, hr.pointerDepth, ?_, fun depth => ?_⟩
  · exact congrArg (d.links P ++ ·) hr.chain_eq
  · have hparts := hr.parts fun _ _ h => h.resolvesLike depth
    exact ⟨hparts.elem, hparts.mapParts, hparts.members⟩

/-- Pairs of which the second parameter, unless it is given, is a slice of the first. -/
def pair : TypeDecl where
  name := "Pair"
  pos := { line := 3, column := 6 }
  doc := []
  isAlias := false
  params := [⟨"Name", .ident "comparable" none []⟩,
    ⟨"V", .interface [.slice (.ident "Name" none [])]⟩]
  type := .struct
    [{ name := some "Entries"
       pos := { line := 4, column := 2 }
       doc := []
       type := .map (.ident "Name" none []) (.ident "V" none [])
       tag := none },
     { name := some "Next"
       pos := { line := 5, column := 2 }
       doc := []
       type := .pointer (.ident "Pair" none [.ident "Name" none [], .ident "V" none []])
       tag := none }]

/-- A type with the name of a parameter. -/
def pairName : TypeDecl where
  name := "Name"
  pos := { line := 8, column := 6 }
  doc := []
  isAlias := false
  params := []
  type := .ident "string" none []

def pairPackage : Package :=
  ⟨"example.com/api", "api", [⟨"api/pair.go", [pair, pairName]⟩]⟩

theorem resolve_expand_pair_name :
    (pairPackage.decl? pair.name = some pair ∧
      (Program.mk [pairPackage]).endsWithin maxSteps
        (.closed (pair.applied [.ident "Name" none []]) pairPackage) = true) ∧
      pair.links pairPackage ++ ((Program.mk [pairPackage]).resolve
          (.closed (pair.expand [.ident "Name" none []]) pairPackage)).chain =
        ((Program.mk [pairPackage]).resolve
          (.closed (pair.applied [.ident "Name" none []]) pairPackage)).chain ∧
      ∀ depth, ((Program.mk [pairPackage]).resolve
          (.closed (pair.expand [.ident "Name" none []]) pairPackage)).Parts
        ((Program.mk [pairPackage]).ResolvesLike depth)
        ((Program.mk [pairPackage]).resolve
          (.closed (pair.applied [.ident "Name" none []]) pairPackage)) := by
  have declared : pairPackage.decl? pair.name = some pair := rfl
  have ends : (Program.mk [pairPackage]).endsWithin maxSteps
      (.closed (pair.applied [.ident "Name" none []]) pairPackage) = true := by decide +kernel
  obtain ⟨-, -, -, hchain, hparts⟩ := resolve_expand declared ends
  exact ⟨⟨declared, ends⟩, hchain, hparts⟩

end TypeDecl
end ApiConventions
