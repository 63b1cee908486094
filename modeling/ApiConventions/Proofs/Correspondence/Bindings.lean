import ApiConventions.Proofs.Correspondence.Basic
import ApiConventions.Proofs.Model.TypeExpr

/-!
# ApiConventions.Proofs.Correspondence.Bindings

Binding the parameters of one declaration to arguments that go together gives bindings that go
together, and an edited expression goes with the original under such bindings. With both, the
bodies of a declaration and of its edited copy go together.
-/

namespace ApiConventions

/-! ## The bound parameters -/

theorem lookup_bindParams {site : TypeRef} {package : Package} {bound : List (String × TypeRef)}
    {params : List TypeParam} {args : List TypeExpr} {name : String}
    (hb : bound.lookup name = none) (hn : name ∉ params.map (·.name)) :
    (bindParams site package bound params args).lookup name = none := by
  induction params generalizing bound args with
  | nil => rw [bindParams]; exact hb
  | cons p ps ih =>
    rw [List.map_cons, List.mem_cons, not_or] at hn
    obtain ⟨hp, hps⟩ := hn
    have hne : (name == p.name) = false := beq_false_of_ne hp
    cases args with
    | nil => rw [bindParams]; exact ih (by rw [List.lookup_cons, hne]; exact hb) hps
    | cons arg args => rw [bindParams]; exact ih (by rw [List.lookup_cons, hne]; exact hb) hps

theorem TypeDecl.lookup_instantiate {d : TypeDecl} {package : Package} {args : List TypeExpr}
    {site : TypeRef} {name : String} (h : name ∉ d.params.map (·.name)) :
    (d.instantiate package args site).lookup name = none :=
  lookup_bindParams rfl h

namespace Correspondence

variable {c : Correspondence}

/-- The same parameters, bound to references that go together. -/
def Bindings (c : Correspondence) (b b' : List (String × TypeRef)) : Prop :=
  List.Forall₂ (fun x x' => x.1 = x'.1 ∧ c.Ref x.2 x'.2) b b'

theorem Bindings.lookup {b b' : List (String × TypeRef)} (h : c.Bindings b b') (name : String) :
    Option.Rel c.Ref (b.lookup name) (b'.lookup name) :=
  lookup_rel h name

/-- Bindings in which parameters stand for themselves on both sides. -/
theorem Bindings.bindParams {site site' : TypeRef} {P P' : Package}
    {bound bound' : List (String × TypeRef)} {params : List TypeParam} {args args' : List TypeExpr}
    (hb : c.Bindings bound bound')
    (ha : List.Forall₂ c.Ref (args.map site.withExpr) (args'.map site'.withExpr))
    (hc : ∀ p ∈ params, ∀ b b', c.Bindings b b' →
      c.Ref ⟨p.constraint, P, b⟩ ⟨p.constraint, P', b'⟩) :
    c.Bindings (bindParams site P bound params args) (bindParams site' P' bound' params args') := by
  induction params generalizing bound bound' args args' with
  | nil => exact hb
  | cons p ps ih =>
    have hps : ∀ q ∈ ps, ∀ b b', c.Bindings b b' →
        c.Ref ⟨q.constraint, P, b⟩ ⟨q.constraint, P', b'⟩ :=
      fun q hq => hc q (List.mem_cons_of_mem _ hq)
    match args, args', ha with
    | [], [], _ =>
      exact ih (.cons ⟨rfl, hc p List.mem_cons_self _ _ hb⟩ hb) .nil hps
    | arg :: args, arg' :: args', .cons harg hargs =>
      exact ih (.cons ⟨rfl, harg⟩ hb) hargs hps

theorem forall₂_map_withExpr {R : TypeRef → TypeRef → Prop} {es es' : List TypeExpr}
    (t t' : TypeRef) (hl : es.length = es'.length)
    (h : ∀ q ∈ es.zip es', R (t.withExpr q.1) (t'.withExpr q.2)) :
    List.Forall₂ R (es.map t.withExpr) (es'.map t'.withExpr) := by
  rw [List.forall₂_map_left_iff, List.forall₂_map_right_iff]
  exact List.forall₂_iff_zip.2 ⟨hl, fun {e e'} hq => h (e, e') hq⟩

/-! ## Edited expressions -/

/-- The names of an expression are looked up, and bound to references that go together. -/
def NamesKnown (c : Correspondence) (b b' : List (String × TypeRef)) (e : TypeExpr) : Prop :=
  ∀ n ∈ e.typeNames, c.names n.name ∧
    (n.path = none → n.isApplied = false → Option.Rel c.Ref (b.lookup n.name) (b'.lookup n.name))

theorem NamesKnown.of_subset {b b' : List (String × TypeRef)} {e f : TypeExpr}
    (h : c.NamesKnown b b' e) (hs : f.typeNames ⊆ e.typeNames) : c.NamesKnown b b' f :=
  fun n hn => h n (hs hn)

theorem NamesKnown.of_bindings {b b' : List (String × TypeRef)} {e : TypeExpr}
    (hn : ∀ n ∈ e.typeNames, c.names n.name) (hb : c.Bindings b b') : c.NamesKnown b b' e :=
  fun n hmem => ⟨hn n hmem, fun _ _ => hb.lookup n.name⟩

/-- An edited expression goes with the original wherever its names are known. -/
theorem NamesKnown.ref {base : TypeExpr → TypeExpr → Prop} {free : Field → Prop} {P P' : Package}
    {b b' : List (String × TypeRef)} {e e' : TypeExpr} (hn : c.NamesKnown b b' e)
    (h : TypeExpr.Edit base free e e') (hp : c.packages P P')
    (hm : ∀ f f' : Field, f.SameHead f' → c.members f f') (ht : ∀ f, c.tracked f → ¬ free f)
    (hbase : ∀ e e', base e e' → c.Ref ⟨e, P, b⟩ ⟨e', P', b'⟩) :
    c.Ref ⟨e, P, b⟩ ⟨e', P', b'⟩ := by
  induction h with
  | base h => exact hbase _ _ h
  | @ident name path as as' count _ ih =>
    obtain ⟨known, param⟩ := hn ⟨name, path, !as.isEmpty⟩ List.mem_cons_self
    refine .name known hp ?_ fun hpath has => param hpath (by rw [has]; rfl)
    refine forall₂_map_withExpr ⟨.func, P, b⟩ ⟨.func, P', b'⟩ count fun q hq => ?_
    exact ih q hq (hn.of_subset
      (List.subset_cons_of_subset _ (typeNames_subset_typeNamesOf (List.of_mem_zip hq).1)))
  | pointer _ ih => exact .shape (.pointer (ih hn))
  | slice _ ih => exact .shape (.slice (ih hn))
  | array _ ih => exact .shape (.array (ih hn))
  | chan _ ih => exact .shape (.chan (ih hn))
  | map _ _ ihk ihv =>
    exact .shape (.map (ihk (hn.of_subset (List.subset_append_left _ _)))
      (ihv (hn.of_subset (List.subset_append_right _ _))))
  | @struct fs fs' heads _ ih =>
    refine .shape (.struct (heads.imp hm) fun q hq hq' => ?_)
    exact ih q hq (ht _ hq') (hn.of_subset (typeNames_subset_of_member (List.of_mem_zip hq).1))
  | @interface ts ts' count _ ih =>
    refine .shape (.interface ?_)
    refine forall₂_map_withExpr ⟨.func, P, b⟩ ⟨.func, P', b'⟩ count fun q hq => ?_
    exact ih q hq (hn.of_subset (typeNames_subset_typeNamesOf (List.of_mem_zip hq).1))
  | func => exact .shape .func

end Correspondence
end ApiConventions
