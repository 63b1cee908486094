import ApiConventions.Proofs.Model.TypeExpr

/-!
# ApiConventions.Proofs.Model.Substitution

Type parameters replaced by type expressions. A parameter is an unqualified name without
arguments; the same name with arguments, or qualified by a package, is never one.

`TypeDecl.expand` writes out a declaration for given arguments. A parameter without an argument is
replaced by its constraint, in which the parameters before it are replaced already. Arguments
without a parameter are dropped, and of two parameters with one name the later one counts.
-/

namespace ApiConventions

mutual
/-- All replacements at once, in arguments, members and terms as well. -/
def TypeExpr.subst (σ : List (String × TypeExpr)) : TypeExpr → TypeExpr
  | .ident name path args =>
    if path.isNone && args.isEmpty then (σ.lookup name).getD (.ident name path args)
    else .ident name path (substEach σ args)
  | .pointer elem => .pointer (elem.subst σ)
  | .slice elem => .slice (elem.subst σ)
  | .array length elem => .array length (elem.subst σ)
  | .map key value => .map (key.subst σ) (value.subst σ)
  | .struct members => .struct (substMembers σ members)
  | .interface terms => .interface (substEach σ terms)
  | .func => .func
  | .chan elem => .chan (elem.subst σ)

def substEach (σ : List (String × TypeExpr)) : List TypeExpr → List TypeExpr
  | [] => []
  | type :: rest => type.subst σ :: substEach σ rest

def substMembers (σ : List (String × TypeExpr)) : List Field → List Field
  | [] => []
  | ⟨name, pos, doc, type, tag⟩ :: rest =>
    ⟨name, pos, doc, type.subst σ, tag⟩ :: substMembers σ rest
end

/-- What the parameters are replaced by, from the left, beyond the replacements in `σ`. -/
def replaceParams (σ : List (String × TypeExpr)) :
    List TypeParam → List TypeExpr → List (String × TypeExpr)
  | [], _ => σ
  | p :: ps, arg :: args => replaceParams ((p.name, arg) :: σ) ps args
  | p :: ps, [] => replaceParams ((p.name, p.constraint.subst σ) :: σ) ps []

namespace TypeDecl

def replacements (d : TypeDecl) (args : List TypeExpr) : List (String × TypeExpr) :=
  replaceParams [] d.params args

/-- The right-hand side of a declaration, written out for its arguments. -/
def expand (d : TypeDecl) (args : List TypeExpr) : TypeExpr :=
  d.type.subst (d.replacements args)

end TypeDecl

theorem substEach_eq (σ : List (String × TypeExpr)) (ts : List TypeExpr) :
    substEach σ ts = ts.map (·.subst σ) := by
  induction ts with
  | nil => rfl
  | cons t ts ih => rw [substEach, ih, List.map_cons]

theorem substMembers_eq (σ : List (String × TypeExpr)) (fs : List Field) :
    substMembers σ fs = fs.map fun f => f.withType (f.type.subst σ) := by
  induction fs with
  | nil => rfl
  | cons f fs ih =>
    cases f
    rw [substMembers, ih, List.map_cons]
    rfl

/-- A name without replacement stays; its arguments may have replacements. -/
theorem TypeExpr.subst_ident {σ : List (String × TypeExpr)} {name : String} {path : Option String}
    {args : List TypeExpr} (h : path = none → args = [] → σ.lookup name = none) :
    (TypeExpr.ident name path args).subst σ = .ident name path (args.map (·.subst σ)) := by
  rw [TypeExpr.subst, substEach_eq]
  cases path with
  | some path => rfl
  | none =>
    cases args with
    | cons a as => rfl
    | nil =>
      rw [h rfl rfl]
      rfl

theorem TypeExpr.subst_param {σ : List (String × TypeExpr)} {name : String} {e : TypeExpr}
    (h : σ.lookup name = some e) : (TypeExpr.ident name none []).subst σ = e := by
  rw [TypeExpr.subst, h]
  rfl

/-! ## One replacement for each parameter -/

theorem replaceParams_cons (σ : List (String × TypeExpr)) (p : TypeParam) (ps : List TypeParam)
    (args : List TypeExpr) : replaceParams σ (p :: ps) args =
      replaceParams
        ((p.name, args.head?.getD (p.constraint.subst σ)) :: σ) ps args.tail := by
  cases args with
  | nil => rfl
  | cons arg args => rfl

theorem lookup_replaceParams_of_notMem {σ : List (String × TypeExpr)} {params : List TypeParam}
    {args : List TypeExpr} {name : String} (h : name ∉ params.map (·.name)) :
    (replaceParams σ params args).lookup name = σ.lookup name := by
  induction params generalizing σ args with
  | nil => rw [replaceParams]
  | cons p ps ih =>
    rw [List.map_cons, List.mem_cons, not_or] at h
    have hne : (name == p.name) = false := beq_false_of_ne h.1
    rw [replaceParams_cons, ih h.2, List.lookup_cons, hne]

theorem lookup_replaceParams {σ : List (String × TypeExpr)} {before after : List TypeParam}
    {q : TypeParam} {args : List TypeExpr}
    (distinct : ((before ++ q :: after).map (·.name)).Nodup) :
    (replaceParams σ (before ++ q :: after) args).lookup q.name =
      some (args[before.length]?.getD
        (q.constraint.subst (replaceParams σ before args))) := by
  induction before generalizing σ args with
  | nil =>
    rw [List.nil_append, List.map_cons, List.nodup_cons] at distinct
    rw [List.nil_append, replaceParams_cons, lookup_replaceParams_of_notMem distinct.1,
      List.lookup_cons_self, replaceParams, List.head?_eq_getElem?]
    rfl
  | cons p ps ih =>
    have rest := (List.nodup_cons.1 distinct).2
    rw [List.cons_append, replaceParams_cons, ih rest, replaceParams_cons σ p ps, List.length_cons,
      List.getElem?_tail]

/--
With distinct names, a parameter is replaced by the argument in its place, or by its constraint
with the parameters before it replaced.
-/
theorem TypeDecl.lookup_replacements {d : TypeDecl} {before after : List TypeParam} {q : TypeParam}
    (args : List TypeExpr) (params : d.params = before ++ q :: after)
    (distinct : (d.params.map (·.name)).Nodup) :
    (d.replacements args).lookup q.name =
      some (args[before.length]?.getD
        (q.constraint.subst (({ d with params := before } : TypeDecl).replacements args))) := by
  rw [params] at distinct
  rw [TypeDecl.replacements, params]
  exact lookup_replaceParams distinct

end ApiConventions
