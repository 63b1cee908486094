import ApiConventions.Proofs.Resolution.Unfolding

/-!
# ApiConventions.Proofs.Resolution.Peeling

Parameters and aliases. `StandsFor` is what the scope rules let a name stand for without a trace.
Each such name is one transparent step of resolution, so that the peeling of names goes the first
part of the way that resolution goes (`resolve_peelAliases`): it stops at a reference that stands
for no other, and from there resolution reaches the end that it reaches from the start.
-/

namespace ApiConventions
namespace Program

variable {p : Program} {t u : TypeRef} {n : Nat}

/-- A parameter stands for what it is bound to, and the name of an alias for its right-hand side. -/
inductive StandsFor (p : Program) (t : TypeRef) : TypeRef → Prop where
  | param {name : String} {u : TypeRef} (expr : t.expr = .ident name none [])
      (bound : t.bindings.lookup name = some u) : StandsFor p t u
  | aliased {P : Package} {d : TypeDecl} {args : List TypeExpr} (denotes : p.Denotes t P d args)
      (old : d.isAlias = true) : StandsFor p t (t.bodyOf P d args)

theorem StandsFor.lookThrough (h : p.StandsFor t u) : p.lookThrough? t = some u := by
  cases h with
  | param expr bound =>
    have refers : p.referent? t = some (.param u) := by
      rw [referent?, expr]
      simp [unqualified, bound]
    rw [lookThrough?, refers]
  | aliased denotes old =>
    rw [lookThrough?, denotes.referent]
    exact if_pos old

theorem standsFor_of_lookThrough (h : p.lookThrough? t = some u) : p.StandsFor t u := by
  have spec := p.step_spec t
  rw [step_of_lookThrough h] at spec
  cases spec with
  | param expr bound => exact .param expr bound
  | aliased denotes old => exact .aliased denotes old
  | term expr => simp [lookThrough?, referent?, expr] at h

theorem lookThrough_eq_none_iff : p.lookThrough? t = none ↔ ∀ u, ¬ p.StandsFor t u := by
  rw [Option.eq_none_iff_forall_ne_some]
  exact forall_congr' fun u => not_congr ⟨standsFor_of_lookThrough, StandsFor.lookThrough⟩

/-! ## Peeling -/

theorem peelAliases_of_last (last : p.lookThrough? t = none) : p.peelAliases t = t :=
  peelWithin_of_lookThrough_none last maxSteps

/-- A name and what it stands for expand to the same. -/
theorem peelAliases_of_lookThrough (stands : p.lookThrough? t = some u)
    (ends : p.peelEndsWithin maxSteps t = true) :
    p.peelEndsWithin maxSteps u = true ∧ p.peelAliases t = p.peelAliases u := by
  rw [maxSteps, peelEndsWithin, stands] at ends
  have peel : p.peelWithin 64 t = p.peelWithin 63 u := peelWithin_of_lookThrough stands 63
  exact ⟨peelEndsWithin_succ ends, peel.trans (peelWithin_succ ends).symm⟩

theorem lookThrough_peelWithin (ends : p.peelEndsWithin n t = true) :
    p.lookThrough? (p.peelWithin n t) = none := by
  induction n generalizing t with
  | zero => cases ends
  | succ n ih =>
    cases stands : p.lookThrough? t with
    | none =>
      rw [peelWithin_of_lookThrough_none stands]
      exact stands
    | some u =>
      rw [peelEndsWithin, stands] at ends
      rw [peelWithin_of_lookThrough stands]
      exact ih ends

theorem standsFor_peelWithin (p : Program) (n : Nat) (t : TypeRef) :
    Relation.ReflTransGen p.StandsFor t (p.peelWithin n t) := by
  induction n generalizing t with
  | zero => exact .refl
  | succ n ih =>
    cases stands : p.lookThrough? t with
    | none =>
      rw [peelWithin_of_lookThrough_none stands]
    | some u =>
      rw [peelWithin_of_lookThrough stands]
      exact .head (standsFor_of_lookThrough stands) (ih u)

/-! ## The way of resolution -/

theorem StandsFor.next (h : p.StandsFor t u) : p.next? t = some u := by
  rw [next?, step_of_lookThrough h.lookThrough]

/-- Where a resolution ends, there is an end to the names in front as well. -/
theorem peelEndsWithin_of_endsWithin (ends : p.endsWithin n t = true) :
    p.peelEndsWithin n t = true := by
  induction n generalizing t with
  | zero => cases ends
  | succ n ih =>
    rw [peelEndsWithin]
    cases stands : p.lookThrough? t with
    | none => rfl
    | some u =>
      rw [endsWithin_of_next (standsFor_of_lookThrough stands).next] at ends
      exact ih ends

/-- Past a name, a resolution has a step more than it needs. -/
theorem StandsFor.resolve (h : p.StandsFor t u) (ends : p.endsWithin maxSteps t = true) :
    p.endsWithin maxSteps u = true ∧ p.resolve u = p.resolve t := by
  have fewer : p.endsWithin 63 u = true := by
    rw [← endsWithin_of_next h.next]
    exact ends
  have same := resolve_of_step_transparent ends (step_of_lookThrough h.lookThrough)
  exact ⟨endsWithin_succ fewer, same.symm⟩

theorem resolve_of_standsFor (names : Relation.ReflTransGen p.StandsFor t u)
    (ends : p.endsWithin maxSteps t = true) :
    p.endsWithin maxSteps u = true ∧ p.resolve u = p.resolve t := by
  induction names with
  | refl => exact ⟨ends, rfl⟩
  | tail _ name ih =>
    obtain ⟨here, same⟩ := ih
    obtain ⟨there, next⟩ := name.resolve here
    exact ⟨there, next.trans same⟩

/--
Where resolution stays within the step limit, the peeling of parameters and aliases goes the first
part of its way, up to a reference that is neither, and the rest of the way leads to the same end.
-/
theorem resolve_peelAliases (ends : p.endsWithin maxSteps t = true) :
    Relation.ReflTransGen p.StandsFor t (p.peelAliases t) ∧
    (∀ u, ¬ p.StandsFor (p.peelAliases t) u) ∧
    p.peelAliases (p.peelAliases t) = p.peelAliases t ∧
    p.endsWithin maxSteps (p.peelAliases t) = true ∧
    p.resolve (p.peelAliases t) = p.resolve t := by
  have names := p.standsFor_peelWithin maxSteps t
  have last : p.lookThrough? (p.peelAliases t) = none :=
    lookThrough_peelWithin (peelEndsWithin_of_endsWithin ends)
  exact ⟨names, lookThrough_eq_none_iff.1 last, peelAliases_of_last last,
    resolve_of_standsFor names ends⟩

end Program

namespace Timeouts

def seconds : TypeDecl where
  name := "Seconds"
  pos := { line := 3, column := 6 }
  doc := []
  isAlias := false
  params := []
  type := .pointer (.ident "int64" none [])

/-- Another name for its argument. -/
def same : TypeDecl where
  name := "Same"
  pos := { line := 5, column := 6 }
  doc := []
  isAlias := true
  params := [⟨"T", .ident "any" none []⟩]
  type := .ident "T" none []

def timeout : TypeDecl where
  name := "Timeout"
  pos := { line := 7, column := 6 }
  doc := []
  isAlias := true
  params := []
  type := .ident "Same" none [.ident "Seconds" none []]

def package : Package :=
  ⟨"example.com/api", "api", [⟨"api/timeouts.go", [seconds, same, timeout]⟩]⟩

def program : Program := ⟨[package]⟩

def reference : TypeRef := .closed (.ident "Timeout" none []) package

/-- Two aliases and a parameter stand in front of the name of a defined type. -/
theorem resolve_peelAliases_timeout :
    program.endsWithin maxSteps reference = true ∧
    (program.peelAliases reference).expr = .ident "Seconds" none [] ∧
    (∀ u, ¬ program.StandsFor (program.peelAliases reference) u) ∧
    (program.resolve (program.peelAliases reference)).kind = .basic .int64 ∧
    (program.resolve (program.peelAliases reference)).names = ["Seconds"] ∧
    (program.resolve (program.peelAliases reference)).pointerDepth = 1 := by
  have ends : program.endsWithin maxSteps reference = true := by decide +kernel
  obtain ⟨-, last, -, -, resolved⟩ := Program.resolve_peelAliases ends
  rw [resolved]
  exact ⟨ends, rfl, last, by decide +kernel, by decide +kernel, by decide +kernel⟩

end Timeouts
end ApiConventions
