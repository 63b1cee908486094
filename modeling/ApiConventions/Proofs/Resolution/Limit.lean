import ApiConventions.Resolution.Resolve

/-!
# ApiConventions.Proofs.Resolution.Limit

The step limit. Resolution, the test for bytes and the peeling of aliases are loops over the same
references; each has its own reason to stop and at most `maxSteps` turns. `endsWithin`,
`byteEndsWithin` and `peelEndsWithin` say that a loop stops for its reason, with turns to spare or
at the last one. What a resolution answers then does not depend on the number of turns.
-/

namespace ApiConventions
namespace Program

/-- Whether a resolution reaches an end in at most so many steps. -/
def endsWithin (p : Program) : Nat → TypeRef → Bool
  | 0, _ => false
  | n + 1, t =>
    match p.step t with
    | .pointer target => p.endsWithin n target
    | .transparent target => p.endsWithin n target
    | .defined _ target => p.endsWithin n target
    | .final _ _ => true

/-- Whether the test for bytes comes to an answer in at most so many steps. -/
def byteEndsWithin (p : Program) : Nat → TypeRef → Bool
  | 0, _ => false
  | n + 1, t =>
    match p.referent? t with
    | some (.param target) => p.byteEndsWithin n target
    | some (.decl _ _ body) => p.byteEndsWithin n body
    | _ => true

/-- What a name stands for that leaves no trace: a bound parameter or an alias. -/
def lookThrough? (p : Program) (t : TypeRef) : Option TypeRef :=
  match p.referent? t with
  | some (.param target) => some target
  | some (.decl _ decl body) => if decl.isAlias then some body else none
  | _ => none

/-- Whether fewer than so many parameters and aliases stand in front of a reference. -/
def peelEndsWithin (p : Program) : Nat → TypeRef → Bool
  | 0, _ => false
  | n + 1, t =>
    match p.lookThrough? t with
    | some target => p.peelEndsWithin n target
    | none => true

/-- Whether a resolution, and the test for bytes at its end, stay within the limit. -/
def settles (p : Program) (t : TypeRef) : Bool :=
  p.endsWithin maxSteps t &&
    match (p.resolve t).underlying.expr with
    | .slice elem => p.byteEndsWithin maxSteps ((p.resolve t).underlying.withExpr elem)
    | _ => true

theorem settles_iff {p : Program} {t : TypeRef} :
    p.settles t = true ↔ p.endsWithin maxSteps t = true ∧
      ∀ elem, (p.resolve t).underlying.expr = .slice elem →
        p.byteEndsWithin maxSteps ((p.resolve t).underlying.withExpr elem) = true := by
  rw [settles, Bool.and_eq_true]
  cases (p.resolve t).underlying.expr <;> simp

/-! ## One step -/

theorem expr_of_referent {p : Program} {t : TypeRef} {ρ : Referent} (h : p.referent? t = some ρ) :
    ∃ name path args, t.expr = .ident name path args := by
  cases he : t.expr with
  | ident name path args => exact ⟨name, path, args, rfl⟩
  | _ => simp [referent?, he] at h

theorem step_of_referent {p : Program} {t : TypeRef} {ρ : Referent} (h : p.referent? t = some ρ) :
    p.step t = stepReferent ρ := by
  obtain ⟨name, path, args, he⟩ := expr_of_referent h
  simp [step, he, h]

/-- What a name may refer to: the first declaration of its name, or a type without one. -/
inductive Refers (t : TypeRef) : Referent → Prop where
  | param (u : TypeRef) : Refers t (.param u)
  | decl {P : Package} {d : TypeDecl} (declared : P.decl? d.name = some d) (args : List TypeExpr) :
      Refers t (.decl P d ⟨d.type, P, d.instantiate P args t⟩)
  | predeclared (k : Kind) : Refers t (.predeclared k)
  | known {l : Link} (o : Option BasicKind) (outside : l.decl = none) : Refers t (.known l o)
  | unknown {l : Link} (outside : l.decl = none) : Refers t (.unknown l)

theorem refers_of_referent {p : Program} {t : TypeRef} {ρ : Referent}
    (h : p.referent? t = some ρ) : Refers t ρ := by
  have declared {P : Package} {name : String} {d : TypeDecl} (args : List TypeExpr)
      (hd : P.decl? name = some d) : Refers t (declReferent P d args t) := by
    have found := List.find?_some hd
    rw [← eq_of_beq found] at hd
    exact .decl hd args
  rw [referent?] at h
  split at h
  · cases h
    rw [unqualified]
    split
    · exact .param _
    · split
      · rename_i hd
        exact declared _ hd
      · split
        · exact .predeclared _
        · exact .unknown rfl
  · cases h
    rw [qualified]
    split
    · rename_i found
      obtain ⟨P, -, hP⟩ := Option.bind_eq_some_iff.1 found
      obtain ⟨d, hd, same⟩ := Option.map_eq_some_iff.1 hP
      cases same
      exact declared _ hd
    · split
      · exact .known _ rfl
      · exact .unknown rfl
  · cases h

theorem isByteSlice_of_referent {p : Program} {t : TypeRef} {ρ : Referent}
    (h : p.referent? t = some ρ) : p.isByteSlice t = false := by
  obtain ⟨name, path, args, he⟩ := expr_of_referent h
  simp [isByteSlice, he]

theorem referent_of_lookThrough {p : Program} {t u : TypeRef} (h : p.lookThrough? t = some u) :
    p.referent? t = some (.param u) ∨
      ∃ package decl, p.referent? t = some (.decl package decl u) ∧ decl.isAlias = true := by
  rw [lookThrough?] at h
  split at h
  · rename_i target hr
    cases h
    exact .inl hr
  · rename_i package decl body hr
    split at h
    · rename_i ha
      cases h
      exact .inr ⟨package, decl, hr, ha⟩
    · cases h
  · cases h

/-- Looking through a name is a step without a trace. -/
theorem step_of_lookThrough {p : Program} {t u : TypeRef} (h : p.lookThrough? t = some u) :
    p.step t = .transparent u := by
  obtain hr | ⟨package, decl, hr, ha⟩ := referent_of_lookThrough h
  · rw [step_of_referent hr]; rfl
  · rw [step_of_referent hr]; simp [stepReferent, ha]

theorem isByteWithin_of_lookThrough {p : Program} {t u : TypeRef} (h : p.lookThrough? t = some u)
    (n : Nat) : p.isByteWithin (n + 1) t = p.isByteWithin n u := by
  obtain hr | ⟨package, decl, hr, -⟩ := referent_of_lookThrough h
  · simp [isByteWithin, hr]
  · simp [isByteWithin, hr]

theorem byteEndsWithin_of_lookThrough {p : Program} {t u : TypeRef}
    (h : p.lookThrough? t = some u) (n : Nat) :
    p.byteEndsWithin (n + 1) t = p.byteEndsWithin n u := by
  obtain hr | ⟨package, decl, hr, -⟩ := referent_of_lookThrough h
  · simp [byteEndsWithin, hr]
  · simp [byteEndsWithin, hr]

theorem peelWithin_of_lookThrough {p : Program} {t u : TypeRef} (h : p.lookThrough? t = some u)
    (n : Nat) : p.peelWithin (n + 1) t = p.peelWithin n u := by
  obtain hr | ⟨package, decl, hr, ha⟩ := referent_of_lookThrough h
  · simp [peelWithin, hr]
  · simp [peelWithin, hr, ha]

theorem peelWithin_of_lookThrough_none {p : Program} {t : TypeRef} (h : p.lookThrough? t = none)
    (n : Nat) : p.peelWithin n t = t := by
  cases n with
  | zero => rfl
  | succ n =>
    simp only [lookThrough?] at h
    split at h
    · cases h
    · rename_i hr
      split at h
      · cases h
      · rename_i ha; simp [peelWithin, hr, ha]
    · rename_i hp hd
      simp only [peelWithin]

/-- A pointer takes one of the steps. -/
theorem resolve_of_pointer {p : Program} {t : TypeRef} {elem : TypeExpr}
    (h : t.expr = .pointer elem) : p.resolve t =
      { p.resolveWithin 63 (t.withExpr elem) with
        pointerDepth := (p.resolveWithin 63 (t.withExpr elem)).pointerDepth + 1 } := by
  rw [resolve, maxSteps, resolveWithin]
  simp only [step, h]

/-! ## More steps change nothing -/

theorem endsWithin_succ {p : Program} {n : Nat} {t : TypeRef} (h : p.endsWithin n t = true) :
    p.endsWithin (n + 1) t = true := by
  induction n generalizing t with
  | zero => simp [endsWithin] at h
  | succ n ih =>
    rw [endsWithin] at h ⊢
    split at h <;> simp_all

theorem endsWithin_of_le {p : Program} {n m : Nat} {t : TypeRef} (hnm : n ≤ m)
    (h : p.endsWithin n t = true) : p.endsWithin m t = true := by
  induction hnm with
  | refl => exact h
  | step _ ih => exact endsWithin_succ ih

theorem byteEndsWithin_succ {p : Program} {n : Nat} {t : TypeRef}
    (h : p.byteEndsWithin n t = true) : p.byteEndsWithin (n + 1) t = true := by
  induction n generalizing t with
  | zero => simp [byteEndsWithin] at h
  | succ n ih =>
    rw [byteEndsWithin] at h ⊢
    split at h <;> simp_all

theorem peelEndsWithin_succ {p : Program} {n : Nat} {t : TypeRef}
    (h : p.peelEndsWithin n t = true) : p.peelEndsWithin (n + 1) t = true := by
  induction n generalizing t with
  | zero => simp [peelEndsWithin] at h
  | succ n ih =>
    rw [peelEndsWithin] at h ⊢
    split at h <;> simp_all

theorem resolveWithin_succ {p : Program} {n : Nat} {t : TypeRef} (h : p.endsWithin n t = true) :
    p.resolveWithin (n + 1) t = p.resolveWithin n t := by
  induction n generalizing t with
  | zero => simp [endsWithin] at h
  | succ n ih =>
    rw [endsWithin] at h
    rw [resolveWithin, resolveWithin]
    split at h <;> simp_all

/-- A resolution that ends gives the same answer under every larger limit. -/
theorem resolveWithin_of_le {p : Program} {n m : Nat} {t : TypeRef} (hnm : n ≤ m)
    (h : p.endsWithin n t = true) : p.resolveWithin m t = p.resolveWithin n t := by
  induction hnm with
  | refl => rfl
  | step hm ih => rw [resolveWithin_succ (endsWithin_of_le hm h), ih]

/-- A resolution that does not end knows nothing about the type. -/
theorem resolveWithin_of_not_endsWithin {p : Program} {n : Nat} {t : TypeRef}
    (h : p.endsWithin n t = false) :
    (p.resolveWithin n t).kind = .opaqueType ∧ (p.resolveWithin n t).isByteSlice = false := by
  induction n generalizing t with
  | zero => exact ⟨rfl, rfl⟩
  | succ n ih =>
    rw [endsWithin] at h
    rw [resolveWithin]
    split at h <;> simp_all

/-- Further steps only add pointer levels. -/
theorem pointerDepth_le_succ (p : Program) (n : Nat) (t : TypeRef) :
    (p.resolveWithin n t).pointerDepth ≤ (p.resolveWithin (n + 1) t).pointerDepth := by
  induction n generalizing t with
  | zero => exact Nat.zero_le _
  | succ n ih =>
    rw [resolveWithin, resolveWithin]
    cases p.step t with
    | pointer target => exact Nat.succ_le_succ (ih target)
    | transparent target => exact ih target
    | defined link target => exact ih target
    | final kind link => exact Nat.le_refl _

/-- Further steps only add links at the end of the chain. -/
theorem chain_prefix_succ (p : Program) (n : Nat) (t : TypeRef) :
    (p.resolveWithin n t).chain <+: (p.resolveWithin (n + 1) t).chain := by
  induction n generalizing t with
  | zero => exact List.nil_prefix
  | succ n ih =>
    rw [resolveWithin, resolveWithin]
    cases p.step t with
    | pointer target => exact ih target
    | transparent target => exact ih target
    | defined link target => exact List.prefix_cons_inj link |>.2 (ih target)
    | final kind link => exact List.prefix_rfl

theorem chain_prefix_of_le {n m : Nat} (hnm : n ≤ m) (p : Program) (t : TypeRef) :
    (p.resolveWithin n t).chain <+: (p.resolveWithin m t).chain := by
  induction hnm with
  | refl => exact List.prefix_rfl
  | step _ ih => exact ih.trans (p.chain_prefix_succ _ t)

theorem isByteWithin_succ {p : Program} {n : Nat} {t : TypeRef} (h : p.byteEndsWithin n t = true) :
    p.isByteWithin (n + 1) t = p.isByteWithin n t := by
  induction n generalizing t with
  | zero => simp [byteEndsWithin] at h
  | succ n ih =>
    rw [byteEndsWithin] at h
    rw [isByteWithin, isByteWithin]
    cases hr : p.referent? t with
    | none => rfl
    | some ρ =>
      rw [hr] at h
      cases ρ with
      | param target => exact ih h
      | decl package decl body => exact ih h
      | _ => rfl

theorem peelWithin_succ {p : Program} {n : Nat} {t : TypeRef} (h : p.peelEndsWithin n t = true) :
    p.peelWithin (n + 1) t = p.peelWithin n t := by
  induction n generalizing t with
  | zero => simp [peelEndsWithin] at h
  | succ n ih =>
    rw [peelEndsWithin] at h
    cases hl : p.lookThrough? t with
    | some u =>
      rw [hl] at h
      rw [peelWithin_of_lookThrough hl, peelWithin_of_lookThrough hl, ih h]
    | none => rw [peelWithin_of_lookThrough_none hl, peelWithin_of_lookThrough_none hl]

end Program
end ApiConventions
