import Mathlib.Data.List.Basic
import ApiConventions.Proofs.Resolution.Ends
import ApiConventions.Rule.ListTags

/-!
# ApiConventions.Proofs.Promotion

Promotion of members. A struct has the properties that it declares and, in the place of a member
that is inlined, those of the struct of that member. `Inlines` is a path of such members, and
`promoted` lists the properties at the ends of the paths that are not too long, in the order of
the source.
-/

namespace ApiConventions

namespace Field

/-- Tagged inline, or embedded without a name of its own in JSON. -/
def AsksInline (f : Field) : Prop :=
  f.jsonTag.inline = true ∨ f.name = none ∧ f.jsonTag.name = ""

/-- A member whose own members take its place. -/
def IsInlined (f : Field) : Prop :=
  f.jsonTag.ignored = false ∧ f.AsksInline

/-- A member that is serialized under a name of its own. -/
def IsProperty (f : Field) : Prop :=
  f.jsonTag.ignored = false ∧ ¬ f.AsksInline

instance (f : Field) : Decidable f.AsksInline :=
  inferInstanceAs (Decidable (_ ∨ _))

instance (f : Field) : Decidable f.IsInlined :=
  inferInstanceAs (Decidable (_ ∧ _))

variable {f : Field}

theorem isInline_iff (serialized : f.jsonTag.ignored = false) :
    f.isInline = true ↔ f.AsksInline := by
  simp [isInline, AsksInline, isEmbedded, serialized, String.isEmpty_iff]

theorem isInlined_iff : f.IsInlined ↔ f.jsonTag.ignored = false ∧ f.isInline = true := by
  rw [IsInlined]
  exact and_congr_right fun serialized => (isInline_iff serialized).symm

theorem isProperty_iff : f.IsProperty ↔ f.jsonTag.ignored = false ∧ f.isInline = false := by
  rw [IsProperty]
  refine and_congr_right fun serialized => ?_
  rw [← isInline_iff serialized, Bool.not_eq_true]

end Field

namespace Program

variable {p : Program} {s s' : Resolved}

/-- A path of inlined members, each in the struct of the one before. -/
inductive Inlines (p : Program) : Resolved → List Field → Resolved → Prop where
  | here {s : Resolved} : Inlines p s [] s
  | through {s s' : Resolved} {g : Field} {path : List Field} (mem : g ∈ s.members)
      (inlined : g.IsInlined) (rest : Inlines p (p.resolve (s.memberType g)) path s') :
      Inlines p s (g :: path) s'

/-- What a member comes to, where `inlined` gives the properties of an inlined struct. -/
def promotedMember (p : Program) (inlined : Resolved → List (Field × TypeRef)) (s : Resolved)
    (f : Field) : List (Field × TypeRef) :=
  if f.jsonTag.ignored then []
  else if f.isInline then inlined (p.resolve (s.memberType f))
  else [(f, s.memberType f)]

/-- The properties of a struct with their types, inlined structs followed so many levels deep. -/
def promoted (p : Program) : Nat → Resolved → List (Field × TypeRef)
  | 0, s => s.members.flatMap (p.promotedMember (fun _ => []) s)
  | levels + 1, s => s.members.flatMap (p.promotedMember (p.promoted levels) s)

theorem mem_promotedMember {inlined : Resolved → List (Field × TypeRef)} {g : Field}
    {q : Field × TypeRef} : q ∈ p.promotedMember inlined s g ↔
      g.IsProperty ∧ q = (g, s.memberType g) ∨
        g.IsInlined ∧ q ∈ inlined (p.resolve (s.memberType g)) := by
  rw [Field.isProperty_iff, Field.isInlined_iff, promotedMember]
  cases g.jsonTag.ignored <;> cases g.isInline <;> simp

/-- A property of a struct is one of its own, or one of a struct that is inlined there. -/
theorem mem_promotedMembers {inlined : Resolved → List (Field × TypeRef)} {q : Field × TypeRef} :
    q ∈ s.members.flatMap (p.promotedMember inlined s) ↔
      (q.1 ∈ s.members ∧ q.1.IsProperty ∧ q.2 = s.memberType q.1) ∨
        ∃ g ∈ s.members, g.IsInlined ∧ q ∈ inlined (p.resolve (s.memberType g)) := by
  rw [List.mem_flatMap]
  constructor
  · rintro ⟨g, hg, h⟩
    rcases mem_promotedMember.1 h with ⟨property, rfl⟩ | ⟨inlined, h⟩
    · exact .inl ⟨hg, property, rfl⟩
    · exact .inr ⟨g, hg, inlined, h⟩
  · rintro (⟨hq, property, type⟩ | ⟨g, hg, inlined, h⟩)
    · exact ⟨q.1, hq, mem_promotedMember.2 (.inl ⟨property, Prod.ext rfl type⟩)⟩
    · exact ⟨g, hg, mem_promotedMember.2 (.inr ⟨inlined, h⟩)⟩

/-- The properties listed are those at the ends of the paths that are not too long. -/
theorem mem_promoted {n : Nat} {q : Field × TypeRef} : q ∈ p.promoted n s ↔
    ∃ path s', p.Inlines s path s' ∧ path.length ≤ n ∧
      q.1 ∈ s'.members ∧ q.1.IsProperty ∧ q.2 = s'.memberType q.1 := by
  induction n generalizing s with
  | zero =>
    rw [promoted, mem_promotedMembers]
    constructor
    · rintro (own | ⟨g, hg, inlined, h⟩)
      · exact ⟨[], s, .here, Nat.le_refl _, own⟩
      · cases h
    · rintro ⟨path, s', reach, short, rest⟩
      cases reach with
      | here => exact .inl rest
      | through _ _ _ => cases short
  | succ n ih =>
    rw [promoted, mem_promotedMembers]
    constructor
    · rintro (own | ⟨g, hg, inlined, h⟩)
      · exact ⟨[], s, .here, Nat.zero_le _, own⟩
      · obtain ⟨path, s', reach, short, rest⟩ := ih.1 h
        exact ⟨g :: path, s', .through hg inlined reach, Nat.succ_le_succ short, rest⟩
    · rintro ⟨path, s', reach, short, rest⟩
      cases reach with
      | here => exact .inl rest
      | through hg inlined reach =>
        have inner := ih.2 ⟨_, s', reach, Nat.le_of_succ_le_succ short, rest⟩
        exact .inr ⟨_, hg, inlined, inner⟩

theorem promoted_of_members {levels : Nat} (none : s.members = []) : p.promoted levels s = [] := by
  cases levels <;> rw [promoted, none, List.flatMap_nil]

/-- A resolution that ends elsewhere than at a struct finds no members. -/
theorem members_eq_nil {t : TypeRef} (ends : p.endsWithin maxSteps t = true)
    (other : (p.resolve t).kind ≠ .struct) : (p.resolve t).members = [] := by
  obtain ⟨link, spec, -⟩ := resolveWithin_end ends
  have spec : p.EndSpec (p.resolve t).underlying (p.resolve t).kind link := spec
  rw [Resolved.members]
  generalize (p.resolve t).kind = kind at spec other
  have named {ρ : Referent} (refers : p.referent? (p.resolve t).underlying = some ρ) :
      ∀ fs, (p.resolve t).underlying.expr ≠ .struct fs := by
    obtain ⟨name, path, args, expr⟩ := expr_of_referent refers
    simp [expr]
  split
  · rename_i fs expr
    cases spec with
    | struct _ => exact absurd rfl other
    | basic refers => exact absurd expr (named refers fs)
    | anyValue refers => exact absurd expr (named refers fs)
    | known refers _ => exact absurd expr (named refers fs)
    | external refers => exact absurd expr (named refers fs)
    | unknown refers => exact absurd expr (named refers fs)
    | _ expr' => rw [expr] at expr'; cases expr'
  · rfl

end Program

/-- The member names of a struct are the names of its properties. -/
theorem ListTags.memberNames_eq_promoted (p : Program) (levels : Nat) (s : Resolved) :
    memberNames p levels s = (p.promoted levels s).map fun q => memberName q.1 := by
  have each {names : Resolved → List String} (inlined : Resolved → List (Field × TypeRef))
      (same : ∀ r, names r = (inlined r).map fun q => memberName q.1) (s : Resolved) (f : Field) :
      namesOfMember names p s f =
        (p.promotedMember inlined s f).map fun q => memberName q.1 := by
    rw [namesOfMember, Program.promotedMember]
    cases f.jsonTag.ignored <;> cases f.isInline <;> simp [same]
  induction levels generalizing s with
  | zero =>
    rw [memberNames, Program.promoted, List.map_flatMap]
    exact List.flatMap_congr fun f _ => each (fun _ => []) (fun _ => rfl) s f
  | succ levels ih =>
    rw [memberNames, Program.promoted, List.map_flatMap]
    exact List.flatMap_congr fun f _ => each (p.promoted levels) ih s f

end ApiConventions
