import ApiConventions.Proofs.Correspondence.Basic

/-!
# ApiConventions.Proofs.Correspondence.Resolution

References that go together resolve alike, by induction on the number of steps left to the right
side. With detours the right side has to reach an end within the limit, and then the left side
does so too; in lockstep the limit is met on both sides at once.
-/

namespace ApiConventions
namespace Correspondence

inductive Steps (c : Correspondence) : Step → Step → Prop where
  | pointer {u u' : TypeRef} (h : c.Ref u u') : Steps c (.pointer u) (.pointer u')
  | transparent {u u' : TypeRef} (h : c.Ref u u') : Steps c (.transparent u) (.transparent u')
  | defined {l l' : Link} {u u' : TypeRef} (hl : c.Links l l') (h : c.Ref u u') :
      Steps c (.defined l u) (.defined l' u')
  | final {k : Kind} {l l' : Option Link} (hl : Option.Rel c.Links l l') :
      Steps c (.final k l) (.final k l')

/-- Resolved types that go together. -/
structure Resolutions (c : Correspondence) (r r' : Resolved) : Prop where
  kind : r.kind = r'.kind
  underlying : c.Alike r.underlying r'.underlying
  chain : List.Forall₂ c.Links r.chain r'.chain
  pointerDepth : r.pointerDepth = r'.pointerDepth

/-- Resolved types that go together and agree on what is a slice of bytes. -/
structure Types (c : Correspondence) (r r' : Resolved) : Prop extends Resolutions c r r' where
  isByteSlice : r.isByteSlice = r'.isByteSlice

variable {c : Correspondence} {t t' : TypeRef}

theorem Links.outside {l : Link} (h : l.decl = none) : c.Links l l :=
  ⟨rfl, rfl, by rw [h]; exact .none⟩

theorem Alike.step (hc : c.Lawful) (h : c.Alike t t') :
    c.Steps (c.left.step t) (c.right.step t') := by
  cases h with
  | name left right referents =>
    rw [Program.step_of_referent left, Program.step_of_referent right]
    cases referents with
    | param h => exact .transparent h
    | decl package decl body =>
      simp only [Program.stepReferent, hc.isAlias decl]
      split
      · exact .transparent body
      · exact .defined ⟨hc.path package, hc.name decl, .some decl⟩ body
    | predeclared k => exact .final .none
    | known o h => exact .final (.some (Links.outside h))
    | unknown h => exact .final (.some (Links.outside h))
  | shape h =>
    cases h with
    | pointer elem => exact .pointer elem
    | slice elem => exact .final .none
    | array elem => exact .final .none
    | chan elem => exact .final .none
    | map key value => exact .final .none
    | struct members types => exact .final .none
    | func => exact .final .none
    | @interface P P' b b' ts ts' terms =>
      -- Only an interface with a single term is looked through.
      rcases forall₂_map_cases terms with ⟨rfl, rfl⟩ | ⟨e, e', rfl, rfl, h⟩ |
        ⟨_, _, _, _, _, _, rfl, rfl⟩
      · exact .final .none
      · exact .transparent h
      · exact .final .none

theorem Shape.referent (h : c.Shape c.Ref t t') :
    c.left.referent? t = none ∧ c.right.referent? t' = none := by
  cases h <;> exact ⟨rfl, rfl⟩

theorem Alike.referents (h : c.Alike t t') :
    Option.Rel c.Referents (c.left.referent? t) (c.right.referent? t') := by
  cases h with
  | name left right referents => rw [left, right]; exact .some referents
  | shape h => rw [h.referent.1, h.referent.2]; exact .none

theorem Alike.lookThrough (hc : c.Lawful) (h : c.Alike t t') :
    Option.Rel c.Ref (c.left.lookThrough? t) (c.right.lookThrough? t') := by
  have hr := h.referents
  rw [Program.lookThrough?, Program.lookThrough?]
  generalize c.left.referent? t = ρ at hr ⊢
  generalize c.right.referent? t' = ρ' at hr ⊢
  cases hr with
  | none => exact .none
  | some hr =>
    cases hr with
    | param h => exact .some h
    | decl _ decl body =>
      simp only [hc.isAlias decl]
      split
      · exact .some body
      · exact .none
    | _ => exact .none

/-! ## The limit -/

theorem Ref.endsWithin (hc : c.Lawful) {n : Nat} (h : c.Ref t t')
    (hn : c.right.endsWithin n t' = true) : c.left.endsWithin n t = true := by
  induction n generalizing t t' with
  | zero => simp [Program.endsWithin] at hn
  | succ n ih =>
    rcases h.advance hc with ⟨-, u, hu, hr⟩ | ha
    · rw [Program.endsWithin, Program.step_of_lookThrough hu] at hn
      exact Program.endsWithin_succ (ih hr hn)
    · have hs := ha.step hc
      rw [Program.endsWithin] at hn ⊢
      generalize c.left.step t = s at hs ⊢
      generalize c.right.step t' = s' at hs hn
      cases hs with
      | pointer h => exact ih h hn
      | transparent h => exact ih h hn
      | defined _ h => exact ih h hn
      | final _ => rfl

theorem Ref.byteEndsWithin (hc : c.Lawful) {n : Nat} (h : c.Ref t t')
    (hn : c.right.byteEndsWithin n t' = true) : c.left.byteEndsWithin n t = true := by
  induction n generalizing t t' with
  | zero => simp [Program.byteEndsWithin] at hn
  | succ n ih =>
    rcases h.advance hc with ⟨-, u, hu, hr⟩ | ha
    · rw [Program.byteEndsWithin_of_lookThrough hu] at hn
      exact Program.byteEndsWithin_succ (ih hr hn)
    · have hs := ha.referents
      rw [Program.byteEndsWithin] at hn ⊢
      generalize c.left.referent? t = ρ at hs ⊢
      generalize c.right.referent? t' = ρ' at hs hn
      cases hs with
      | none => rfl
      | some hs =>
        cases hs with
        | param h => exact ih h hn
        | decl _ _ body => exact ih body hn
        | _ => rfl

theorem Ref.peelEndsWithin (hc : c.Lawful) {n : Nat} (h : c.Ref t t')
    (hn : c.right.peelEndsWithin n t' = true) : c.left.peelEndsWithin n t = true := by
  induction n generalizing t t' with
  | zero => simp [Program.peelEndsWithin] at hn
  | succ n ih =>
    rcases h.advance hc with ⟨-, u, hu, hr⟩ | ha
    · rw [Program.peelEndsWithin, hu] at hn
      exact Program.peelEndsWithin_succ (ih hr hn)
    · have hs := ha.lookThrough hc
      rw [Program.peelEndsWithin] at hn ⊢
      generalize c.left.lookThrough? t = o at hs ⊢
      generalize c.right.lookThrough? t' = o' at hs hn
      cases hs with
      | none => rfl
      | some h => exact ih h hn

/-! ## The answers -/

theorem Ref.resolveWithin (hc : c.Lawful) {n : Nat} (h : c.Ref t t')
    (hn : c.detours → c.right.endsWithin n t' = true) :
    c.Resolutions (c.left.resolveWithin n t) (c.right.resolveWithin n t') := by
  induction n generalizing t t' with
  | zero =>
    have hd : ¬ c.detours := fun hd => by simpa [Program.endsWithin] using hn hd
    exact ⟨rfl, h.alike hc hd, .nil, rfl⟩
  | succ n ih =>
    rcases h.advance hc with ⟨hd, u, hu, hr⟩ | ha
    · have hn := hn hd
      rw [Program.endsWithin, Program.step_of_lookThrough hu] at hn
      rw [Program.resolveWithin_succ (hr.endsWithin hc hn)]
      have hright : c.right.resolveWithin (n + 1) t' = c.right.resolveWithin n u := by
        rw [Program.resolveWithin, Program.step_of_lookThrough hu]
      rw [hright]
      exact ih hr fun _ => hn
    · have hs := ha.step hc
      rw [Program.endsWithin] at hn
      rw [Program.resolveWithin, Program.resolveWithin]
      generalize c.left.step t = s at hs ⊢
      generalize c.right.step t' = s' at hs hn ⊢
      cases hs with
      | pointer h =>
        have hi := ih h hn
        exact ⟨hi.kind, hi.underlying, hi.chain, congrArg (· + 1) hi.pointerDepth⟩
      | transparent h => exact ih h hn
      | defined hl h =>
        have hi := ih h hn
        exact ⟨hi.kind, hi.underlying, .cons hl hi.chain, hi.pointerDepth⟩
      | @final k l l' hl =>
        refine ⟨rfl, ha, ?_, rfl⟩
        cases hl with
        | some hl => exact .cons hl .nil
        | none => exact .nil

theorem Ref.isByteWithin (hc : c.Lawful) {n : Nat} (h : c.Ref t t')
    (hn : c.detours → c.right.byteEndsWithin n t' = true) :
    c.left.isByteWithin n t = c.right.isByteWithin n t' := by
  induction n generalizing t t' with
  | zero => rfl
  | succ n ih =>
    rcases h.advance hc with ⟨hd, u, hu, hr⟩ | ha
    · have hn := hn hd
      rw [Program.byteEndsWithin_of_lookThrough hu] at hn
      rw [Program.isByteWithin_succ (hr.byteEndsWithin hc hn),
        Program.isByteWithin_of_lookThrough hu]
      exact ih hr fun _ => hn
    · have hs := ha.referents
      rw [Program.byteEndsWithin] at hn
      rw [Program.isByteWithin, Program.isByteWithin]
      generalize c.left.referent? t = ρ at hs ⊢
      generalize c.right.referent? t' = ρ' at hs hn ⊢
      cases hs with
      | none => rfl
      | some hs =>
        cases hs with
        | param h => exact ih h hn
        | decl _ _ body => exact ih body hn
        | _ => rfl

theorem Ref.peelWithin (hc : c.Lawful) {n : Nat} (h : c.Ref t t')
    (hn : c.detours → c.right.peelEndsWithin n t' = true) :
    c.Alike (c.left.peelWithin n t) (c.right.peelWithin n t') := by
  induction n generalizing t t' with
  | zero => exact h.alike hc fun hd => by simpa [Program.peelEndsWithin] using hn hd
  | succ n ih =>
    rcases h.advance hc with ⟨hd, u, hu, hr⟩ | ha
    · have hn := hn hd
      rw [Program.peelEndsWithin, hu] at hn
      rw [Program.peelWithin_succ (hr.peelEndsWithin hc hn), Program.peelWithin_of_lookThrough hu]
      exact ih hr fun _ => hn
    · have hs := ha.lookThrough hc
      rw [Program.peelEndsWithin] at hn
      rcases option_rel_cases hs with ⟨hl, hl'⟩ | ⟨u, u', hl, hu', hr⟩
      · rw [Program.peelWithin_of_lookThrough_none hl, Program.peelWithin_of_lookThrough_none hl']
        exact ha
      · rw [hu'] at hn
        rw [Program.peelWithin_of_lookThrough hl, Program.peelWithin_of_lookThrough hu']
        exact ih hr hn

/-! ## Slices of bytes -/

theorem Alike.isByteSlice (hc : c.Lawful) (h : c.Alike t t')
    (hn : c.detours → ∀ e, t'.expr = .slice e →
      c.right.byteEndsWithin maxSteps (t'.withExpr e) = true) :
    c.left.isByteSlice t = c.right.isByteSlice t' := by
  cases h with
  | name left right _ =>
    rw [Program.isByteSlice_of_referent left, Program.isByteSlice_of_referent right]
  | shape h =>
    cases h with
    | slice elem => exact elem.isByteWithin hc fun hd => hn hd _ rfl
    | _ => rfl

theorem Ref.isByteSliceWithin (hc : c.Lawful) {n : Nat} (h : c.Ref t t')
    (hn : c.detours → c.right.endsWithin n t' = true)
    (hb : c.detours → ∀ e, (c.right.resolveWithin n t').underlying.expr = .slice e →
      c.right.byteEndsWithin maxSteps ((c.right.resolveWithin n t').underlying.withExpr e) = true) :
    (c.left.resolveWithin n t).isByteSlice = (c.right.resolveWithin n t').isByteSlice := by
  induction n generalizing t t' with
  | zero => rfl
  | succ n ih =>
    rcases h.advance hc with ⟨hd, u, hu, hr⟩ | ha
    · have hn := hn hd
      have hright : c.right.resolveWithin (n + 1) t' = c.right.resolveWithin n u := by
        rw [Program.resolveWithin, Program.step_of_lookThrough hu]
      rw [Program.endsWithin, Program.step_of_lookThrough hu] at hn
      rw [hright] at hb ⊢
      rw [Program.resolveWithin_succ (hr.endsWithin hc hn)]
      exact ih hr (fun _ => hn) hb
    · have hs := ha.step hc
      rw [Program.endsWithin] at hn
      rw [Program.resolveWithin] at hb
      rw [Program.resolveWithin, Program.resolveWithin]
      generalize c.left.step t = s at hs ⊢
      generalize c.right.step t' = s' at hs hn hb ⊢
      cases hs with
      | pointer h => exact ih h hn hb
      | transparent h => exact ih h hn hb
      | defined _ h => exact ih h hn hb
      | final _ => exact ha.isByteSlice hc hb

/-- References that go together resolve to types that go together. -/
theorem Ref.resolve (hc : c.Lawful) (h : c.Ref t t')
    (hs : c.detours → c.right.settles t' = true) :
    c.Types (c.left.resolve t) (c.right.resolve t') where
  toResolutions := h.resolveWithin hc fun hd => (Program.settles_iff.1 (hs hd)).1
  isByteSlice := h.isByteSliceWithin hc (fun hd => (Program.settles_iff.1 (hs hd)).1)
    fun hd => (Program.settles_iff.1 (hs hd)).2

/-! ## The parts of resolved types -/

variable {r r' : Resolved}

theorem Resolutions.docs (hdoc : c.Documented) (h : c.Resolutions r r') :
    r.decls.map (·.doc) = r'.decls.map (·.doc) := by
  have hl := h.chain
  rw [Resolved.decls, Resolved.decls]
  generalize r.chain = ls at hl ⊢
  generalize r'.chain = ls' at hl ⊢
  induction hl with
  | nil => rfl
  | @cons l l' ls ls' hl _ ih =>
    rcases option_rel_cases hl.decl with ⟨hd, hd'⟩ | ⟨d, d', hd, hd', hdd⟩
    · simpa [hd, hd'] using ih
    · simpa [hd, hd', hdoc d d' hdd] using ih

theorem Resolutions.isPointer (h : c.Resolutions r r') : r.isPointer = r'.isPointer := by
  rw [Resolved.isPointer, Resolved.isPointer, h.pointerDepth]

theorem Resolutions.elem (h : c.Resolutions r r') : Option.Rel c.Ref r.elem? r'.elem? := by
  have hu := h.underlying
  rw [Resolved.elem?, Resolved.elem?]
  generalize r.underlying = t at hu ⊢
  generalize r'.underlying = t' at hu ⊢
  cases hu with
  | name left right _ =>
    obtain ⟨_, _, _, he⟩ := Program.expr_of_referent left
    obtain ⟨_, _, _, he'⟩ := Program.expr_of_referent right
    rw [he, he']; exact .none
  | shape h =>
    cases h with
    | slice elem => exact .some elem
    | array elem => exact .some elem
    | chan elem => exact .some elem
    | _ => exact .none

theorem Resolutions.mapParts (h : c.Resolutions r r') :
    Option.Rel (fun q q' => c.Ref q.1 q'.1 ∧ c.Ref q.2 q'.2) r.mapParts? r'.mapParts? := by
  have hu := h.underlying
  rw [Resolved.mapParts?, Resolved.mapParts?]
  generalize r.underlying = t at hu ⊢
  generalize r'.underlying = t' at hu ⊢
  cases hu with
  | name left right _ =>
    obtain ⟨_, _, _, he⟩ := Program.expr_of_referent left
    obtain ⟨_, _, _, he'⟩ := Program.expr_of_referent right
    rw [he, he']; exact .none
  | shape h =>
    cases h with
    | map key value => exact .some ⟨key, value⟩
    | _ => exact .none

theorem Resolutions.members (h : c.Resolutions r r') :
    List.Forall₂ (fun f f' => c.members f f' ∧
      (c.tracked f → c.Ref (r.memberType f) (r'.memberType f'))) r.members r'.members := by
  have hu := h.underlying
  simp only [Resolved.members, Resolved.memberType]
  generalize r.underlying = t at hu ⊢
  generalize r'.underlying = t' at hu ⊢
  cases hu with
  | name left right _ =>
    obtain ⟨_, _, _, he⟩ := Program.expr_of_referent left
    obtain ⟨_, _, _, he'⟩ := Program.expr_of_referent right
    rw [he, he']; exact .nil
  | shape h =>
    cases h with
    | struct members types =>
      refine List.forall₂_iff_zip.2 ⟨members.length_eq, fun {f f'} hq => ?_⟩
      exact ⟨List.forall₂_zip members hq, types (f, f') hq⟩
    | _ => exact .nil

end Correspondence
end ApiConventions
