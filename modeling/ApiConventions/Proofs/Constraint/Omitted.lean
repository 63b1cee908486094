import ApiConventions.Proofs.Constraint.Members

/-!
# ApiConventions.Proofs.Constraint.Omitted

Properties that are not written for the zero value of a struct: their tags leave them out, or they
are inlined behind a pointer, which is nil there. The shape of a struct names the required ones
that their tags leave out. Those are all of them when no pointer holds a property back.
-/

namespace ApiConventions

namespace Program

/-- The zero value of a struct lacks a property, of its own or of a struct that is inlined there. -/
inductive Omits (p : Program) : Resolved → Field → Prop where
  | own {s : Resolved} {f : Field} (mem : f ∈ s.members) (property : f.IsProperty)
      (out : f.LeavesOut (p.resolve (s.memberType f))) : Omits p s f
  | inlined {s : Resolved} {f g : Field} (mem : g ∈ s.members) (inlined : g.IsInlined)
      (inner : Omits p (p.resolve (s.memberType g)) f) : Omits p s f
  | absent {s s' : Resolved} {f g : Field} {path : List Field} (mem : g ∈ s.members)
      (inlined : g.IsInlined) (pointer : 0 < (p.resolve (s.memberType g)).pointerDepth)
      (reach : p.Inlines (p.resolve (s.memberType g)) path s') (member : f ∈ s'.members)
      (property : f.IsProperty) : Omits p s f

variable {p : Program} {s s' : Resolved} {fs : List Field} {f g : Field} {path : List Field}
  {n k levels : Nat}

/-! ## The properties that a shape counts -/

theorem mem_classifiedMember {inner : Resolved → List (Field × Resolved)} {r : Resolved}
    {q : Field × Resolved} : q ∈ classifiedMember inner g r ↔
      g.IsProperty ∧ q = (g, r) ∨ g.IsInlined ∧ r.kind = .struct ∧ q ∈ inner r := by
  rw [Field.isProperty_iff, Field.isInlined_iff, classifiedMember]
  cases g.jsonTag.ignored <;> cases g.isInline <;> simp

theorem own_mem_classified (hf : f ∈ s.members) (property : f.IsProperty) :
    (f, p.resolve (s.memberType f)) ∈ p.classified levels s := by
  cases levels <;>
    exact List.mem_flatMap.2 ⟨f, hf, mem_classifiedMember.2 (.inl ⟨property, rfl⟩)⟩

theorem inlined_mem_classified {q : Field × Resolved} (hg : g ∈ s.members) (inlined : g.IsInlined)
    (struct : (p.resolve (s.memberType g)).kind = .struct)
    (h : q ∈ p.classified levels (p.resolve (s.memberType g))) : q ∈ p.classified (levels + 1) s :=
  List.mem_flatMap.2 ⟨g, hg, mem_classifiedMember.2 (.inr ⟨inlined, struct, h⟩)⟩

theorem inlinesWithin_of_inlined (nested : p.inlinesWithin levels s = true) (hg : g ∈ s.members)
    (inlined : g.IsInlined) : ∃ below, levels = below + 1 ∧
      (p.resolve (s.memberType g)).kind = .struct ∧
      p.inlinesWithin below (p.resolve (s.memberType g)) = true := by
  obtain ⟨serialized, inline⟩ := Field.isInlined_iff.1 inlined
  exact inlinesWithin_of_inline nested hg serialized inline

/-- Every property is counted where inlined members are structs and not too deep. -/
theorem mem_classified_of_inlines (reach : p.Inlines s path s')
    (nested : p.inlinesWithin levels s = true) (hf : f ∈ s'.members) (property : f.IsProperty) :
    (f, p.resolve (s'.memberType f)) ∈ p.classified levels s := by
  induction reach generalizing levels with
  | here => exact own_mem_classified hf property
  | through hg inlined _ ih =>
    obtain ⟨below, rfl, struct, nested⟩ := inlinesWithin_of_inlined nested hg inlined
    exact inlined_mem_classified hg inlined struct (ih nested hf)

theorem omits_of_mem_classified {q : Field × Resolved} (h : q ∈ p.classified levels s)
    (out : q.1.LeavesOut q.2) : p.Omits s q.1 := by
  induction levels generalizing s with
  | zero =>
    obtain ⟨g, hg, h⟩ := List.mem_flatMap.1 h
    rcases mem_classifiedMember.1 h with ⟨property, rfl⟩ | ⟨-, -, h⟩
    · exact .own hg property out
    · cases h
  | succ levels ih =>
    obtain ⟨g, hg, h⟩ := List.mem_flatMap.1 h
    rcases mem_classifiedMember.1 h with ⟨property, rfl⟩ | ⟨inlined, -, h⟩
    · exact .own hg property out
    · exact .inlined hg inlined (ih h)

/-! ## Zero values that hold nothing back -/

/-- What an inlined struct writes and holds back is written or held back around it. -/
theorem ZeroSize.of_inlined (h : p.ZeroSize s fs n k) (hg : g ∈ fs) (inlined : g.IsInlined) :
    ∃ m l, p.ZeroSize (p.resolve (s.memberType g)) (p.resolve (s.memberType g)).members m l ∧
      m + l ≤ n + k ∧ l ≤ k ∧ (0 < (p.resolve (s.memberType g)).pointerDepth → m + l ≤ k) := by
  obtain ⟨serialized, inline⟩ := Field.isInlined_iff.1 inlined
  induction h with
  | nil => cases hg
  | ignored ignored _ ih =>
    rcases List.mem_cons.1 hg with rfl | hg
    · simp [ignored] at serialized
    · exact ih hg
  | omitted _ property _ _ ih =>
    rcases List.mem_cons.1 hg with rfl | hg
    · simp [property] at inline
    · exact ih hg
  | written _ property _ _ ih =>
    rcases List.mem_cons.1 hg with rfl | hg
    · simp [property] at inline
    · obtain ⟨m, l, inner, all, held, pointer⟩ := ih hg
      exact ⟨m, l, inner, by omega, held, pointer⟩
  | @inlined s r f fs m l n k _ _ type value inner _ _ ih =>
    rcases List.mem_cons.1 hg with rfl | hg
    · rw [type]
      exact ⟨m, l, inner, by omega, by omega, by omega⟩
    · obtain ⟨m', l', inner', all, held, pointer⟩ := ih hg
      exact ⟨m', l', inner', by omega, by omega, by omega⟩
  | @absent s r f fs m l n k _ _ type _ inner _ _ ih =>
    rcases List.mem_cons.1 hg with rfl | hg
    · rw [type]
      exact ⟨m, l, inner, by omega, by omega, fun _ => by omega⟩
    · obtain ⟨m', l', inner', all, held, pointer⟩ := ih hg
      exact ⟨m', l', inner', by omega, by omega, by omega⟩

theorem ZeroSize.leavesOut_or_pos (h : p.ZeroSize s fs n k) (hf : f ∈ fs)
    (property : f.IsProperty) : f.LeavesOut (p.resolve (s.memberType f)) ∨ 0 < n := by
  obtain ⟨serialized, plain⟩ := Field.isProperty_iff.1 property
  induction h with
  | nil => cases hf
  | ignored ignored _ ih =>
    rcases List.mem_cons.1 hf with rfl | hf
    · simp [ignored] at serialized
    · exact ih hf
  | omitted _ _ out _ ih =>
    rcases List.mem_cons.1 hf with rfl | hf
    · exact .inl out
    · exact ih hf
  | written => exact .inr (by omega)
  | inlined _ inline _ _ _ _ _ ih =>
    rcases List.mem_cons.1 hf with rfl | hf
    · simp [inline] at plain
    · exact (ih hf).imp_right fun h => by omega
  | absent _ inline _ _ _ _ _ ih =>
    rcases List.mem_cons.1 hf with rfl | hf
    · simp [inline] at plain
    · exact ih hf

/-- A struct that writes and holds back nothing has only properties that their tags leave out. -/
theorem ZeroSize.leavesOut_of_empty (reach : p.Inlines s path s')
    (empty : p.ZeroSize s s.members 0 0) (hf : f ∈ s'.members) (property : f.IsProperty) :
    f.LeavesOut (p.resolve (s'.memberType f)) := by
  induction reach with
  | here => exact (empty.leavesOut_or_pos hf property).resolve_right (Nat.lt_irrefl 0)
  | through hg inlined _ ih =>
    obtain ⟨m, l, inner, all, -, -⟩ := empty.of_inlined hg inlined
    obtain ⟨rfl, rfl⟩ : m = 0 ∧ l = 0 := by omega
    exact ih inner hf

/-- Where no pointer holds a property back, the properties that are lacking are left out by tags. -/
theorem Omits.exists_classified (h : p.Omits s f) (nested : p.inlinesWithin levels s = true)
    (size : p.ZeroSize s s.members n 0) :
    ∃ q ∈ p.classified levels s, q.1 = f ∧ q.1.LeavesOut q.2 := by
  induction h generalizing levels n with
  | own hf property out => exact ⟨_, own_mem_classified hf property, rfl, out⟩
  | inlined hg inlined _ ih =>
    obtain ⟨below, rfl, struct, nested⟩ := inlinesWithin_of_inlined nested hg inlined
    obtain ⟨m, l, inner, -, held, -⟩ := size.of_inlined hg inlined
    obtain rfl : l = 0 := by omega
    obtain ⟨q, hq, same, out⟩ := ih nested inner
    exact ⟨q, inlined_mem_classified hg inlined struct hq, same, out⟩
  | absent hg inlined pointer reach hf property =>
    obtain ⟨below, rfl, struct, nested⟩ := inlinesWithin_of_inlined nested hg inlined
    obtain ⟨m, l, inner, -, -, held⟩ := size.of_inlined hg inlined
    -- What is behind the pointer is all held back, and nothing is held back here.
    obtain ⟨rfl, rfl⟩ : m = 0 ∧ l = 0 := by
      have := held pointer
      omega
    have counted := mem_classified_of_inlines reach nested hf property
    exact ⟨_, inlined_mem_classified hg inlined struct counted, rfl,
      inner.leavesOut_of_empty reach hf property⟩

end Program

namespace Extractor

variable {x : Extractor} {s : Resolved} {levels n : Nat}

theorem omittedRequired_ne_nil_iff : (x.structShape levels s).omittedRequired ≠ [] ↔
    ∃ q ∈ x.program.classified levels s, q.1.LeavesOut q.2 ∧
      (x.registry.parse q.1.doc).hasAny MarkerName.requiredFamily = true := by
  have named := (joinShapes_propertyShape (x := x) (x.program.classified levels s)).2
  rw [structShape_eq_joinShapes, named, ne_eq, List.map_eq_nil_iff, List.filter_eq_nil_iff]
  simp

/-- A required property that the shape names is lacking in the zero value. -/
theorem exists_omits (named : (x.structShape levels s).omittedRequired ≠ []) :
    ∃ f, x.program.Omits s f ∧
      (x.registry.parse f.doc).hasAny MarkerName.requiredFamily = true := by
  obtain ⟨q, hq, out, required⟩ := omittedRequired_ne_nil_iff.1 named
  exact ⟨q.1, Program.omits_of_mem_classified hq out, required⟩

/-- A required property that is lacking has a name in the shape if no pointer holds any back. -/
theorem omittedRequired_ne_nil {f : Field} (nested : x.program.inlinesWithin levels s = true)
    (size : x.program.ZeroSize s s.members n 0) (omits : x.program.Omits s f)
    (required : (x.registry.parse f.doc).hasAny MarkerName.requiredFamily = true) :
    (x.structShape levels s).omittedRequired ≠ [] := by
  obtain ⟨q, hq, rfl, out⟩ := omits.exists_classified nested size
  exact omittedRequired_ne_nil_iff.2 ⟨q, hq, out, required⟩

end Extractor
end ApiConventions
