import ApiConventions.Constraint.Extract

/-!
# ApiConventions.Proofs.Constraint.ZeroSize

The size of the zero value of a struct. `ZeroSize` counts the properties that are written for it.
A struct that is inlined behind a pointer is nil there, and `ZeroSize` counts its properties apart,
since the shape of a struct counts them all: `alwaysPresent` is the size of the zero value as long
as no pointer holds properties back.
-/

namespace ApiConventions

/-- The tag of a member leaves its zero value out, which is empty unless it is a struct. -/
def Field.LeavesOut (f : Field) (r : Resolved) : Prop :=
  f.jsonTag.omitZero = true ∨
    f.jsonTag.omitEmpty = true ∧ (0 < r.pointerDepth ∨ r.kind ≠ .struct)

instance (f : Field) (r : Resolved) : Decidable (f.LeavesOut r) :=
  inferInstanceAs (Decidable (_ ∨ _))

theorem Field.omitsZero_iff {f : Field} {r : Resolved} :
    Extractor.omitsZero f.jsonTag r = true ↔ f.LeavesOut r := by
  simp [Extractor.omitsZero, Field.LeavesOut, Resolved.isPointer]

namespace Program

/-- Inline members are structs, one inside the other at most so many levels deep. -/
def inlinesWithin (p : Program) : Nat → Resolved → Bool
  | 0, s => s.members.all fun f => f.jsonTag.ignored || !f.isInline
  | levels + 1, s =>
    s.members.all fun f => f.jsonTag.ignored || !f.isInline ||
      ((p.resolve (s.memberType f)).kind == .struct &&
        p.inlinesWithin levels (p.resolve (s.memberType f)))

theorem inlinesWithin_of_inline {p : Program} {s : Resolved} {g : Field} {levels : Nat}
    (nested : p.inlinesWithin levels s = true) (hg : g ∈ s.members)
    (serialized : g.jsonTag.ignored = false) (inline : g.isInline = true) :
    ∃ below, levels = below + 1 ∧ (p.resolve (s.memberType g)).kind = .struct ∧
      p.inlinesWithin below (p.resolve (s.memberType g)) = true := by
  cases levels with
  | zero =>
    rw [inlinesWithin, List.all_eq_true] at nested
    have none := nested g hg
    simp [serialized, inline] at none
  | succ below =>
    rw [inlinesWithin, List.all_eq_true] at nested
    have both := nested g hg
    simp only [serialized, inline, Bool.not_true, Bool.or_false, Bool.false_or, Bool.and_eq_true,
      beq_iff_eq] at both
    exact ⟨below, rfl, both.1, both.2⟩

/--
What members of a struct `s` add to its zero value: so many properties that are written, and so
many more that are held back, since they are inlined behind a pointer.
-/
inductive ZeroSize (p : Program) : Resolved → List Field → Nat → Nat → Prop where
  | nil {s : Resolved} : ZeroSize p s [] 0 0
  | ignored {s : Resolved} {f : Field} {fs : List Field} {n k : Nat}
      (ignored : f.jsonTag.ignored = true) (rest : ZeroSize p s fs n k) :
      ZeroSize p s (f :: fs) n k
  | omitted {s : Resolved} {f : Field} {fs : List Field} {n k : Nat}
      (serialized : f.jsonTag.ignored = false) (property : f.isInline = false)
      (out : f.LeavesOut (p.resolve (s.memberType f))) (rest : ZeroSize p s fs n k) :
      ZeroSize p s (f :: fs) n k
  | written {s : Resolved} {f : Field} {fs : List Field} {n k : Nat}
      (serialized : f.jsonTag.ignored = false) (property : f.isInline = false)
      (kept : ¬ f.LeavesOut (p.resolve (s.memberType f))) (rest : ZeroSize p s fs n k) :
      ZeroSize p s (f :: fs) (1 + n) k
  | inlined {s r : Resolved} {f : Field} {fs : List Field} {m l n k : Nat}
      (serialized : f.jsonTag.ignored = false) (inline : f.isInline = true)
      (type : p.resolve (s.memberType f) = r) (value : r.pointerDepth = 0)
      (inner : ZeroSize p r r.members m l) (rest : ZeroSize p s fs n k) :
      ZeroSize p s (f :: fs) (m + n) (l + k)
  | absent {s r : Resolved} {f : Field} {fs : List Field} {m l n k : Nat}
      (serialized : f.jsonTag.ignored = false) (inline : f.isInline = true)
      (type : p.resolve (s.memberType f) = r) (pointer : 0 < r.pointerDepth)
      (inner : ZeroSize p r r.members m l) (rest : ZeroSize p s fs n k) :
      ZeroSize p s (f :: fs) n (m + l + k)

theorem ZeroSize.unique {p : Program} {s : Resolved} {fs : List Field} {n k n' k' : Nat}
    (h : p.ZeroSize s fs n k) (h' : p.ZeroSize s fs n' k') : n' = n ∧ k' = k := by
  -- The first member decides on the constructor, so every other one contradicts a premise.
  induction h generalizing n' k' with
  | nil =>
    cases h'
    exact ⟨rfl, rfl⟩
  | ignored ignored _ ih =>
    cases h' with
    | ignored _ rest => exact ih rest
    | omitted serialized | written serialized | inlined serialized | absent serialized =>
      simp [ignored] at serialized
  | omitted serialized property out _ ih =>
    cases h' with
    | ignored ignored => simp [ignored] at serialized
    | omitted _ _ _ rest => exact ih rest
    | written _ _ kept => exact absurd out kept
    | inlined _ inline | absent _ inline => simp [inline] at property
  | written serialized property kept _ ih =>
    cases h' with
    | ignored ignored => simp [ignored] at serialized
    | omitted _ _ out => exact absurd out kept
    | written _ _ _ rest =>
      obtain ⟨rfl, rfl⟩ := ih rest
      exact ⟨rfl, rfl⟩
    | inlined _ inline | absent _ inline => simp [inline] at property
  | inlined serialized inline type value _ _ ih ihrest =>
    cases h' with
    | ignored ignored => simp [ignored] at serialized
    | inlined _ _ type' _ inner rest =>
      subst type type'
      obtain ⟨rfl, rfl⟩ := ih inner
      obtain ⟨rfl, rfl⟩ := ihrest rest
      exact ⟨rfl, rfl⟩
    | absent _ _ type' pointer =>
      subst type type'
      omega
    | omitted _ property | written _ property => simp [inline] at property
  | absent serialized inline type pointer _ _ ih ihrest =>
    cases h' with
    | ignored ignored => simp [ignored] at serialized
    | inlined _ _ type' value =>
      subst type type'
      omega
    | absent _ _ type' _ inner rest =>
      subst type type'
      obtain ⟨rfl, rfl⟩ := ih inner
      obtain ⟨rfl, rfl⟩ := ihrest rest
      exact ⟨rfl, rfl⟩
    | omitted _ property | written _ property => simp [inline] at property

end Program

namespace Extractor

variable {x : Extractor} {s : Resolved}

/-- The shape of members, given the size of the structs that are inlined among them. -/
theorem exists_zeroSize_of_members {inlined : Resolved → StructShape} (fs : List Field)
    (inner : ∀ f ∈ fs, f.jsonTag.ignored = false → f.isInline = true →
      (x.program.resolve (s.memberType f)).kind = .struct ∧
      ∃ n k, x.program.ZeroSize (x.program.resolve (s.memberType f))
          (x.program.resolve (s.memberType f)).members n k ∧
        (inlined (x.program.resolve (s.memberType f))).alwaysPresent = n + k) :
    ∃ n k, x.program.ZeroSize s fs n k ∧
      (joinShapes (fs.map fun f =>
        x.memberShape inlined f (x.program.resolve (s.memberType f)))).alwaysPresent = n + k := by
  induction fs with
  | nil => exact ⟨0, 0, .nil, rfl⟩
  | cons f fs ih =>
    obtain ⟨n, k, rest, sum⟩ := ih fun g hg => inner g (List.mem_cons_of_mem f hg)
    have inner := inner f List.mem_cons_self
    generalize hr : x.program.resolve (s.memberType f) = r at inner
    have join : (joinShapes ((f :: fs).map fun f =>
        x.memberShape inlined f (x.program.resolve (s.memberType f)))).alwaysPresent =
        (x.memberShape inlined f r).alwaysPresent + (n + k) := by
      rw [← sum, ← hr]
      rfl
    rw [join]
    cases ignored : f.jsonTag.ignored with
    | true => exact ⟨n, k, .ignored ignored rest, by simp [memberShape, ignored]⟩
    | false =>
      cases inline : f.isInline with
      | false =>
        by_cases out : f.LeavesOut r
        · refine ⟨n, k, .omitted ignored inline (hr ▸ out) rest, ?_⟩
          have omits := Field.omitsZero_iff.2 out
          by_cases required : (x.registry.parse f.doc).hasAny MarkerName.requiredFamily <;>
            simp [memberShape, ignored, inline, omits, required]
        · refine ⟨1 + n, k, .written ignored inline (hr ▸ out) rest, ?_⟩
          have keeps : omitsZero f.jsonTag r = false := by
            rw [Bool.eq_false_iff, Ne, Field.omitsZero_iff]
            exact out
          simp only [memberShape, ignored, inline, keeps]
          simp
          omega
      | true =>
        obtain ⟨struct, m, l, size, shape⟩ := inner ignored inline
        have member : (x.memberShape inlined f r).alwaysPresent = m + l := by
          simp [memberShape, ignored, inline, struct, shape]
        rw [member]
        -- The shape adds the same either way; only what is counted as written differs.
        by_cases value : r.pointerDepth = 0
        · exact ⟨m + n, l + k, .inlined ignored inline hr value size rest, by omega⟩
        · exact ⟨n, m + l + k, .absent ignored inline hr (by omega) size rest, by omega⟩

theorem exists_zeroSize (levels : Nat) (s : Resolved)
    (nested : x.program.inlinesWithin levels s = true) :
    ∃ n k, x.program.ZeroSize s s.members n k ∧
      (x.structShape levels s).alwaysPresent = n + k := by
  induction levels generalizing s with
  | zero =>
    refine exists_zeroSize_of_members s.members fun f hf serialized inline => ?_
    obtain ⟨below, none, -⟩ := Program.inlinesWithin_of_inline nested hf serialized inline
    cases none
  | succ levels ih =>
    refine exists_zeroSize_of_members s.members fun f hf serialized inline => ?_
    obtain ⟨below, same, struct, nested⟩ :=
      Program.inlinesWithin_of_inline nested hf serialized inline
    cases same
    exact ⟨struct, ih _ nested⟩

/--
Where inline members are structs no more than eight levels deep, the members that are always
present are those written for the zero value of the struct and those that nil pointers hold back.
-/
theorem alwaysPresent_eq_add (nested : x.program.inlinesWithin maxShapeDepth s = true) :
    ∃ n k, (∀ n' k', x.program.ZeroSize s s.members n' k' ↔ n' = n ∧ k' = k) ∧
      (x.structShape maxShapeDepth s).alwaysPresent = n + k ∧
      ((x.structShape maxShapeDepth s).alwaysPresent = n ↔ k = 0) := by
  obtain ⟨n, k, size, shape⟩ := exists_zeroSize maxShapeDepth s nested
  refine ⟨n, k, fun n' k' => ⟨size.unique, ?_⟩, shape, by omega⟩
  rintro ⟨rfl, rfl⟩
  exact size

end Extractor

namespace Embedding

def kind : Field where
  name := some "Kind"
  pos := { line := 4, column := 2 }
  doc := []
  type := .ident "string" none []
  tag := some "json:\"kind\""

def common : TypeDecl where
  name := "Common"
  pos := { line := 3, column := 6 }
  doc := []
  isAlias := false
  params := []
  type := .struct [kind]

def embedded (type : TypeExpr) : Field where
  name := none
  pos := { line := 8, column := 2 }
  doc := []
  type := type
  tag := some "json:\",inline\""

def replicas : Field where
  name := some "Replicas"
  pos := { line := 9, column := 2 }
  doc := ["// +optional"]
  type := .ident "int32" none []
  tag := some "json:\"replicas\""

/-- A struct that inlines the one above, as a value or behind a pointer. -/
def spec (name : String) (type : TypeExpr) : TypeDecl where
  name := name
  pos := { line := 7, column := 6 }
  doc := []
  isAlias := false
  params := []
  type := .struct [embedded type, replicas]

def byValue : TypeDecl := spec "Value" (.ident "Common" none [])
def byPointer : TypeDecl := spec "Pointer" (.pointer (.ident "Common" none []))

def package : Package := ⟨"example.com/api", "api", [⟨"api/spec.go", [common, byValue, byPointer]⟩]⟩
def extractor : Extractor := ⟨⟨[package]⟩, .standard⟩
def values : Resolved := extractor.program.resolve (.closed byValue.type package)
def pointers : Resolved := extractor.program.resolve (.closed byPointer.type package)

theorem alwaysPresent_values :
    extractor.program.inlinesWithin maxShapeDepth values = true ∧
    ∃ n k, (∀ n' k', extractor.program.ZeroSize values values.members n' k' ↔ n' = n ∧ k' = k) ∧
      (extractor.structShape maxShapeDepth values).alwaysPresent = n + k ∧
      ((extractor.structShape maxShapeDepth values).alwaysPresent = n ↔ k = 0) := by
  have nested : extractor.program.inlinesWithin maxShapeDepth values = true := by decide +kernel
  exact ⟨nested, Extractor.alwaysPresent_eq_add nested⟩

/-- The members of a nil pointer count as present. -/
theorem alwaysPresent_pointers :
    extractor.program.inlinesWithin maxShapeDepth pointers = true ∧
    extractor.program.ZeroSize pointers pointers.members 1 1 ∧
    (∀ n k, extractor.program.ZeroSize pointers pointers.members n k → n = 1) ∧
    (extractor.structShape maxShapeDepth pointers).alwaysPresent = 2 := by
  have size : extractor.program.ZeroSize pointers pointers.members 1 1 := by
    have members : pointers.members =
      [embedded (.pointer (.ident "Common" none [])), replicas] := by rfl
    rw [members]
    refine .absent (n := 1) (k := 0) (m := 1) (l := 0) (by decide +kernel) (by decide +kernel) rfl
      (by decide +kernel) ?inner ?rest
    case inner =>
      exact .written (f := kind) (n := 0) (by decide +kernel) (by decide +kernel)
        (by decide +kernel) .nil
    case rest =>
      exact .written (n := 0) (by decide +kernel) (by decide +kernel) (by decide +kernel) .nil
  exact ⟨by decide +kernel, size, fun n k h => (size.unique h).1, by decide +kernel⟩

end Embedding
end ApiConventions
