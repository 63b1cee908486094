import ApiConventions.Proofs.Resolution.Unfolding

/-!
# ApiConventions.Proofs.Resolution.Ends

Where a resolution ends. `EndSpec` lists the last steps: a composite type is its own kind, and a
name that leads nowhere is basic, an interface or opaque. So a resolution that finds a list or a
struct has stopped at the expression of one.
-/

namespace ApiConventions
namespace Program

variable {p : Program} {t : TypeRef} {kind : Kind} {link : Option Link}

/-- What the last step of a resolution can be, and where. -/
inductive EndSpec (p : Program) (t : TypeRef) : Kind → Option Link → Prop where
  | slice {e : TypeExpr} (expr : t.expr = .slice e) : EndSpec p t .slice none
  | array {n : UInt64} {e : TypeExpr} (expr : t.expr = .array n e) : EndSpec p t .array none
  | map {k v : TypeExpr} (expr : t.expr = .map k v) : EndSpec p t .map none
  | struct {fs : List Field} (expr : t.expr = .struct fs) : EndSpec p t .struct none
  | interface {ts : List TypeExpr} (expr : t.expr = .interface ts) : EndSpec p t .interface none
  | func (expr : t.expr = .func) : EndSpec p t .func none
  | chan {e : TypeExpr} (expr : t.expr = .chan e) : EndSpec p t .chan none
  | basic {b : BasicKind} (refers : p.referent? t = some (.predeclared (.basic b))) :
      EndSpec p t (.basic b) none
  | anyValue (refers : p.referent? t = some (.predeclared .interface)) : EndSpec p t .interface none
  | known {l : Link} {b : BasicKind} (refers : p.referent? t = some (.known l (some b)))
      (wide : b ≠ .uint8) : EndSpec p t (.basic b) (some l)
  | external {l : Link} (refers : p.referent? t = some (.known l none)) :
      EndSpec p t .opaqueType (some l)
  | unknown {l : Link} (refers : p.referent? t = some (.unknown l)) :
      EndSpec p t .opaqueType (some l)

theorem predeclared?_simple {name : String} (h : Kind.predeclared? name = some kind) :
    kind = .interface ∨ ∃ b, kind = .basic b := by
  rw [Kind.predeclared?] at h
  split at h
  · cases h
    exact .inl rfl
  · obtain ⟨b, -, rfl⟩ := Option.map_eq_some_iff.1 h
    exact .inr ⟨b, rfl⟩

/-- No well-known type is a byte. -/
theorem knownType?_ne {package name : String} {basic : Option BasicKind}
    (h : knownType? package name = some basic) : basic ≠ some .uint8 := by
  have wide : ∀ entry ∈ knownTypes, entry.2.2 ≠ some BasicKind.uint8 := by decide
  obtain ⟨entry, found, rfl⟩ := Option.map_eq_some_iff.1 h
  exact wide entry (List.mem_of_find?_eq_some found)

/-- What is known of the types that no program declares. -/
def ofBuiltin : Referent → Prop
  | .predeclared kind => kind = .interface ∨ ∃ b, kind = .basic b
  | .known _ basic => basic ≠ some .uint8
  | _ => True

theorem ofBuiltin_of_referent {ρ : Referent} (h : p.referent? t = some ρ) : ofBuiltin ρ := by
  rw [referent?] at h
  split at h
  · cases h
    rw [unqualified]
    split
    · trivial
    · split
      · trivial
      · split
        · rename_i found
          exact predeclared?_simple found
        · trivial
  · cases h
    rw [qualified]
    split
    · trivial
    · split
      · rename_i found
        exact knownType?_ne found
      · trivial
  · cases h

theorem end_spec (h : p.step t = .final kind link) : p.EndSpec t kind link := by
  cases hr : p.referent? t with
  | some ρ =>
    rw [step_of_referent hr] at h
    cases ρ with
    | param u => cases h
    | decl P d body =>
      rw [stepReferent] at h
      split at h <;> cases h
    | predeclared k =>
      cases h
      rcases ofBuiltin_of_referent hr with rfl | ⟨b, rfl⟩
      · exact .anyValue hr
      · exact .basic hr
    | known l basic =>
      cases h
      have wide := ofBuiltin_of_referent hr
      cases basic with
      | none => exact .external hr
      | some b => exact .known hr fun hb => wide (by rw [hb])
    | unknown l =>
      cases h
      exact .unknown hr
  | none =>
    cases he : t.expr with
    | ident name path args => cases path <;> simp [referent?, he] at hr
    | pointer e => simp [step, he] at h
    | interface ts =>
      rcases ts with - | ⟨e, - | ⟨e', es⟩⟩
      · simp only [step, he] at h
        cases h
        exact .interface he
      · simp [step, he] at h
      · simp only [step, he] at h
        cases h
        exact .interface he
    | slice e =>
      rw [step, he] at h
      cases h
      exact .slice he
    | array n e =>
      rw [step, he] at h
      cases h
      exact .array he
    | map k v =>
      rw [step, he] at h
      cases h
      exact .map he
    | struct fs =>
      rw [step, he] at h
      cases h
      exact .struct he
    | func =>
      rw [step, he] at h
      cases h
      exact .func he
    | chan e =>
      rw [step, he] at h
      cases h
      exact .chan he

/-- The end that a resolution has reached. -/
theorem resolveWithin_end {n : Nat} (ends : p.endsWithin n t = true) :
    ∃ link, p.EndSpec (p.resolveWithin n t).underlying (p.resolveWithin n t).kind link ∧
      (p.resolveWithin n t).isByteSlice = p.isByteSlice (p.resolveWithin n t).underlying := by
  induction n generalizing t with
  | zero => cases ends
  | succ n ih =>
    rw [endsWithin] at ends
    rw [resolveWithin]
    cases hs : p.step t with
    | pointer u =>
      rw [hs] at ends
      exact ih ends
    | transparent u =>
      rw [hs] at ends
      exact ih ends
    | defined l u =>
      rw [hs] at ends
      exact ih ends
    | final kind link => exact ⟨link, end_spec hs, rfl⟩

/-- Only a resolution that ends finds a kind. -/
theorem ends_of_kind (h : (p.resolve t).kind ≠ .opaqueType) : p.endsWithin maxSteps t = true := by
  cases ends : p.endsWithin maxSteps t with
  | true => rfl
  | false => exact absurd (resolveWithin_of_not_endsWithin ends).1 h

theorem end_of_kind (h : (p.resolve t).kind ≠ .opaqueType) :
    ∃ link, p.EndSpec (p.resolve t).underlying (p.resolve t).kind link := by
  obtain ⟨link, spec, -⟩ := resolveWithin_end (ends_of_kind h)
  exact ⟨link, spec⟩

/-- A list has elements. -/
theorem elem_of_isList (h : (p.resolve t).kind.isList = true) :
    ∃ u, (p.resolve t).elem? = some u := by
  obtain ⟨link, spec⟩ := end_of_kind (p := p) (t := t) (fun hk => by rw [hk] at h; cases h)
  rw [Resolved.elem?]
  generalize (p.resolve t).kind = kind at h spec
  cases spec with
  | slice expr => exact ⟨_, by rw [expr]⟩
  | array expr => exact ⟨_, by rw [expr]⟩
  | _ => cases h

end Program
end ApiConventions
