import ApiConventions.Proofs.Resolution.Ends

/-!
# ApiConventions.Proofs.Resolution.Bytes

Slices of bytes. Two loops look at the element of a slice: resolution, and the test for bytes.
The test follows names only, so it stops at an interface with a single term, where resolution
goes on to the term. Where no such interface is on the way the two loops agree.
-/

namespace ApiConventions
namespace Program

variable {p : Program} {t u : TypeRef}

/-! ## Terms on the way -/

/-- Resolution comes to an interface with a single term. -/
def PassesTerm (p : Program) (t : TypeRef) : Prop :=
  ∃ u e, Relation.ReflTransGen (fun a b => p.next? a = some b) t u ∧ u.expr = .interface [e]

theorem passesTerm_iff :
    p.PassesTerm t ↔ (∃ e, t.expr = .interface [e]) ∨ ∃ u, p.next? t = some u ∧ p.PassesTerm u := by
  constructor
  · rintro ⟨v, e, reach, expr⟩
    rcases reach.cases_head with rfl | ⟨u, next, reach'⟩
    · exact .inl ⟨e, expr⟩
    · exact .inr ⟨u, next, v, e, reach', expr⟩
  · rintro (⟨e, expr⟩ | ⟨u, next, v, e, reach, expr⟩)
    · exact ⟨t, e, .refl, expr⟩
    · exact ⟨v, e, .head next reach, expr⟩

theorem not_passesTerm_of_final {kind : Kind} {link : Option Link}
    (h : p.step t = .final kind link) : ¬ p.PassesTerm t := by
  rw [passesTerm_iff]
  rintro (⟨e, expr⟩ | ⟨u, next, -⟩)
  · rw [step, expr] at h
    cases h
  · rw [next?, h] at next
    cases next

/-! ## The two loops -/

/-- At its end the test for bytes answers with the kind that resolution finds. -/
theorem isByteWithin_of_final {kind : Kind} {link : Option Link} (h : p.step t = .final kind link)
    (n : Nat) : p.isByteWithin (n + 1) t = true ↔ kind = .basic .uint8 := by
  cases end_spec h with
  | basic refers => simp [isByteWithin, refers]
  | anyValue refers => simp [isByteWithin, refers]
  | known refers wide => simp [isByteWithin, refers, wide]
  | external refers => simp [isByteWithin, refers]
  | unknown refers => simp [isByteWithin, refers]
  | _ expr => simp [isByteWithin, referent?, expr]

section Names

variable {name : String} {path : Option String} {args : List TypeExpr}
  (expr : t.expr = .ident name path args) (next : p.next? t = some u)

include expr next

/-- A name that leads on is bound or declared. -/
theorem referent_of_next : p.referent? t = some (.param u) ∨
    ∃ P d, p.referent? t = some (.decl P d u) := by
  have spec := p.step_spec t
  rw [next?] at next
  generalize p.step t = s at spec next
  cases spec with
  | pointer he => simp [expr] at he
  | term he => simp [expr] at he
  | param he bound =>
    cases next
    exact .inl (by rw [referent?, he]; simp [unqualified, bound])
  | aliased denotes _ =>
    cases next
    exact .inr ⟨_, _, denotes.referent⟩
  | defined denotes _ =>
    cases next
    exact .inr ⟨_, _, denotes.referent⟩
  | final _ => cases next

/-- The test for bytes follows a name where resolution does. -/
theorem isByteWithin_of_ident (n : Nat) : p.isByteWithin (n + 1) t = p.isByteWithin n u := by
  rcases referent_of_next expr next with hr | ⟨P, d, hr⟩
  · simp [isByteWithin, hr]
  · simp [isByteWithin, hr]

/-- A name adds neither a kind nor a pointer level. -/
theorem resolveWithin_of_ident (n : Nat) :
    (p.resolveWithin (n + 1) t).kind = (p.resolveWithin n u).kind ∧
      (p.resolveWithin (n + 1) t).pointerDepth = (p.resolveWithin n u).pointerDepth := by
  rcases referent_of_next expr next with hr | ⟨P, d, hr⟩
  · simp [resolveWithin, step_of_referent hr, stepReferent]
  · cases ha : d.isAlias <;> simp [resolveWithin, step_of_referent hr, stepReferent, ha]

theorem passesTerm_of_ident : p.PassesTerm t ↔ p.PassesTerm u := by
  rw [passesTerm_iff]
  constructor
  · rintro (⟨e, he⟩ | ⟨v, hv, pass⟩)
    · rw [expr] at he
      cases he
    · rw [next] at hv
      cases hv
      exact pass
  · exact fun pass => .inr ⟨u, next, pass⟩

end Names

/-- What the test for bytes finds out about an element. -/
theorem isByteWithin_iff {n : Nat} (ends : p.endsWithin n t = true) :
    p.isByteWithin n t = true ↔ (p.resolveWithin n t).kind = .basic .uint8 ∧
      (p.resolveWithin n t).pointerDepth = 0 ∧ ¬ p.PassesTerm t := by
  induction n generalizing t with
  | zero => cases ends
  | succ n ih =>
    cases next : p.next? t with
    | none =>
      have last : ∃ kind link, p.step t = .final kind link := by
        rw [next?] at next
        cases hs : p.step t with
        | final kind link => exact ⟨kind, link, rfl⟩
        | _ =>
          rw [hs] at next
          cases next
      obtain ⟨kind, link, hs⟩ := last
      have resolved : (p.resolveWithin (n + 1) t).kind = kind ∧
          (p.resolveWithin (n + 1) t).pointerDepth = 0 := by
        simp [resolveWithin, hs]
      rw [isByteWithin_of_final hs, resolved.1, resolved.2]
      simp [not_passesTerm_of_final hs]
    | some u =>
      rw [endsWithin_of_next next] at ends
      cases expr : t.expr with
      | ident name path args =>
        obtain ⟨kind, depth⟩ := resolveWithin_of_ident expr next n
        rw [isByteWithin_of_ident expr next, kind, depth, passesTerm_of_ident expr next]
        exact ih ends
      | pointer e =>
        -- From here on the test stops where resolution does not, and both sides are false.
        have step : p.step t = .pointer (t.withExpr e) := by rw [Program.step, expr]
        simp [isByteWithin, referent?, expr, resolveWithin, step]
      | interface ts =>
        have pass : p.PassesTerm t := by
          rw [passesTerm_iff]
          rcases ts with - | ⟨e, - | ⟨e', es⟩⟩
          · simp [next?, Program.step, expr] at next
          · exact .inl ⟨e, expr⟩
          · simp [next?, Program.step, expr] at next
        simp [isByteWithin, referent?, expr, pass]
      | _ => simp [next?, Program.step, expr] at next

/-- The test for bytes says yes only where resolution ends. -/
theorem endsWithin_of_isByteWithin {n : Nat} (h : p.isByteWithin n t = true) :
    p.endsWithin n t = true := by
  induction n generalizing t with
  | zero => cases h
  | succ n ih =>
    rw [isByteWithin] at h
    rw [endsWithin]
    split at h
    · rename_i target refers
      rw [step_of_referent refers]
      exact ih h
    · rename_i P d body refers
      rw [step_of_referent refers, stepReferent]
      cases d.isAlias with
      | true => exact ih h
      | false => exact ih h
    · rename_i kind refers
      rw [step_of_referent refers]
      rfl
    · cases h

theorem ends_of_isByteSlice (bytes : (p.resolve t).isByteSlice = true) :
    p.endsWithin maxSteps t = true := by
  rw [← Bool.not_eq_false]
  intro beyond
  have none := (resolveWithin_of_not_endsWithin beyond).2
  rw [resolve, none] at bytes
  cases bytes

/-- The elements of a slice of bytes are bytes. -/
theorem kind_of_isByteSlice (bytes : (p.resolve t).isByteSlice = true)
    (elem : (p.resolve t).elem? = some u) : (p.resolve u).kind = .basic .uint8 := by
  obtain ⟨link, -, same⟩ := resolveWithin_end (ends_of_isByteSlice bytes)
  have bytes : p.isByteSlice (p.resolve t).underlying = true := same.symm.trans bytes
  rw [isByteSlice] at bytes
  rw [Resolved.elem?] at elem
  split at bytes
  · rename_i e expr
    rw [expr] at elem
    cases elem
    exact ((isByteWithin_iff (endsWithin_of_isByteWithin bytes)).1 bytes).1
  · cases bytes

/--
A slice is called a slice of bytes when its element resolves to a byte behind no pointer and past
no interface with a single term.
-/
theorem isByteSlice_iff (ends : p.endsWithin maxSteps t = true)
    (elemEnds : ∀ u, (p.resolve t).kind = .slice → (p.resolve t).elem? = some u →
      p.endsWithin maxSteps u = true) :
    (p.resolve t).isByteSlice = true ↔ (p.resolve t).kind = .slice ∧
      ∃ u, (p.resolve t).elem? = some u ∧ (p.resolve u).kind = .basic .uint8 ∧
        (p.resolve u).pointerDepth = 0 ∧ ¬ p.PassesTerm u := by
  obtain ⟨link, spec, bytes⟩ := resolveWithin_end ends
  have bytes : (p.resolve t).isByteSlice = p.isByteSlice (p.resolve t).underlying := bytes
  have spec : p.EndSpec (p.resolve t).underlying (p.resolve t).kind link := spec
  rw [bytes]
  generalize (p.resolve t).kind = kind at spec elemEnds ⊢
  cases spec with
  | @slice e expr =>
    have elem : (p.resolve t).elem? = some ((p.resolve t).underlying.withExpr e) := by
      rw [Resolved.elem?, expr]
    have loops := isByteWithin_iff (elemEnds _ rfl elem)
    rw [isByteSlice, expr]
    simp only [elem, true_and, Option.some.injEq, exists_eq_left']
    exact loops
  | basic refers => simp [isByteSlice_of_referent refers]
  | anyValue refers => simp [isByteSlice_of_referent refers]
  | known refers _ => simp [isByteSlice_of_referent refers]
  | external refers => simp [isByteSlice_of_referent refers]
  | unknown refers => simp [isByteSlice_of_referent refers]
  | _ expr => simp [isByteSlice, expr]

end Program

namespace Octets

def octet : TypeDecl where
  name := "Octet"
  pos := { line := 3, column := 6 }
  doc := []
  isAlias := false
  params := []
  type := .ident "byte" none []

/-- A list of anything. -/
def buffer : TypeDecl where
  name := "Buffer"
  pos := { line := 5, column := 6 }
  doc := []
  isAlias := false
  params := [⟨"T", .ident "any" none []⟩]
  type := .slice (.ident "T" none [])

/-- A list of bytes, in which the parameter stands for its only term. -/
def packet : TypeDecl where
  name := "Packet"
  pos := { line := 7, column := 6 }
  doc := []
  isAlias := false
  params := [⟨"B", .interface [.ident "byte" none []]⟩]
  type := .slice (.ident "B" none [])

def package : Package :=
  ⟨"example.com/api", "api", [⟨"api/octets.go", [octet, buffer, packet]⟩]⟩

def program : Program := ⟨[package]⟩

def octets : TypeRef := .closed (.ident "Buffer" none [.ident "Octet" none []]) package
def packets : TypeRef := ⟨packet.type, package, packet.scopeBindings package⟩

theorem isByteSlice_octets :
    (program.endsWithin maxSteps octets = true ∧
      ∀ u, (program.resolve octets).kind = .slice → (program.resolve octets).elem? = some u →
        program.endsWithin maxSteps u = true) ∧
    (program.resolve octets).isByteSlice = true ∧
    ∃ u, (program.resolve octets).elem? = some u ∧ (program.resolve u).kind = .basic .uint8 ∧
      (program.resolve u).pointerDepth = 0 ∧ ¬ program.PassesTerm u := by
  have ends : program.endsWithin maxSteps octets = true := by decide +kernel
  have elemEnds : ∀ u, (program.resolve octets).kind = .slice →
      (program.resolve octets).elem? = some u → program.endsWithin maxSteps u = true := by
    intro u _ hu
    cases hu
    decide +kernel
  have bytes : (program.resolve octets).isByteSlice = true := by decide +kernel
  exact ⟨⟨ends, elemEnds⟩, bytes, ((Program.isByteSlice_iff ends elemEnds).1 bytes).2⟩

/-- A slice whose element resolves to a byte, and which is not called a slice of bytes. -/
theorem not_isByteSlice_packets :
    program.endsWithin maxSteps packets = true ∧ (program.resolve packets).kind = .slice ∧
    (∃ u, (program.resolve packets).elem? = some u ∧ program.endsWithin maxSteps u = true ∧
      (program.resolve u).kind = .basic .uint8 ∧ (program.resolve u).pointerDepth = 0) ∧
    (program.resolve packets).isByteSlice = false := by
  refine ⟨by decide +kernel, by decide +kernel, ⟨_, rfl, ?ends, ?kind, ?depth⟩, by decide +kernel⟩
  case ends => decide +kernel
  case kind => decide +kernel
  case depth => decide +kernel

end Octets
end ApiConventions
