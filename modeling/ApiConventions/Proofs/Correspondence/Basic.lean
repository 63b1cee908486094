import ApiConventions.Proofs.Correspondence.Lists
import ApiConventions.Proofs.Resolution.Limit

/-!
# ApiConventions.Proofs.Correspondence.Basic

References that go together in two programs. A correspondence fixes which packages, declarations
and members of the two programs go together, and which names are looked up on both sides.

* `Ref`      — references that go together, by the structure of their expressions.
* `Lawful`   — what the tables of a correspondence owe: names that are looked up lead to
  declarations whose bodies go together, under all arguments that go together.
* `Alike`    — what two references have in common at one step.
* `advance`  — the step lemma: references that go together are alike, or the right one stands
  behind a parameter or an alias that the left one does not have.

Such a detour is the only freedom. A correspondence without detours relates programs in lockstep.
-/

namespace ApiConventions

/-- Of packages that go together in order, the ones loaded last under a path go together. -/
theorem Program.package?_rel {p p' : Program} {R : Package → Package → Prop}
    (h : List.Forall₂ R p.packages p'.packages) (hpath : ∀ P P', R P P' → P.path = P'.path)
    (path : String) : Option.Rel R (p.package? path) (p'.package? path) := by
  rw [package?, package?, List.findRev?_eq_find?_reverse, List.findRev?_eq_find?_reverse]
  exact find?_rel (List.forall₂_reverse_iff.2 h) fun P P' hP => by rw [hpath P P' hP]

/-- What goes together in two programs. -/
structure Correspondence where
  left : Program
  right : Program
  packages : Package → Package → Prop
  decls : TypeDecl → TypeDecl → Prop
  members : Field → Field → Prop
  /-- The members whose types go together as well. -/
  tracked : Field → Prop
  /-- The names that are looked up on both sides. -/
  names : String → Prop
  /-- Whether the right side may look through names that the left side does not have. -/
  detours : Prop

namespace Correspondence

/-- One constructor on both sides, with parts in the relation `R`. -/
inductive Shape (c : Correspondence) (R : TypeRef → TypeRef → Prop) : TypeRef → TypeRef → Prop where
  | pointer {P P' b b'} {e e' : TypeExpr} (elem : R ⟨e, P, b⟩ ⟨e', P', b'⟩) :
      Shape c R ⟨.pointer e, P, b⟩ ⟨.pointer e', P', b'⟩
  | slice {P P' b b'} {e e' : TypeExpr} (elem : R ⟨e, P, b⟩ ⟨e', P', b'⟩) :
      Shape c R ⟨.slice e, P, b⟩ ⟨.slice e', P', b'⟩
  | array {P P' b b'} {n : UInt64} {e e' : TypeExpr} (elem : R ⟨e, P, b⟩ ⟨e', P', b'⟩) :
      Shape c R ⟨.array n e, P, b⟩ ⟨.array n e', P', b'⟩
  | chan {P P' b b'} {e e' : TypeExpr} (elem : R ⟨e, P, b⟩ ⟨e', P', b'⟩) :
      Shape c R ⟨.chan e, P, b⟩ ⟨.chan e', P', b'⟩
  | map {P P' b b'} {k k' v v' : TypeExpr} (key : R ⟨k, P, b⟩ ⟨k', P', b'⟩)
      (value : R ⟨v, P, b⟩ ⟨v', P', b'⟩) : Shape c R ⟨.map k v, P, b⟩ ⟨.map k' v', P', b'⟩
  | struct {P P' b b'} {fs fs' : List Field} (members : List.Forall₂ c.members fs fs')
      (types : ∀ q ∈ fs.zip fs', c.tracked q.1 → R ⟨q.1.type, P, b⟩ ⟨q.2.type, P', b'⟩) :
      Shape c R ⟨.struct fs, P, b⟩ ⟨.struct fs', P', b'⟩
  | interface {P P' b b'} {ts ts' : List TypeExpr}
      (terms : List.Forall₂ R (ts.map (⟨·, P, b⟩)) (ts'.map (⟨·, P', b'⟩))) :
      Shape c R ⟨.interface ts, P, b⟩ ⟨.interface ts', P', b'⟩
  | func {P P' b b'} : Shape c R ⟨.func, P, b⟩ ⟨.func, P', b'⟩

/-- References that go together. -/
inductive Ref (c : Correspondence) : TypeRef → TypeRef → Prop where
  | detour {t t' u : TypeRef} (allowed : c.detours) (h : c.right.lookThrough? t' = some u)
      (rest : Ref c t u) : Ref c t t'
  | name {P P' b b'} {name : String} {path : Option String} {args args' : List TypeExpr}
      (known : c.names name) (package : c.packages P P')
      (arguments : List.Forall₂ (Ref c) (args.map (⟨·, P, b⟩)) (args'.map (⟨·, P', b'⟩)))
      (param : path = none → args = [] → Option.Rel (Ref c) (b.lookup name) (b'.lookup name)) :
      Ref c ⟨.ident name path args, P, b⟩ ⟨.ident name path args', P', b'⟩
  | shape {t t' : TypeRef} (h : Shape c (Ref c) t t') : Ref c t t'

structure Links (c : Correspondence) (l l' : Link) : Prop where
  package : l.package = l'.package
  name : l.name = l'.name
  decl : Option.Rel c.decls l.decl l'.decl

inductive Referents (c : Correspondence) : Referent → Referent → Prop where
  | param {u u' : TypeRef} (h : c.Ref u u') : Referents c (.param u) (.param u')
  | decl {P P' : Package} {d d' : TypeDecl} {b b' : TypeRef} (package : c.packages P P')
      (decl : c.decls d d') (body : c.Ref b b') : Referents c (.decl P d b) (.decl P' d' b')
  | predeclared (k : Kind) : Referents c (.predeclared k) (.predeclared k)
  | known {l : Link} (o : Option BasicKind) (h : l.decl = none) :
      Referents c (.known l o) (.known l o)
  | unknown {l : Link} (h : l.decl = none) : Referents c (.unknown l) (.unknown l)

/-- What two references have in common at one step. -/
inductive Alike (c : Correspondence) (t t' : TypeRef) : Prop where
  | name {ρ ρ' : Referent} (left : c.left.referent? t = some ρ)
      (right : c.right.referent? t' = some ρ') (referents : c.Referents ρ ρ')
  | shape (h : c.Shape c.Ref t t')

/-- What the tables of a correspondence owe. -/
structure Lawful (c : Correspondence) : Prop where
  path {P P' : Package} : c.packages P P' → P.path = P'.path
  package (path : String) : Option.Rel c.packages (c.left.package? path) (c.right.package? path)
  lookup {P P' : Package} {name : String} : c.packages P P' → c.names name →
    Option.Rel c.decls (P.decl? name) (P'.decl? name)
  name {d d' : TypeDecl} : c.decls d d' → d.name = d'.name
  isAlias {d d' : TypeDecl} : c.decls d d' → d.isAlias = d'.isAlias
  body {P P' : Package} {name : String} {d d' : TypeDecl} {s s' : TypeRef}
    {args args' : List TypeExpr} : c.packages P P' → c.names name → P.decl? name = some d →
    P'.decl? name = some d' →
    List.Forall₂ c.Ref (args.map s.withExpr) (args'.map s'.withExpr) →
    c.Ref ⟨d.type, P, d.instantiate P args s⟩ ⟨d'.type, P', d'.instantiate P' args' s'⟩

/-- Whether declarations that go together have the same comments. -/
def Documented (c : Correspondence) : Prop :=
  ∀ d d', c.decls d d' → d.doc = d'.doc

/-! ## The step lemma -/

variable {c : Correspondence}

theorem Lawful.decl_referents (hc : c.Lawful) {P P' : Package} {name : String}
    {d d' : TypeDecl} {t t' : TypeRef} {args args' : List TypeExpr} (hp : c.packages P P')
    (hn : c.names name) (hd : P.decl? name = some d) (hd' : P'.decl? name = some d')
    (ha : List.Forall₂ c.Ref (args.map t.withExpr) (args'.map t'.withExpr)) :
    c.Referents (Program.declReferent P d args t) (Program.declReferent P' d' args' t') := by
  refine .decl hp ?_ (hc.body hp hn hd hd' ha)
  have h := hc.lookup hp hn
  rw [hd, hd'] at h
  cases h with
  | some h => exact h

theorem Lawful.unqualified_referents (hc : c.Lawful) {t t' : TypeRef} {name : String}
    {args args' : List TypeExpr} (hn : c.names name) (hp : c.packages t.package t'.package)
    (ha : List.Forall₂ c.Ref (args.map t.withExpr) (args'.map t'.withExpr))
    (hb : args = [] → Option.Rel c.Ref (t.bindings.lookup name) (t'.bindings.lookup name)) :
    c.Referents (Program.unqualified t name args) (Program.unqualified t' name args') := by
  -- The bound parameter is only looked up without arguments, on both sides or on neither.
  have hparam : Option.Rel c.Ref (if args.isEmpty then t.bindings.lookup name else none)
      (if args'.isEmpty then t'.bindings.lookup name else none) := by
    have hlen := ha.length_eq
    cases args with
    | nil =>
      cases args' with
      | nil => exact hb rfl
      | cons a as => simp at hlen
    | cons a as =>
      cases args' with
      | nil => simp at hlen
      | cons a' as' => exact .none
  simp only [Program.unqualified]
  generalize (if args.isEmpty then t.bindings.lookup name else none) = x at hparam ⊢
  generalize (if args'.isEmpty then t'.bindings.lookup name else none) = x' at hparam ⊢
  cases hparam with
  | some h => exact .param h
  | none =>
    rcases option_rel_cases (hc.lookup hp hn) with ⟨hd, hd'⟩ | ⟨d, d', hd, hd', -⟩
    · rw [hd, hd', hc.path hp]
      cases Kind.predeclared? name with
      | some k => exact .predeclared k
      | none => exact .unknown rfl
    · rw [hd, hd']
      exact hc.decl_referents hp hn hd hd' ha

theorem Lawful.qualified_referents (hc : c.Lawful) {t t' : TypeRef} {path name : String}
    {args args' : List TypeExpr} (hn : c.names name)
    (ha : List.Forall₂ c.Ref (args.map t.withExpr) (args'.map t'.withExpr)) :
    c.Referents (c.left.qualified t path name args) (c.right.qualified t' path name args') := by
  simp only [Program.qualified]
  rcases option_rel_cases (hc.package path) with ⟨hP, hP'⟩ | ⟨P, P', hP, hP', hp⟩
  · rw [hP, hP']
    cases knownType? path name with
    | some o => exact .known o rfl
    | none => exact .unknown rfl
  · rw [hP, hP', Option.bind_some, Option.bind_some]
    rcases option_rel_cases (hc.lookup hp hn) with ⟨hd, hd'⟩ | ⟨d, d', hd, hd', -⟩
    · rw [hd, hd']
      cases knownType? path name with
      | some o => exact .known o rfl
      | none => exact .unknown rfl
    · rw [hd, hd']
      exact hc.decl_referents hp hn hd hd' ha

/-- References that go together are alike, or the right one makes a detour. -/
theorem Ref.advance (hc : c.Lawful) {t t' : TypeRef} (h : c.Ref t t') :
    (c.detours ∧ ∃ u, c.right.lookThrough? t' = some u ∧ c.Ref t u) ∨ c.Alike t t' := by
  cases h with
  | detour allowed h rest => exact .inl ⟨allowed, _, h, rest⟩
  | shape h => exact .inr (.shape h)
  | @name P P' b b' name path args args' known package ha param =>
    right
    cases path with
    | none => exact .name rfl rfl (hc.unqualified_referents known package ha (param rfl))
    | some path => exact .name rfl rfl (hc.qualified_referents known ha)

theorem Ref.alike (hc : c.Lawful) (hd : ¬ c.detours) {t t' : TypeRef} (h : c.Ref t t') :
    c.Alike t t' := by
  rcases h.advance hc with ⟨allowed, -⟩ | h
  · exact absurd allowed hd
  · exact h

end Correspondence
end ApiConventions
