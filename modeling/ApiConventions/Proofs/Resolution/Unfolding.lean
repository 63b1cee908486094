import Mathlib.Logic.Relation
import ApiConventions.Proofs.Resolution.Limit

/-!
# ApiConventions.Proofs.Resolution.Unfolding

Resolution by parts. A type name `Denotes` a declaration as the scope rules have it, and
`StepSpec` lists what a step can do. From these, `resolve_compositional`: a resolution within the step
limit is that of the next reference with one pointer level more, with one link more in front of
the chain, or as it is; the chain is one of defined types, with at most one type outside the
program at its end; and a resolution beyond the limit, as that of every cycle, is opaque.
-/

namespace ApiConventions

/-- What a defined type adds to a chain. -/
def TypeDecl.link (d : TypeDecl) (P : Package) : Link :=
  { package := P.path, name := d.name, decl := some d }

/-- The right-hand side of a declaration, for arguments written at a reference. -/
def TypeRef.bodyOf (t : TypeRef) (P : Package) (d : TypeDecl) (args : List TypeExpr) : TypeRef :=
  { expr := d.type, package := P, bindings := d.instantiate P args t }

namespace Program

variable {p : Program} {t u : TypeRef} {P : Package} {d : TypeDecl} {args : List TypeExpr}

/-! ## The scope rules -/

/-- A reference that is the name of a declaration, applied to arguments. -/
inductive Denotes (p : Program) (t : TypeRef) : Package → TypeDecl → List TypeExpr → Prop where
  /-- The name of a declaration of the own package, which no parameter hides. -/
  | own {name : String} {args : List TypeExpr} {d : TypeDecl}
      (expr : t.expr = .ident name none args)
      (free : args = [] → t.bindings.lookup name = none)
      (declared : t.package.decl? name = some d) : Denotes p t t.package d args
  /-- The name of a declaration of the package whose path stands in front. -/
  | imported {path name : String} {args : List TypeExpr} {P : Package} {d : TypeDecl}
      (expr : t.expr = .ident name (some path) args) (package : p.package? path = some P)
      (declared : P.decl? name = some d) : Denotes p t P d args

namespace Denotes

theorem name_eq {name : String} (h : P.decl? name = some d) : d.name = name := by
  have found := List.find?_some h
  exact eq_of_beq found

theorem declared (h : p.Denotes t P d args) : P.decl? d.name = some d := by
  cases h with
  | own _ _ hd => rw [name_eq hd]; exact hd
  | imported _ _ hd => rw [name_eq hd]; exact hd

theorem referent (h : p.Denotes t P d args) :
    p.referent? t = some (.decl P d (t.bodyOf P d args)) := by
  cases h with
  | own expr free hd =>
    rw [referent?, expr]
    simp only [unqualified]
    split
    · rename_i target hl
      split at hl
      · rename_i hargs
        rw [free (List.isEmpty_iff.1 hargs)] at hl
        cases hl
      · cases hl
    · rw [hd]; rfl
  | imported expr hP hd =>
    rw [referent?, expr]
    simp only [qualified, hP, Option.bind_some, hd, Option.map_some]
    rfl

theorem step (h : p.Denotes t P d args) : p.step t =
    if d.isAlias then .transparent (t.bodyOf P d args)
    else .defined (d.link P) (t.bodyOf P d args) := by
  rw [step_of_referent h.referent]; rfl

end Denotes

theorem step_of_param {name : String} (expr : t.expr = .ident name none [])
    (bound : t.bindings.lookup name = some u) : p.step t = .transparent u := by
  have h : p.referent? t = some (.param u) := by
    rw [referent?, expr]
    simp [unqualified, bound]
  rw [step_of_referent h]; rfl

/-! ## One step -/

/-- What a step can do, and where. -/
inductive StepSpec (p : Program) (t : TypeRef) : Step → Prop where
  | pointer {e : TypeExpr} (expr : t.expr = .pointer e) : StepSpec p t (.pointer (t.withExpr e))
  | term {e : TypeExpr} (expr : t.expr = .interface [e]) :
      StepSpec p t (.transparent (t.withExpr e))
  | param {name : String} {u : TypeRef} (expr : t.expr = .ident name none [])
      (bound : t.bindings.lookup name = some u) : StepSpec p t (.transparent u)
  | aliased {P : Package} {d : TypeDecl} {args : List TypeExpr} (denotes : p.Denotes t P d args)
      (old : d.isAlias = true) : StepSpec p t (.transparent (t.bodyOf P d args))
  | defined {P : Package} {d : TypeDecl} {args : List TypeExpr} (denotes : p.Denotes t P d args)
      (new : d.isAlias = false) : StepSpec p t (.defined (d.link P) (t.bodyOf P d args))
  | final {kind : Kind} {link : Option Link} (outside : ∀ l ∈ link, l.decl = none) :
      StepSpec p t (.final kind link)

theorem Denotes.spec (h : p.Denotes t P d args) : p.StepSpec t (p.step t) := by
  rw [h.step]
  by_cases ha : d.isAlias = true
  · rw [if_pos ha]; exact .aliased h ha
  · rw [if_neg ha]; exact .defined h (Bool.eq_false_iff.2 ha)

/-- A name that denotes no declaration is bound, or outside the program. -/
theorem step_spec_ident {name : String} {path : Option String} {args : List TypeExpr}
    (expr : t.expr = .ident name path args) : p.StepSpec t (p.step t) := by
  cases path with
  | none =>
    by_cases hb : args = [] ∧ (t.bindings.lookup name).isSome
    · obtain ⟨rfl, hl⟩ := hb
      obtain ⟨u, hu⟩ := Option.isSome_iff_exists.1 hl
      rw [step_of_param expr hu]
      exact .param expr hu
    · have free : args = [] → t.bindings.lookup name = none := by
        intro hargs
        cases hl : t.bindings.lookup name with
        | none => rfl
        | some u => exact absurd ⟨hargs, by rw [hl]; rfl⟩ hb
      cases hd : t.package.decl? name with
      | some d => exact (Denotes.own expr free hd).spec
      | none =>
        have hl : (if args.isEmpty then t.bindings.lookup name else none) = none := by
          cases args with
          | nil => exact free rfl
          | cons a as => rfl
        rw [step, expr]
        simp only [referent?, expr, unqualified, hl, hd, Option.elim]
        cases Kind.predeclared? name with
        | some kind => exact .final (by simp)
        | none => exact .final (by simp)
  | some path =>
    cases found : (p.package? path).bind fun P => (P.decl? name).map (P, ·) with
    | some q =>
      obtain ⟨P, hP, hq⟩ := Option.bind_eq_some_iff.1 found
      obtain ⟨d, hd, rfl⟩ := Option.map_eq_some_iff.1 hq
      exact (Denotes.imported expr hP hd).spec
    | none =>
      rw [step, expr]
      simp only [referent?, expr, qualified, found, Option.elim]
      cases knownType? path name with
      | some basic => exact .final (by simp)
      | none => exact .final (by simp)

theorem step_spec (p : Program) (t : TypeRef) : p.StepSpec t (p.step t) := by
  cases he : t.expr with
  | ident name path args => exact step_spec_ident he
  | pointer e => rw [step, he]; exact .pointer he
  | interface ts =>
    rw [step, he]
    split
    · rename_i h; cases h
    · rename_i h; cases h
    · rename_i e h; cases h; exact .term he
    all_goals exact .final (by simp)
  | slice e => rw [step, he]; exact .final (by simp)
  | array n e => rw [step, he]; exact .final (by simp)
  | map k v => rw [step, he]; exact .final (by simp)
  | struct fs => rw [step, he]; exact .final (by simp)
  | func => rw [step, he]; exact .final (by simp)
  | chan e => rw [step, he]; exact .final (by simp)

/-- Only at a declaration does a step lead to a defined type. -/
theorem referent_of_step_defined {link : Link} (h : p.step t = .defined link u) :
    ∃ P d, p.referent? t = some (.decl P d u) ∧ link.decl = some d := by
  have spec := p.step_spec t
  rw [h] at spec
  cases spec with
  | defined denotes _ => exact ⟨_, _, denotes.referent, rfl⟩

/-- At the end of a resolution there is no declaration. -/
theorem decl_of_step_final {kind : Kind} {link : Link} (h : p.step t = .final kind (some link)) :
    link.decl = none := by
  have spec := p.step_spec t
  rw [h] at spec
  cases spec with
  | final outside => exact outside link rfl

/-! ## Unfolding -/

/-- The reference that a step leads to, unless the step is the last one. -/
def next? (p : Program) (t : TypeRef) : Option TypeRef :=
  match p.step t with
  | .pointer target => some target
  | .transparent target => some target
  | .defined _ target => some target
  | .final _ _ => none

theorem endsWithin_of_next (h : p.next? t = some u) (n : Nat) :
    p.endsWithin (n + 1) t = p.endsWithin n u := by
  rw [endsWithin]
  rw [next?] at h
  cases hs : p.step t with
  | pointer target => rw [hs] at h; cases h; rfl
  | transparent target => rw [hs] at h; cases h; rfl
  | defined link target => rw [hs] at h; cases h; rfl
  | final kind link => rw [hs] at h; cases h

/-- Unfolding never comes to an end: it stays among references each of which leads to another. -/
def UnfoldsForever (p : Program) (t : TypeRef) : Prop :=
  ∃ among : TypeRef → Prop, among t ∧ ∀ u, among u → ∃ v, p.next? u = some v ∧ among v

/-- A reference that comes back to itself, reached from another one. -/
theorem unfoldsForever_of_cycle (reach : Relation.ReflTransGen (fun a b => p.next? a = some b) t u)
    (cycle : Relation.TransGen (fun a b => p.next? a = some b) u u) : p.UnfoldsForever t := by
  refine ⟨fun v => Relation.ReflTransGen (fun a b => p.next? a = some b) v u, reach, ?_⟩
  intro v hv
  rcases Relation.ReflTransGen.cases_head hv with rfl | ⟨w, hw, hwu⟩
  · exact Relation.TransGen.head'_iff.1 cycle
  · exact ⟨w, hw, hwu⟩

theorem not_endsWithin_of_unfoldsForever (h : p.UnfoldsForever t) (n : Nat) :
    p.endsWithin n t = false := by
  obtain ⟨among, ht, closed⟩ := h
  induction n generalizing t with
  | zero => rfl
  | succ n ih =>
    obtain ⟨u, hu, hau⟩ := closed t ht
    rw [endsWithin_of_next hu, ih hau]

/-! ## Resolution by parts -/

/-- A resolution is that of the next reference, and what the step adds to it. -/
structure ResolvesByParts (p : Program) (t : TypeRef) : Prop where
  pointer : ∀ e, t.expr = .pointer e → p.resolve t =
    { p.resolve (t.withExpr e) with
      pointerDepth := (p.resolve (t.withExpr e)).pointerDepth + 1 }
  param : ∀ name u, t.expr = .ident name none [] → t.bindings.lookup name = some u →
    p.resolve t = p.resolve u
  aliased : ∀ P d args, p.Denotes t P d args → d.isAlias = true →
    p.resolve t = p.resolve (t.bodyOf P d args)
  defined : ∀ P d args, p.Denotes t P d args → d.isAlias = false → p.resolve t =
    { p.resolve (t.bodyOf P d args) with
      chain := d.link P :: (p.resolve (t.bodyOf P d args)).chain }
  term : ∀ e, t.expr = .interface [e] → p.resolve t = p.resolve (t.withExpr e)

section Ends

variable (ends : p.endsWithin maxSteps t = true)

include ends in
/-- The step takes one of the turns, and the others are enough for what it leads to. -/
theorem resolveWithin_next (h : p.next? t = some u) : p.resolveWithin 63 u = p.resolve u := by
  have hn : p.endsWithin 63 u = true := by
    rw [← endsWithin_of_next h]
    exact ends
  exact (resolveWithin_succ hn).symm

include ends in
theorem resolve_of_step_pointer (h : p.step t = .pointer u) :
    p.resolve t = { p.resolve u with pointerDepth := (p.resolve u).pointerDepth + 1 } := by
  have hu := resolveWithin_next ends (by rw [next?, h] : p.next? t = some u)
  rw [resolve, maxSteps, resolveWithin, h]
  simp only [hu]

include ends in
theorem resolve_of_step_transparent (h : p.step t = .transparent u) :
    p.resolve t = p.resolve u := by
  have hu := resolveWithin_next ends (by rw [next?, h] : p.next? t = some u)
  rw [resolve, maxSteps, resolveWithin, h]
  simp only [hu]

include ends in
theorem resolve_of_step_defined {link : Link} (h : p.step t = .defined link u) :
    p.resolve t = { p.resolve u with chain := link :: (p.resolve u).chain } := by
  have hu := resolveWithin_next ends (by rw [next?, h] : p.next? t = some u)
  rw [resolve, maxSteps, resolveWithin, h]
  simp only [hu]

include ends in
theorem resolvesByParts : p.ResolvesByParts t where
  pointer e expr := resolve_of_step_pointer ends (by rw [step, expr])
  param name u expr bound := resolve_of_step_transparent ends (step_of_param expr bound)
  aliased P d args h old := resolve_of_step_transparent ends (by rw [h.step, if_pos old])
  defined P d args h new := by
    have hs : p.step t = .defined (d.link P) (t.bodyOf P d args) := by rw [h.step, new]; rfl
    exact resolve_of_step_defined ends hs
  term e expr := resolve_of_step_transparent ends (by rw [step, expr])

end Ends

/-! ## The chain -/

/-- A reference written in packages of the program, as are those its parameters stand for. -/
inductive WrittenIn (p : Program) : TypeRef → Prop where
  | mk {t : TypeRef} (package : t.package ∈ p.packages)
      (bindings : ∀ q ∈ t.bindings, WrittenIn p q.2) : WrittenIn p t

namespace WrittenIn

theorem package (h : p.WrittenIn t) : t.package ∈ p.packages := by
  cases h with
  | mk hP _ => exact hP

theorem withExpr (h : p.WrittenIn t) (e : TypeExpr) : p.WrittenIn (t.withExpr e) := by
  cases h with
  | mk hP hb => exact .mk hP hb

theorem of_lookup {name : String} (h : p.WrittenIn t) (hl : t.bindings.lookup name = some u) :
    p.WrittenIn u := by
  cases h with
  | mk _ hb =>
    obtain ⟨l, l', hmem, -⟩ := List.lookup_eq_some_iff.1 hl
    exact hb (name, u) (by simp [hmem])

theorem bindParams {site : TypeRef} (hs : p.WrittenIn site) (hP : P ∈ p.packages)
    (params : List TypeParam) : ∀ (bound : List (String × TypeRef)) (args : List TypeExpr),
      (∀ q ∈ bound, p.WrittenIn q.2) → ∀ q ∈ bindParams site P bound params args, p.WrittenIn q.2 := by
  induction params with
  | nil => intro bound args hb; exact hb
  | cons x xs ih =>
    intro bound args hb
    cases args with
    | nil =>
      refine ih _ [] (List.forall_mem_cons.2 ⟨?_, hb⟩)
      exact .mk hP hb
    | cons a as => exact ih _ as (List.forall_mem_cons.2 ⟨hs.withExpr a, hb⟩)

theorem denoted (h : p.WrittenIn t) (hd : p.Denotes t P d args) : P ∈ p.packages := by
  cases hd with
  | own _ _ _ => exact h.package
  | imported _ hP _ =>
    rw [package?, List.findRev?_eq_find?_reverse] at hP
    exact List.mem_reverse.1 (List.mem_of_find?_eq_some hP)

theorem bodyOf (h : p.WrittenIn t) (hd : p.Denotes t P d args) :
    p.WrittenIn (t.bodyOf P d args) :=
  .mk (h.denoted hd) (h.bindParams (h.denoted hd) d.params [] args (fun _ hq => nomatch hq))

end WrittenIn

/-- Defined types of the program, outermost first, and at most one type outside it at the end. -/
structure IsChain (p : Program) (t : TypeRef) (chain : List Link)
    (crossed : List (Package × TypeDecl)) (outside : Option Link) : Prop where
  eq : chain = crossed.map (fun q => q.2.link q.1) ++ outside.toList
  new : ∀ q ∈ crossed, q.2.isAlias = false
  declared : ∀ q ∈ crossed, q.1.decl? q.2.name = some q.2
  packages : p.WrittenIn t → ∀ q ∈ crossed, q.1 ∈ p.packages
  outside : ∀ link ∈ outside, link.decl = none

namespace IsChain

variable {chain : List Link} {crossed : List (Package × TypeDecl)} {outside : Option Link}

theorem of_next (h : p.IsChain u chain crossed outside) (hw : p.WrittenIn t → p.WrittenIn u) :
    p.IsChain t chain crossed outside :=
  { h with packages := fun ht => h.packages (hw ht) }

theorem cons (h : p.IsChain (t.bodyOf P d args) chain crossed outside)
    (hd : p.Denotes t P d args) (new : d.isAlias = false) :
    p.IsChain t (d.link P :: chain) ((P, d) :: crossed) outside where
  eq := by rw [h.eq]; rfl
  new := List.forall_mem_cons.2 ⟨new, h.new⟩
  declared := List.forall_mem_cons.2 ⟨hd.declared, h.declared⟩
  packages ht := List.forall_mem_cons.2 ⟨ht.denoted hd, h.packages (ht.bodyOf hd)⟩
  outside := h.outside

theorem last (h : ∀ link ∈ outside, link.decl = none) :
    p.IsChain t outside.toList [] outside where
  eq := rfl
  new _ hq := nomatch hq
  declared _ hq := nomatch hq
  packages _ _ hq := nomatch hq
  outside := h

end IsChain

theorem exists_chain (n : Nat) (t : TypeRef) :
    ∃ crossed outside, p.IsChain t (p.resolveWithin n t).chain crossed outside := by
  induction n generalizing t with
  | zero =>
    have nothing : ∀ link ∈ (none : Option Link), link.decl = none := by simp
    exact ⟨[], _, .last nothing⟩
  | succ n ih =>
    have spec := p.step_spec t
    rw [resolveWithin]
    generalize p.step t = s at spec
    cases spec with
    | pointer expr =>
      obtain ⟨crossed, outside, h⟩ := ih (t.withExpr _)
      exact ⟨crossed, outside, h.of_next fun ht => ht.withExpr _⟩
    | term expr =>
      obtain ⟨crossed, outside, h⟩ := ih (t.withExpr _)
      exact ⟨crossed, outside, h.of_next fun ht => ht.withExpr _⟩
    | @param name u expr bound =>
      obtain ⟨crossed, outside, h⟩ := ih u
      exact ⟨crossed, outside, h.of_next fun ht => ht.of_lookup bound⟩
    | @aliased P d args denotes old =>
      obtain ⟨crossed, outside, h⟩ := ih (t.bodyOf P d args)
      exact ⟨crossed, outside, h.of_next fun ht => ht.bodyOf denotes⟩
    | @defined P d args denotes new =>
      obtain ⟨crossed, outside, h⟩ := ih (t.bodyOf P d args)
      exact ⟨(P, d) :: crossed, outside, h.cons denotes new⟩
    | @final kind link outside => exact ⟨[], link, .last outside⟩

/-- Every link and every pointer level is from a step of its own. -/
theorem chain_length_add_pointerDepth_le (n : Nat) (t : TypeRef) :
    (p.resolveWithin n t).chain.length + (p.resolveWithin n t).pointerDepth ≤ n := by
  induction n generalizing t with
  | zero => simp [resolveWithin]
  | succ n ih =>
    rw [resolveWithin]
    cases p.step t with
    | pointer u =>
      have hu := ih u
      simp only
      omega
    | transparent u =>
      have hu := ih u
      simp only
      omega
    | defined link u =>
      have hu := ih u
      simp only [List.length_cons]
      omega
    | final kind link =>
      cases link with
      | none => simp
      | some l => simp

/--
Resolution by parts. Within the step limit, a pointer adds a level, a defined type its link, and
parameters, aliases and interfaces of one term nothing; so the chain is one of defined types with
at most one type outside the program, at its end. Beyond the limit, where every cycle is, nothing
is known about the type.
-/
theorem resolve_compositional (p : Program) (t : TypeRef) :
    (p.endsWithin maxSteps t = true → p.ResolvesByParts t) ∧
    (∃ crossed outside, p.IsChain t (p.resolve t).chain crossed outside) ∧
    (p.endsWithin maxSteps t = false →
      (p.resolve t).kind = .opaqueType ∧ (p.resolve t).isByteSlice = false ∧
        (p.resolve t).chain.length + (p.resolve t).pointerDepth ≤ maxSteps) ∧
    (p.UnfoldsForever t → p.endsWithin maxSteps t = false) ∧
    ∀ u, Relation.ReflTransGen (fun a b => p.next? a = some b) t u →
      Relation.TransGen (fun a b => p.next? a = some b) u u → p.UnfoldsForever t := by
  refine ⟨fun ends => resolvesByParts ends, exists_chain maxSteps t, ?limit, ?forever, ?cycle⟩
  case limit =>
    intro beyond
    obtain ⟨kind, bytes⟩ := resolveWithin_of_not_endsWithin beyond
    exact ⟨kind, bytes, chain_length_add_pointerDepth_le maxSteps t⟩
  case forever => exact fun h => not_endsWithin_of_unfoldsForever h maxSteps
  case cycle => exact fun u reach cycle => unfoldsForever_of_cycle reach cycle

end Program

namespace Unfolding

def name : TypeDecl where
  name := "Name"
  pos := { line := 3, column := 6 }
  doc := []
  isAlias := false
  params := []
  type := .ident "string" none []

/-- A pointer to its argument. -/
def ptr : TypeDecl where
  name := "Ptr"
  pos := { line := 5, column := 6 }
  doc := []
  isAlias := true
  params := [⟨"T", .ident "any" none []⟩]
  type := .pointer (.ident "T" none [])

/-- A list that is declared by nothing but a pointer to itself. -/
def list : TypeDecl where
  name := "List"
  pos := { line := 7, column := 6 }
  doc := []
  isAlias := false
  params := [⟨"T", .ident "any" none []⟩]
  type := .pointer (.ident "List" none [.ident "T" none []])

def package : Package :=
  ⟨"example.com/api", "api", [⟨"api/names.go", [name, ptr, list]⟩]⟩

def names : TypeRef := .closed (.pointer (.ident "Ptr" none [.ident "Name" none []])) package
def lists : TypeRef := .closed (.ident "List" none [.ident "Name" none []]) package

theorem lists_unfoldsForever : (Program.mk [package]).UnfoldsForever lists := by
  -- The bindings grow with every turn, so no reference comes back.
  refine ⟨fun u => u.package = package ∧ ((∃ e, u.expr = .ident "List" none [e]) ∨
    u.expr = .pointer (.ident "List" none [.ident "T" none []])), ⟨rfl, .inl ⟨_, rfl⟩⟩, ?_⟩
  rintro ⟨expr, P, bindings⟩ ⟨rfl, ⟨e, rfl⟩ | rfl⟩
  · exact ⟨_, rfl, rfl, .inr rfl⟩
  · exact ⟨_, rfl, rfl, .inl ⟨_, rfl⟩⟩

theorem resolve_compositional_names :
    ((Program.mk [package]).endsWithin maxSteps names = true ∧
      (Program.mk [package]).UnfoldsForever lists) ∧
    (Program.mk [package]).ResolvesByParts names ∧
    ((Program.mk [package]).resolve lists).kind = .opaqueType ∧
    ((Program.mk [package]).resolve lists).chain.length +
      ((Program.mk [package]).resolve lists).pointerDepth ≤ maxSteps := by
  have ends : (Program.mk [package]).endsWithin maxSteps names = true := by decide +kernel
  obtain ⟨parts, -⟩ := Program.resolve_compositional ⟨[package]⟩ names
  obtain ⟨-, -, beyond, forever, -⟩ := Program.resolve_compositional ⟨[package]⟩ lists
  obtain ⟨kind, -, bound⟩ := beyond (forever lists_unfoldsForever)
  exact ⟨⟨ends, lists_unfoldsForever⟩, parts ends, kind, bound⟩

end Unfolding
end ApiConventions
