import Mathlib.Data.List.Flatten
import Mathlib.Data.List.Lex
import Mathlib.Data.List.Pairwise
import ApiConventions.Proofs.Model.TypeExpr

/-!
# ApiConventions.Proofs.Model.Address

Where fields stand. An address leads from a type expression down to a field, and `FieldAt` says
which field stands there. The fields of a file are those at the addresses that take no turn into
the arguments of a name or the terms of an interface: each of them once, in the order of the
source. A field of an anonymous struct inside an argument has an address and is not among them.
-/

namespace ApiConventions

/-- A turn on the way down a type expression. -/
inductive Turn where
  /-- The element of a pointer, a slice, an array or a channel. -/
  | elem
  | key
  | value
  | member (i : Nat)
  | arg (i : Nat)
  | term (i : Nat)
deriving DecidableEq, Repr

namespace Turn

/-- Arguments and terms are not entered. -/
def isEntered : Turn → Bool
  | .arg _ | .term _ => false
  | _ => true

/-- The place of a turn among those at the same expression. -/
def rank : Turn → Nat
  | .elem | .key => 0
  | .value => 1
  | .member i | .arg i | .term i => i

end Turn

abbrev Address := List Turn

namespace Address

/-- Source order: an address comes before those below it, and before those of later turns. -/
def Before : Address → Address → Prop :=
  List.Lex fun a b => a.rank < b.rank

theorem not_before_self (a : Address) : ¬ Before a a := by
  intro h
  induction a with
  | nil => cases h
  | cons turn a ih =>
    cases h with
    | cons h => exact ih h
    | rel h => exact Nat.lt_irrefl _ h

/-- One more turn, in front of the addresses of fields. -/
def under (turn : Turn) (located : List (Address × Field)) : List (Address × Field) :=
  located.map fun q => (turn :: q.1, q.2)

variable {turn : Turn} {located : List (Address × Field)}

theorem map_under : (under turn located).map (·.2) = located.map (·.2) := by
  rw [under, List.map_map]
  rfl

theorem mem_under {a : Address} {f : Field} :
    (a, f) ∈ under turn located ↔ ∃ b, a = turn :: b ∧ (b, f) ∈ located := by
  simp [under, and_comm, eq_comm]

theorem pairwise_under (h : located.Pairwise fun q r => Before q.1 r.1) :
    (under turn located).Pairwise fun q r => Before q.1 r.1 := by
  rw [under, List.pairwise_map]
  exact h.imp fun before => .cons before

end Address

open Address

/-- The indices of a list ascend. -/
theorem pairwise_zipIdx {α : Type} (l : List α) : l.zipIdx.Pairwise fun q r => q.2 < r.2 := by
  rw [← List.pairwise_map, List.zipIdx_map_snd]
  exact List.pairwise_lt_range'

namespace TypeExpr

/-- The part of an expression that a turn leads to. At a member it is the type of the member. -/
def part? : TypeExpr → Turn → Option TypeExpr
  | .pointer e, .elem => some e
  | .slice e, .elem => some e
  | .array _ e, .elem => some e
  | .chan e, .elem => some e
  | .map k _, .key => some k
  | .map _ v, .value => some v
  | .struct fs, .member i => fs[i]?.map (·.type)
  | .ident _ _ args, .arg i => args[i]?
  | .interface terms, .term i => terms[i]?
  | _, _ => none

/-- The field at an address in a type expression. -/
inductive FieldAt : TypeExpr → Address → Field → Prop where
  | here {fs : List Field} {i : Nat} {f : Field} (member : fs[i]? = some f) :
      FieldAt (.struct fs) [.member i] f
  | inside {e part : TypeExpr} {turn : Turn} {a : Address} {f : Field}
      (leads : e.part? turn = some part) (inner : FieldAt part a f) : FieldAt e (turn :: a) f

end TypeExpr

/-! ## The fields with their addresses -/

mutual
/-- The fields that occur in a type expression, each with its address. -/
def TypeExpr.located : TypeExpr → List (Address × Field)
  | .struct members => locatedMembers 0 members
  | .pointer elem => under .elem elem.located
  | .slice elem => under .elem elem.located
  | .array _ elem => under .elem elem.located
  | .chan elem => under .elem elem.located
  | .map key value => under .key key.located ++ under .value value.located
  | .ident _ _ _ => []
  | .interface _ => []
  | .func => []

def locatedMembers (i : Nat) : List Field → List (Address × Field)
  | [] => []
  | ⟨name, pos, doc, type, tag⟩ :: rest =>
    ([.member i], ⟨name, pos, doc, type, tag⟩) ::
      (under (.member i) type.located ++ locatedMembers (i + 1) rest)
end

/-- A member with what is inside its type. -/
def Field.located (f : Field) (i : Nat) : List (Address × Field) :=
  ([.member i], f) :: under (.member i) f.type.located

theorem locatedMembers_eq (i : Nat) (fs : List Field) :
    locatedMembers i fs = (fs.zipIdx i).flatMap fun q => q.1.located q.2 := by
  induction fs generalizing i with
  | nil => rfl
  | cons f fs ih =>
    cases f
    rw [locatedMembers, ih, List.zipIdx_cons, List.flatMap_cons, Field.located, List.cons_append]

theorem TypeExpr.located_struct (fs : List Field) :
    (TypeExpr.struct fs).located = fs.zipIdx.flatMap fun q => q.1.located q.2 := by
  rw [TypeExpr.located, locatedMembers_eq]

namespace TypeExpr

/-- Without the addresses these are the fields of the expression. -/
theorem map_located (e : TypeExpr) : e.located.map (·.2) = e.fields := by
  induction e with
  | pointer e ih => rw [located, map_under, ih, fields]
  | slice e ih => rw [located, map_under, ih, fields]
  | array n e ih => rw [located, map_under, ih, fields]
  | chan e ih => rw [located, map_under, ih, fields]
  | map k v ihk ihv => rw [located, List.map_append, map_under, map_under, ihk, ihv, fields]
  | struct fs ih =>
    have each : ∀ q ∈ fs.zipIdx, (q.1.located q.2).map (·.2) = q.1 :: q.1.type.fields := by
      intro q hq
      rw [Field.located, List.map_cons, map_under, ih q.1 (List.fst_mem_of_mem_zipIdx hq)]
    calc (struct fs).located.map (·.2)
        = fs.zipIdx.flatMap fun q => q.1 :: q.1.type.fields := by
          rw [located_struct, List.map_flatMap, List.flatMap_congr each]
      _ = (fs.zipIdx.map (·.1)).flatMap fun f => f :: f.type.fields := by rw [List.flatMap_map]
      _ = (struct fs).fields := by rw [List.zipIdx_map_fst, fields, fieldsOfMembers_eq]
  | _ => rfl

theorem FieldAt.ne_nil {e : TypeExpr} {a : Address} {f : Field} (h : e.FieldAt a f) : a ≠ [] := by
  cases h <;> exact List.cons_ne_nil _ _

/-- What is at a part that is entered is among the fields of the whole. -/
theorem mem_located_of_part {e part : TypeExpr} {turn : Turn} {a : Address} {f : Field}
    (leads : e.part? turn = some part) (enters : turn.isEntered = true)
    (h : (a, f) ∈ part.located) : (turn :: a, f) ∈ e.located := by
  have inner : (turn :: a, f) ∈ under turn part.located := mem_under.2 ⟨a, rfl, h⟩
  rw [part?.eq_def] at leads
  split at leads
  case h_1 | h_2 | h_3 | h_4 =>
    cases leads
    exact inner
  case h_5 =>
    cases leads
    exact List.mem_append_left _ inner
  case h_6 =>
    cases leads
    exact List.mem_append_right _ inner
  case h_7 fs i =>
    obtain ⟨g, hg, rfl⟩ := Option.map_eq_some_iff.1 leads
    rw [located_struct, List.mem_flatMap]
    exact ⟨(g, i), List.mem_zipIdx_iff_getElem?.2 hg, List.mem_cons_of_mem _ inner⟩
  case h_8 => cases enters
  case h_9 => cases enters
  case h_10 => cases leads

theorem FieldAt.mem_located {e : TypeExpr} {a : Address} {f : Field} (h : e.FieldAt a f)
    (entered : ∀ turn ∈ a, turn.isEntered = true) : (a, f) ∈ e.located := by
  induction h with
  | @here fs i f member =>
    rw [located_struct, List.mem_flatMap]
    exact ⟨(f, i), List.mem_zipIdx_iff_getElem?.2 member, List.mem_cons_self⟩
  | inside leads _ ih =>
    obtain ⟨enters, rest⟩ := List.forall_mem_cons.1 entered
    exact mem_located_of_part leads enters (ih rest)

theorem fieldAt_of_mem_under {e part : TypeExpr} {turn : Turn} {a : Address} {f : Field}
    (leads : e.part? turn = some part) (enters : turn.isEntered = true)
    (ih : ∀ b, (b, f) ∈ part.located → part.FieldAt b f ∧ ∀ turn ∈ b, turn.isEntered = true)
    (h : (a, f) ∈ under turn part.located) :
    e.FieldAt a f ∧ ∀ turn ∈ a, turn.isEntered = true := by
  obtain ⟨b, rfl, hb⟩ := mem_under.1 h
  obtain ⟨inner, entered⟩ := ih b hb
  exact ⟨.inside leads inner, List.forall_mem_cons.2 ⟨enters, entered⟩⟩

theorem fieldAt_of_mem_located {e : TypeExpr} {a : Address} {f : Field}
    (h : (a, f) ∈ e.located) : e.FieldAt a f ∧ ∀ turn ∈ a, turn.isEntered = true := by
  induction e generalizing a with
  | pointer e ih => exact fieldAt_of_mem_under rfl rfl (fun _ => ih) h
  | slice e ih => exact fieldAt_of_mem_under rfl rfl (fun _ => ih) h
  | array n e ih => exact fieldAt_of_mem_under rfl rfl (fun _ => ih) h
  | chan e ih => exact fieldAt_of_mem_under rfl rfl (fun _ => ih) h
  | map k v ihk ihv =>
    rcases List.mem_append.1 h with h | h
    · exact fieldAt_of_mem_under rfl rfl (fun _ => ihk) h
    · exact fieldAt_of_mem_under rfl rfl (fun _ => ihv) h
  | struct fs ih =>
    rw [located_struct, List.mem_flatMap] at h
    obtain ⟨⟨g, i⟩, hg, h⟩ := h
    have member : fs[i]? = some g := List.mem_zipIdx_iff_getElem?.1 hg
    rcases List.mem_cons.1 h with same | h
    · cases same
      exact ⟨.here member, by simp [Turn.isEntered]⟩
    · have leads : (struct fs).part? (.member i) = some g.type := by simp [part?, member]
      exact fieldAt_of_mem_under leads rfl (fun _ => ih g (List.mem_of_getElem? member)) h
  | _ => cases h

theorem mem_located {e : TypeExpr} {a : Address} {f : Field} :
    (a, f) ∈ e.located ↔ e.FieldAt a f ∧ ∀ turn ∈ a, turn.isEntered = true :=
  ⟨fieldAt_of_mem_located, fun h => h.1.mem_located h.2⟩

theorem exists_of_mem_located {f g : Field} {i : Nat} {a : Address} (h : (a, f) ∈ g.located i) :
    ∃ b, a = .member i :: b := by
  rcases List.mem_cons.1 h with same | h
  · cases same
    exact ⟨[], rfl⟩
  · obtain ⟨b, rfl, -⟩ := mem_under.1 h
    exact ⟨b, rfl⟩

theorem pairwise_located (e : TypeExpr) : e.located.Pairwise fun q r => Before q.1 r.1 := by
  induction e with
  | pointer e ih => exact pairwise_under ih
  | slice e ih => exact pairwise_under ih
  | array n e ih => exact pairwise_under ih
  | chan e ih => exact pairwise_under ih
  | map k v ihk ihv =>
    rw [located, List.pairwise_append]
    refine ⟨pairwise_under ihk, pairwise_under ihv, ?_⟩
    rintro ⟨a, f⟩ ha ⟨b, g⟩ hb
    obtain ⟨a, rfl, -⟩ := mem_under.1 ha
    obtain ⟨b, rfl, -⟩ := mem_under.1 hb
    exact .rel (by decide)
  | struct fs ih =>
    rw [located_struct, List.pairwise_flatMap]
    constructor
    · intro q hq
      rw [Field.located, List.pairwise_cons]
      refine ⟨?_, pairwise_under (ih q.1 (List.fst_mem_of_mem_zipIdx hq))⟩
      rintro ⟨a, g⟩ ha
      obtain ⟨b, rfl, hb⟩ := mem_under.1 ha
      obtain ⟨turn, c, rfl⟩ := List.exists_cons_of_ne_nil (fieldAt_of_mem_located hb).1.ne_nil
      exact .cons .nil
    · refine (pairwise_zipIdx fs).imp ?_
      rintro ⟨g, i⟩ ⟨g', j⟩ hlt ⟨a, f⟩ ha ⟨b, f'⟩ hb
      obtain ⟨c, rfl⟩ := exists_of_mem_located ha
      obtain ⟨c', rfl⟩ := exists_of_mem_located hb
      exact .rel hlt
  | _ => exact .nil

end TypeExpr

/-! ## Files -/

/-- A place for a field in a file: the declaration by its index, and the address in its type. -/
structure FieldPlace where
  decl : Nat
  address : Address
deriving DecidableEq, Repr

namespace FieldPlace

def Before (p q : FieldPlace) : Prop :=
  p.decl < q.decl ∨ p.decl = q.decl ∧ p.address.Before q.address

theorem ne_of_before {p q : FieldPlace} (h : p.Before q) : p ≠ q := by
  rintro rfl
  rcases h with h | ⟨-, h⟩
  · exact Nat.lt_irrefl _ h
  · exact not_before_self _ h

end FieldPlace

namespace SourceFile

/-- The field at a place in a file, in the declaration `d`. -/
def FieldAt (F : SourceFile) (place : FieldPlace) (f : Field) (d : TypeDecl) : Prop :=
  F.decls[place.decl]? = some d ∧ d.type.FieldAt place.address f

def located (F : SourceFile) : List (FieldPlace × Field × TypeDecl) :=
  F.decls.zipIdx.flatMap fun q => q.1.type.located.map fun l => (⟨q.2, l.1⟩, l.2, q.1)

theorem map_located (F : SourceFile) : F.located.map (·.2) = F.fields := by
  have each (q : TypeDecl × Nat) :
      (q.1.type.located.map fun l => ((⟨q.2, l.1⟩ : FieldPlace), l.2, q.1)).map (·.2) =
        q.1.type.fields.map (·, q.1) := by
    rw [← TypeExpr.map_located, List.map_map, List.map_map]
    rfl
  calc F.located.map (·.2)
      = F.decls.zipIdx.flatMap fun q => q.1.type.fields.map (·, q.1) := by
        simp only [located, List.map_flatMap, each]
    _ = (F.decls.zipIdx.map (·.1)).flatMap fun d => d.type.fields.map (·, d) := by
        rw [List.flatMap_map]
    _ = F.fields := by rw [List.zipIdx_map_fst, fields]

theorem mem_located {F : SourceFile} {place : FieldPlace} {f : Field} {d : TypeDecl} :
    (place, f, d) ∈ F.located ↔
      F.FieldAt place f d ∧ ∀ turn ∈ place.address, turn.isEntered = true := by
  rw [located, List.mem_flatMap]
  constructor
  · rintro ⟨⟨d, i⟩, hd, h⟩
    obtain ⟨⟨a, f⟩, hf, same⟩ := List.mem_map.1 h
    cases same
    obtain ⟨stands, entered⟩ := TypeExpr.mem_located.1 hf
    exact ⟨⟨List.mem_zipIdx_iff_getElem?.1 hd, stands⟩, entered⟩
  · rintro ⟨⟨hd, stands⟩, entered⟩
    refine ⟨(d, place.decl), List.mem_zipIdx_iff_getElem?.2 hd, List.mem_map.2 ?_⟩
    exact ⟨(place.address, f), TypeExpr.mem_located.2 ⟨stands, entered⟩, rfl⟩

theorem pairwise_located (F : SourceFile) : F.located.Pairwise fun q r => q.1.Before r.1 := by
  rw [located, List.pairwise_flatMap]
  constructor
  · intro q _
    rw [List.pairwise_map]
    exact q.1.type.pairwise_located.imp fun before => .inr ⟨rfl, before⟩
  · refine (pairwise_zipIdx F.decls).imp ?_
    rintro ⟨d, i⟩ ⟨d', j⟩ hlt x hx y hy
    obtain ⟨l, -, rfl⟩ := List.mem_map.1 hx
    obtain ⟨l', -, rfl⟩ := List.mem_map.1 hy
    exact .inl hlt

/--
The fields of a file are those that stand in its declarations at the places that lie in no argument
and in no term: each once, in source order, with the declaration it stands in.
-/
theorem fields_in_order (F : SourceFile) :
    ∃ located : List (FieldPlace × Field × TypeDecl),
      F.fields = located.map (·.2) ∧
      located.Pairwise (fun q r => q.1.Before r.1) ∧ (located.map (·.1)).Nodup ∧
      ∀ place f d, (place, f, d) ∈ located ↔
        F.FieldAt place f d ∧ ∀ turn ∈ place.address, turn.isEntered = true := by
  refine ⟨F.located, F.map_located.symm, F.pairwise_located, ?once, fun _ _ _ => mem_located⟩
  case once =>
    rw [List.Nodup, List.pairwise_map]
    exact F.pairwise_located.imp FieldPlace.ne_of_before

end SourceFile

namespace Unvisited

def list : TypeDecl where
  name := "List"
  pos := { line := 3, column := 6 }
  doc := []
  isAlias := false
  params := [⟨"T", .ident "any" none []⟩]
  type := .slice (.ident "T" none [])

def isPublic : Field where
  name := some "Public"
  pos := { line := 7, column := 3 }
  doc := []
  type := .ident "bool" none []
  tag := some "json:\"public\""

/-- A list of anonymous structs, which are written as its argument. -/
def ports : Field where
  name := some "Ports"
  pos := { line := 6, column := 2 }
  doc := []
  type := .ident "List" none [.struct [isPublic]]
  tag := some "json:\"ports\""

def spec : TypeDecl where
  name := "Spec"
  pos := { line := 5, column := 6 }
  doc := []
  isAlias := false
  params := []
  type := .struct [ports]

def file : SourceFile := { path := "api/spec.go", decls := [list, spec] }

/-- A field that stands in an argument, and that is not among the fields of the file. -/
theorem public_not_mem_fields :
    file.FieldAt ⟨1, [.member 0, .arg 0, .member 0]⟩ isPublic spec ∧
      ∀ q ∈ file.fields, q.1.name ≠ isPublic.name := by
  refine ⟨⟨rfl, .inside rfl (.inside rfl (.here rfl))⟩, by decide⟩

end Unvisited
end ApiConventions
