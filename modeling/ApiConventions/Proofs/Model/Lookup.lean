import Mathlib.Data.List.Nodup
import ApiConventions.Model.Basic

/-!
# ApiConventions.Proofs.Model.Lookup

Looking up declarations by name and packages by path. Where names and paths are not repeated, a
lookup finds the one that has the name, wherever it stands.
-/

namespace ApiConventions

theorem find?_eq_some_of_unique {α : Type} {l : List α} {p : α → Bool} {a : α} (ha : a ∈ l)
    (hp : p a = true) (unique : ∀ x ∈ l, p x = true → x = a) : l.find? p = some a := by
  have hsome : (l.find? p).isSome := by
    rw [List.find?_isSome]
    exact ⟨a, ha, hp⟩
  obtain ⟨x, hx⟩ := Option.isSome_iff_exists.1 hsome
  rw [hx, unique x (List.mem_of_find?_eq_some hx) (List.find?_some hx)]

section Keyed

variable {α κ : Type} [BEq κ] [LawfulBEq κ] {key : α → κ} {l : List α}

theorem find?_eq_some_iff_of_nodup (h : (l.map key).Nodup) {k : κ} {a : α} :
    l.find? (fun x => key x == k) = some a ↔ a ∈ l ∧ key a = k := by
  constructor
  · intro hf
    have hk := List.find?_some hf
    exact ⟨List.mem_of_find?_eq_some hf, eq_of_beq hk⟩
  · rintro ⟨ha, rfl⟩
    refine find?_eq_some_of_unique ha (beq_self_eq_true _) fun x hx hk => ?_
    exact List.inj_on_of_nodup_map h hx ha (eq_of_beq hk)

theorem findRev?_eq_some_iff_of_nodup (h : (l.map key).Nodup) {k : κ} {a : α} :
    l.findRev? (fun x => key x == k) = some a ↔ a ∈ l ∧ key a = k := by
  have hr : (l.reverse.map key).Nodup := by
    rw [List.map_reverse]
    exact List.nodup_reverse.2 h
  rw [List.findRev?_eq_find?_reverse, find?_eq_some_iff_of_nodup hr, List.mem_reverse]

end Keyed

theorem Package.decl?_eq_some_iff {P : Package} (h : (P.decls.map (·.name)).Nodup) {name : String}
    {d : TypeDecl} : P.decl? name = some d ↔ d ∈ P.decls ∧ d.name = name :=
  find?_eq_some_iff_of_nodup h

theorem Program.package?_eq_some_iff {p : Program} (h : (p.packages.map (·.path)).Nodup)
    {path : String} {P : Package} : p.package? path = some P ↔ P ∈ p.packages ∧ P.path = path :=
  findRev?_eq_some_iff_of_nodup h

end ApiConventions
