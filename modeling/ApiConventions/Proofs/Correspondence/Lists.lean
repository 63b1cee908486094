import Mathlib.Data.List.Forall2

/-!
# ApiConventions.Proofs.Correspondence.Lists

Options and lists that go together element by element.
-/

namespace ApiConventions

theorem option_rel_cases {α β : Type} {R : α → β → Prop} {a : Option α} {b : Option β}
    (h : Option.Rel R a b) : (a = none ∧ b = none) ∨ ∃ x y, a = some x ∧ b = some y ∧ R x y := by
  cases h with
  | none => exact .inl ⟨rfl, rfl⟩
  | some h => exact .inr ⟨_, _, rfl, rfl, h⟩

theorem option_rel_refl {α : Type} (o : Option α) : Option.Rel Eq o o := by
  cases o with
  | none => exact .none
  | some x => exact .some rfl

theorem option_rel_mono {α β : Type} {R S : α → β → Prop} {a : Option α} {b : Option β}
    (h : Option.Rel R a b) (hRS : ∀ x y, R x y → S x y) : Option.Rel S a b := by
  cases h with
  | none => exact .none
  | some h => exact .some (hRS _ _ h)

variable {α β γ : Type} {R : α → β → Prop} {l : List α} {l' : List β}

theorem exists_right_of_mem (h : List.Forall₂ R l l') {a : α} (ha : a ∈ l) :
    ∃ b ∈ l', R a b := by
  induction h with
  | nil => cases ha
  | @cons x y xs ys hxy _ ih =>
    rcases List.mem_cons.1 ha with rfl | ha
    · exact ⟨y, List.mem_cons_self, hxy⟩
    · obtain ⟨b, hb, hab⟩ := ih ha
      exact ⟨b, List.mem_cons_of_mem _ hb, hab⟩

theorem exists_left_of_mem (h : List.Forall₂ R l l') {b : β} (hb : b ∈ l') :
    ∃ a ∈ l, R a b :=
  exists_right_of_mem h.flip hb

theorem forall₂_append_cons {S : α → α → Prop} {us vs : List α} {a a' : α}
    (refl : ∀ x ∈ us ++ a :: vs, S x x) (h : S a a') :
    List.Forall₂ S (us ++ a :: vs) (us ++ a' :: vs) := by
  refine List.rel_append ?_ (.cons h ?_)
  · exact List.forall₂_same.2 fun x hx => refl x (List.mem_append_left _ hx)
  · refine List.forall₂_same.2 fun x hx => refl x ?_
    exact List.mem_append_right _ (List.mem_cons_of_mem _ hx)

/-- Lists that go together are both empty, both singletons, or both longer. -/
theorem forall₂_map_cases {γ δ : Type} {f : γ → α} {f' : δ → β} {xs : List γ} {ys : List δ}
    (h : List.Forall₂ R (xs.map f) (ys.map f')) :
    (xs = [] ∧ ys = []) ∨ (∃ x y, xs = [x] ∧ ys = [y] ∧ R (f x) (f' y)) ∨
      ∃ x₁ x₂ xs' y₁ y₂ ys', xs = x₁ :: x₂ :: xs' ∧ ys = y₁ :: y₂ :: ys' := by
  rw [List.forall₂_map_left_iff, List.forall₂_map_right_iff] at h
  cases h with
  | nil => exact .inl ⟨rfl, rfl⟩
  | cons hxy rest =>
    cases rest with
    | nil => exact .inr (.inl ⟨_, _, rfl, rfl, hxy⟩)
    | cons => exact .inr (.inr ⟨_, _, _, _, _, _, rfl, rfl⟩)

theorem find?_rel {p : α → Bool} {p' : β → Bool} (h : List.Forall₂ R l l')
    (hp : ∀ a b, R a b → p a = p' b) : Option.Rel R (l.find? p) (l'.find? p') := by
  induction h with
  | nil => exact .none
  | @cons a b as bs hab _ ih =>
    rw [List.find?_cons, List.find?_cons, hp a b hab]
    cases p' b with
    | true => exact .some hab
    | false => exact ih

theorem lookup_rel {b : List (String × α)} {b' : List (String × β)}
    (h : List.Forall₂ (fun x x' => x.1 = x'.1 ∧ R x.2 x'.2) b b') (name : String) :
    Option.Rel R (b.lookup name) (b'.lookup name) := by
  induction h with
  | nil => exact .none
  | @cons x x' xs xs' hx _ ih =>
    obtain ⟨n, u⟩ := x
    obtain ⟨n', u'⟩ := x'
    obtain ⟨rfl, hu⟩ := hx
    rw [List.lookup_cons, List.lookup_cons]
    cases name == n with
    | true => exact .some hu
    | false => exact ih

theorem map_eq_of_forall₂ {f : α → γ} {f' : β → γ} (h : List.Forall₂ R l l')
    (hf : ∀ a b, b ∈ l' → R a b → f a = f' b) : l.map f = l'.map f' := by
  induction h with
  | nil => rfl
  | cons hab _ ih =>
    rw [List.map_cons, List.map_cons, hf _ _ List.mem_cons_self hab,
      ih fun a b hb => hf a b (List.mem_cons_of_mem _ hb)]

theorem flatMap_eq_of_forall₂ {f : α → List γ} {f' : β → List γ} (h : List.Forall₂ R l l')
    (hf : ∀ a b, b ∈ l' → R a b → f a = f' b) : l.flatMap f = l'.flatMap f' := by
  rw [List.flatMap_def, List.flatMap_def, map_eq_of_forall₂ h hf]

theorem filterMap_eq_of_forall₂ {f : α → Option γ} {f' : β → Option γ} (h : List.Forall₂ R l l')
    (hf : ∀ a b, b ∈ l' → R a b → f a = f' b) : l.filterMap f = l'.filterMap f' := by
  induction h with
  | nil => rfl
  | cons hab _ ih =>
    rw [List.filterMap_cons, List.filterMap_cons, hf _ _ List.mem_cons_self hab,
      ih fun a b hb => hf a b (List.mem_cons_of_mem _ hb)]

end ApiConventions
