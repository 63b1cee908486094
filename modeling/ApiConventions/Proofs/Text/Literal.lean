import ApiConventions.Proofs.Text.Trim
import ApiConventions.Text.Split

/-!
# ApiConventions.Proofs.Text.Literal

How values are written so that they can be read again: between two quotes, with a backslash in
front of the characters that would end a value or hide another one, and joined by a separator.
-/

namespace ApiConventions
namespace Text

variable {special : Char → Bool} {q sep c : Char} {s a b : List Char}

/-- A text between two quotes. -/
def enclose (q : Char) (s : List Char) : List Char :=
  q :: (s ++ [q])

/-- A backslash stands in front of every special character. -/
def escape (special : Char → Bool) (s : List Char) : List Char :=
  s.flatMap fun c => if special c then ['\\', c] else [c]

theorem escape_cons_of_special (h : special c = true) :
    escape special (c :: s) = '\\' :: c :: escape special s := by
  simp [escape, h]

theorem escape_cons_of_plain (h : special c = false) :
    escape special (c :: s) = c :: escape special s := by
  simp [escape, h]

theorem isTrimmed_enclose (h : isBlank q = false) (s : List Char) : IsTrimmed (enclose q s) :=
  isTrimmed_between h h s

theorem cutAt?_append (h : sep ∉ a) : cutAt? sep (a ++ sep :: b) = some (a, b) := by
  induction a with
  | nil => simp [cutAt?]
  | cons c a ih =>
    have other : c ≠ sep := fun same => h (by simp [same])
    have rest : sep ∉ a := fun mem => h (List.mem_cons_of_mem c mem)
    simp [cutAt?, other, ih rest]

/-- Where two cuts of a text differ, one of them lies behind the other. -/
theorem mem_or_mem_of_append_eq {x y : Char} {s t : List Char} (different : x ≠ y)
    (h : a ++ x :: s = b ++ y :: t) : x ∈ b ∨ y ∈ a := by
  rcases List.append_eq_append_iff.1 h with ⟨between, rfl, hbetween⟩ | ⟨between, rfl, hbetween⟩
  · cases between with
    | nil => exact absurd (List.cons.inj hbetween).1 different
    | cons c between =>
      rw [(List.cons.inj hbetween).1]
      exact .inl (List.mem_append_right a List.mem_cons_self)
  · cases between with
    | nil => exact absurd (List.cons.inj hbetween).1.symm different
    | cons c between =>
      rw [(List.cons.inj hbetween).1]
      exact .inr (List.mem_append_right b List.mem_cons_self)

theorem getLast?_intercalate {texts : List (List Char)} (nonempty : texts ≠ [])
    (h : ∀ text ∈ texts, text.getLast? = some q) : ([sep].intercalate texts).getLast? = some q := by
  induction texts with
  | nil => exact absurd rfl nonempty
  | cons text texts ih =>
    obtain ⟨first, others⟩ := List.forall_mem_cons.1 h
    cases texts with
    | nil => simpa using first
    | cons next texts =>
      have rest := ih (List.cons_ne_nil next texts) others
      rw [List.intercalate_cons_cons, List.getLast?_append, rest]
      rfl

end Text
end ApiConventions
