import Mathlib.Data.List.DropRight
import ApiConventions.Text.Blank

/-!
# ApiConventions.Proofs.Text.Trim

Trimming. A text is trimmed when it has no blank at either end. `trim` gives such a text, and
leaves every such text as it is.
-/

namespace ApiConventions
namespace Text

variable {s : List Char}

/-- Neither the first character nor the last one is blank. -/
structure IsTrimmed (s : List Char) : Prop where
  head : ∀ c ∈ s.head?, isBlank c = false
  last : ∀ c ∈ s.getLast?, isBlank c = false

theorem trimStart_eq_self (head : ∀ c ∈ s.head?, isBlank c = false) : trimStart s = s := by
  cases s with
  | nil => rfl
  | cons c s => exact List.dropWhile_cons_of_neg (by simp [head c rfl])

theorem trimEnd_eq_self (last : ∀ c ∈ s.getLast?, isBlank c = false) : trimEnd s = s := by
  have kept : s.rdropWhile isBlank = s := by
    rw [List.rdropWhile_eq_self_iff]
    intro nonempty
    simp [last _ (List.getLast?_eq_some_getLast nonempty)]
  exact kept

theorem IsTrimmed.trim_eq (h : IsTrimmed s) : trim s = s := by
  rw [trim, trimStart_eq_self h.head, trimEnd_eq_self h.last]

theorem head_trimStart : ∀ c ∈ (trimStart s).head?, isBlank c = false := by
  intro c hc
  have first := List.head?_dropWhile_not isBlank s
  rw [trimStart] at hc
  rw [hc] at first
  exact first

theorem last_trimEnd : ∀ c ∈ (trimEnd s).getLast?, isBlank c = false := by
  intro c hc
  obtain ⟨nonempty, rfl⟩ := List.mem_getLast?_eq_getLast hc
  exact Bool.eq_false_iff.2 (List.rdropWhile_last_not isBlank s nonempty)

theorem isTrimmed_trim (s : List Char) : IsTrimmed (trim s) where
  head := by
    intro c hc
    -- What is left of a text starts as the text does.
    have start : trim s <+: trimStart s := List.rdropWhile_prefix isBlank (trimStart s)
    obtain ⟨rest, split⟩ := start
    have first : c ∈ (trimStart s).head? := by
      rw [← split]
      exact List.mem_head?_append_of_mem_head? hc
    exact head_trimStart c first
  last := last_trimEnd

theorem IsTrimmed.cons {a : Char} (h : IsTrimmed s) (ha : isBlank a = false) :
    IsTrimmed (a :: s) where
  head := by
    rintro c ⟨⟩
    exact ha
  last := by
    intro c hc
    cases s with
    | nil =>
      cases hc
      exact ha
    | cons d s =>
      rw [List.getLast?_cons_cons] at hc
      exact h.last c hc

/-- Two characters that are not blank protect whatever stands between them. -/
theorem isTrimmed_between {a b : Char} (ha : isBlank a = false) (hb : isBlank b = false)
    (s : List Char) : IsTrimmed (a :: (s ++ [b])) where
  head := by
    rintro c ⟨⟩
    exact ha
  last := by
    intro c hc
    rw [← List.cons_append, List.getLast?_concat] at hc
    cases hc
    exact hb

end Text
end ApiConventions
