import ApiConventions.Proofs.Text.Words

/-!
# ApiConventions.Proofs.Text.Boundaries

Where the words of a name meet. The words make up the name, and between two characters one word
ends and another starts exactly when the second character is upper case and either the first is
not, or the character after them is lower case. No other word than the first starts otherwise.
-/

namespace ApiConventions
namespace Text

variable {p c : Char} {w after before : List Char} {ws : List (List Char)}

/-- The words up to one of them make up this beginning of the text. -/
def EndsWord (ws : List (List Char)) (before : List Char) : Prop :=
  ∃ front, front <+: ws ∧ front.flatten = before

theorem endsWord_nil (ws : List (List Char)) : EndsWord ws [] :=
  ⟨[], List.nil_prefix, rfl⟩

/-- A beginning that is not empty has the first word in it. -/
theorem endsWord_cons_iff (nonempty : before ≠ []) :
    EndsWord (w :: ws) before ↔ ∃ rest, before = w ++ rest ∧ EndsWord ws rest := by
  constructor
  · rintro ⟨front, start, rfl⟩
    rcases List.prefix_cons_iff.1 start with rfl | ⟨others, rfl, more⟩
    · exact absurd rfl nonempty
    · exact ⟨others.flatten, rfl, others, more, rfl⟩
  · rintro ⟨_, rfl, front, start, rfl⟩
    exact ⟨w :: front, (List.prefix_cons_inj w).2 start, rfl⟩

/-- Behind a word of one character the words are those behind it. -/
theorem endsWord_singleton_cons : EndsWord ([p] :: ws) (p :: before) ↔ EndsWord ws before := by
  rw [endsWord_cons_iff (List.cons_ne_nil p before)]
  constructor
  · rintro ⟨rest, same, ends⟩
    cases same
    exact ends
  · exact fun ends => ⟨before, rfl, ends⟩

/-- A word with a character more in front ends where it did. -/
theorem endsWord_cons_cons (nonempty : before ≠ []) :
    EndsWord ((p :: w) :: ws) (p :: before) ↔ EndsWord (w :: ws) before := by
  rw [endsWord_cons_iff (List.cons_ne_nil p before), endsWord_cons_iff nonempty]
  simp

/-! ## Boundaries -/

theorem startsWord_iff {next : Option Char} : startsWord p c next = true ↔
    isUpper c = true ∧ (isUpper p = false ∨ ∃ d ∈ next, isLower d = true) := by
  cases next <;> simp [startsWord]

/-- A word ends in front of a character if one starts there. -/
theorem endsWord_wordsFrom {first : Char} {rest : List Char}
    (text : first :: rest = before ++ p :: c :: after) :
    EndsWord (wordsFrom first rest) (before ++ [p]) ↔ startsWord p c after.head? = true := by
  induction before generalizing first rest with
  | nil =>
    cases text
    obtain ⟨part, words, found, -⟩ := wordsFrom_eq_cons c after
    rw [wordsFrom, found, List.nil_append]
    by_cases starts : startsWord p c after.head? = true
    · simp only [starts, if_true, iff_true]
      exact endsWord_singleton_cons.2 (endsWord_nil _)
    · simp only [starts, Bool.false_eq_true, if_false, iff_false]
      rw [endsWord_cons_iff (List.cons_ne_nil p [])]
      rintro ⟨rest, same, -⟩
      simp at same
  | cons b before ih =>
    rw [List.cons_append, List.cons.injEq] at text
    obtain ⟨rfl, text⟩ := text
    have nonempty : before ++ [p] ≠ [] := by simp
    cases rest with
    | nil => simp at text
    | cons next rest =>
      have here := ih text
      obtain ⟨part, words, found, -⟩ := wordsFrom_eq_cons next rest
      rw [found] at here
      rw [wordsFrom, found, List.cons_append]
      by_cases starts : startsWord first next rest.head? = true
      · simp only [if_pos starts]
        rw [endsWord_singleton_cons, here]
      · simp only [if_neg starts]
        rw [endsWord_cons_cons nonempty, here]

theorem Cut.ne_nil (h : Cut ws) : ∀ w ∈ ws, w ≠ [] := by
  induction h with
  | nil => exact fun _ => nofun
  | cons _ _ _ ih => exact List.forall_mem_cons.2 ⟨List.cons_ne_nil _ _, ih⟩

theorem Cut.isUpper_head (h : Cut ws) : ∀ w ∈ ws.tail, ∃ c ∈ w.head?, isUpper c = true := by
  induction h with
  | nil => exact fun _ => nofun
  | cons _ breaks rest ih =>
    cases rest with
    | nil => exact fun _ => nofun
    | cons _ _ _ =>
      refine List.forall_mem_cons.2 ⟨⟨_, rfl, ?_⟩, ih⟩
      exact (startsWord_iff.1 breaks).1

/-! ## Words of names -/

theorem exists_join_iff {name : String} :
    (∃ front, front <+: words name ∧ (String.join front).toList = before) ↔
      EndsWord (wordsOf name.toList) before := by
  constructor
  · rintro ⟨front, start, rfl⟩
    obtain ⟨parts, first, rfl⟩ := List.prefix_map_iff.1 start
    exact ⟨parts, first, by simp [String.toList_join, List.flatMap_map]⟩
  · rintro ⟨parts, first, rfl⟩
    refine ⟨parts.map String.ofList, first.map _, ?_⟩
    simp [String.toList_join, List.flatMap_map]

end Text
end ApiConventions
