import Mathlib.Data.List.Forall2
import ApiConventions.Text.Words

/-!
# ApiConventions.Proofs.Text.Words

Camel-case words. `Cut` says of a list of words that no word starts inside one of them and that
one starts wherever one ends; these are the words of the text that they make up, and of no other
text. Where a word starts depends on two characters from there and on the case of the one before,
so the end of a word in lower case can be changed without moving any cut (`Cut.congr`).
-/

namespace ApiConventions
namespace Text

/-- No word starts in this part of a text, between the character before it and the text after it. -/
def Unbroken (previous : Char) : List Char → List Char → Prop
  | [], _ => True
  | current :: part, after =>
    startsWord previous current (part ++ after).head? = false ∧ Unbroken current part after

/-- After this character the text is over, or a word starts. -/
def Breaks (previous : Char) : List Char → Prop
  | [] => True
  | current :: rest => startsWord previous current rest.head? = true

/-- A text in words, none of which is empty. -/
inductive Cut : List (List Char) → Prop where
  | nil : Cut []
  | cons {first : Char} {part : List Char} {words : List (List Char)}
      (unbroken : Unbroken first part words.flatten)
      (breaks : Breaks (part.getLastD first) words.flatten) (rest : Cut words) :
      Cut ((first :: part) :: words)

variable {p q c : Char} {part after after' w w' : List Char} {ws ws' : List (List Char)}

/-! ## The words of a text -/

theorem wordsFrom_eq_cons (p : Char) (rest : List Char) :
    ∃ part words, wordsFrom p rest = (p :: part) :: words ∧ rest = part ++ words.flatten := by
  induction rest generalizing p with
  | nil => exact ⟨[], [], rfl, rfl⟩
  | cons c rest ih =>
    obtain ⟨part, words, found, rfl⟩ := ih c
    by_cases starts : startsWord p c (part ++ words.flatten).head? = true
    · exact ⟨[], (c :: part) :: words, by rw [wordsFrom, found]; exact if_pos starts, rfl⟩
    · exact ⟨c :: part, words, by rw [wordsFrom, found]; exact if_neg starts, rfl⟩

theorem flatten_wordsOf (cs : List Char) : (wordsOf cs).flatten = cs := by
  cases cs with
  | nil => rfl
  | cons p rest =>
    obtain ⟨part, words, found, rfl⟩ := wordsFrom_eq_cons p rest
    rw [wordsOf, found]
    rfl

theorem join_words (name : String) : String.join (words name) = name := by
  rw [← String.toList_inj, String.toList_join, words, List.flatMap_map]
  simp only [String.toList_ofList, List.flatMap_id', flatten_wordsOf]

theorem wordsFrom_append (unbroken : Unbroken p part after)
    (breaks : Breaks (part.getLastD p) after) :
    wordsFrom p (part ++ after) = (p :: part) :: wordsOf after := by
  induction part generalizing p with
  | nil =>
    cases after with
    | nil => rfl
    | cons c rest =>
      obtain ⟨part, words, found, -⟩ := wordsFrom_eq_cons c rest
      rw [List.nil_append, wordsOf, wordsFrom, found]
      exact if_pos breaks
  | cons c part ih =>
    obtain ⟨inside, unbroken⟩ := unbroken
    rw [List.getLastD_cons] at breaks
    rw [List.cons_append, wordsFrom, ih unbroken breaks]
    exact if_neg (Bool.eq_false_iff.1 inside)

/-- Words that make up a text as they should are the words of the text. -/
theorem Cut.wordsOf_flatten (h : Cut ws) : wordsOf ws.flatten = ws := by
  induction h with
  | nil => rfl
  | @cons first part words unbroken breaks _ ih =>
    rw [List.flatten_cons, List.cons_append, wordsOf, wordsFrom_append unbroken breaks, ih]

theorem cut_wordsOf (cs : List Char) : Cut (wordsOf cs) := by
  cases cs with
  | nil => exact .nil
  | cons p rest =>
    rw [wordsOf]
    induction rest generalizing p with
    | nil => exact .cons trivial trivial .nil
    | cons c rest ih =>
      obtain ⟨part, words, found, rfl⟩ := wordsFrom_eq_cons c rest
      have tail := ih c
      rw [found] at tail
      rw [wordsFrom, found]
      by_cases starts : startsWord p c (part ++ words.flatten).head? = true
      · simp only [if_pos starts]
        exact .cons trivial starts tail
      · simp only [if_neg starts]
        cases tail with
        | cons unbroken breaks others =>
          refine .cons ⟨by simpa using starts, unbroken⟩ ?_ others
          rw [List.getLastD_cons]
          exact breaks

/-! ## Changing words -/

theorem startsWord_of_not_upper (h : isUpper c = false) (next : Option Char) :
    startsWord p c next = false := by
  rw [startsWord, h, Bool.false_and]

theorem unbroken_of_not_upper (h : ∀ a ∈ part, isUpper a = false) : Unbroken p part after := by
  induction part generalizing p with
  | nil => trivial
  | cons c part ih =>
    obtain ⟨small, others⟩ := List.forall_mem_cons.1 h
    exact ⟨startsWord_of_not_upper small _, ih others⟩

theorem Unbroken.congr (same : after.take 2 = after'.take 2) (h : Unbroken p part after) :
    Unbroken p part after' := by
  induction part generalizing p with
  | nil => trivial
  | cons c part ih =>
    have first : after.head? = after'.head? := by
      simpa [List.head?_take] using congrArg List.head? same
    have head : (part ++ after').head? = (part ++ after).head? := by
      rw [List.head?_append, List.head?_append, first]
    exact ⟨head ▸ h.1, ih h.2⟩

theorem Breaks.congr (upper : isUpper p = isUpper q) (same : after.take 2 = after'.take 2)
    (h : Breaks p after) : Breaks q after' := by
  rcases after with - | ⟨c, - | ⟨d, after⟩⟩ <;> rcases after' with - | ⟨c', - | ⟨d', after'⟩⟩ <;>
    simp_all [Breaks, startsWord]

/-- Two words that start with the same two characters and have no capital after the first one. -/
inductive Interchangeable : List Char → List Char → Prop where
  | refl (w : List Char) : Interchangeable w w
  | ends {c d : Char} {x y : List Char} (small : isUpper d = false)
      (before : ∀ a ∈ x, isUpper a = false) (now : ∀ a ∈ y, isUpper a = false) :
      Interchangeable (c :: d :: x) (c :: d :: y)

theorem Interchangeable.take_append (h : Interchangeable w w')
    (same : after.take 2 = after'.take 2) : (w ++ after).take 2 = (w' ++ after').take 2 := by
  cases h with
  | refl w =>
    have shorter : after.take (2 - w.length) = after'.take (2 - w.length) := by
      have cut := congrArg (List.take (2 - w.length)) same
      rwa [List.take_take, List.take_take, Nat.min_eq_left (Nat.sub_le 2 w.length)] at cut
    rw [List.take_append, List.take_append, shorter]
  | ends _ _ _ => rfl

theorem take_flatten (h : List.Forall₂ Interchangeable ws ws') :
    ws.flatten.take 2 = ws'.flatten.take 2 := by
  induction h with
  | nil => rfl
  | cons word _ ih => exact word.take_append ih

theorem isUpper_getLastD (h : ∀ a ∈ p :: part, isUpper a = false) :
    isUpper (part.getLastD p) = false := by
  rw [← List.getLast_eq_getLastD (List.cons_ne_nil p part)]
  exact h _ (List.getLast_mem _)

theorem Cut.congr (h : Cut ws) (words : List.Forall₂ Interchangeable ws ws') : Cut ws' := by
  induction h generalizing ws' with
  | nil =>
    cases words
    exact .nil
  | @cons first _ _ unbroken breaks _ ih =>
    cases words with
    | cons word others =>
      have same := take_flatten others
      cases word with
      | refl => exact .cons (unbroken.congr same) (breaks.congr rfl same) (ih others)
      | @ends _ d x y small before now =>
        have last (z : List Char) (hz : ∀ a ∈ z, isUpper a = false) :
            isUpper ((d :: z).getLastD first) = false := by
          rw [List.getLastD_cons]
          exact isUpper_getLastD (List.forall_mem_cons.2 ⟨small, hz⟩)
        have alike := (last x before).trans (last y now).symm
        exact .cons (unbroken_of_not_upper (List.forall_mem_cons.2 ⟨small, now⟩))
          (breaks.congr alike same) (ih others)

end Text
end ApiConventions
