import Mathlib.Data.List.Indexes
import ApiConventions.Proofs.Text.Words
import ApiConventions.Rule.NoReferences

/-!
# ApiConventions.Proofs.Rule.ReferenceWords

Names with `Ref` for `Reference`. A message about a name is a request to abbreviate the words at
its ends. Doing so moves no other word, and there is nothing more to say about the name then.
-/

namespace ApiConventions
namespace NoReferences

open Text (Interchangeable isUpper join_words)

variable {name : String}

/-- The short form of a word for references; other words stay. -/
def abbreviate (word : String) : String :=
  if word = "Reference" then "Ref" else if word = "References" then "Refs" else word

/-- The words with the first and the last of them in their short forms. -/
def abbreviateEnds (words : List String) : List String :=
  words.mapIdx fun i word => if i = 0 ∨ i + 1 = words.length then abbreviate word else word

/-- The name with the words at its ends in their short forms. -/
def abbreviated (name : String) : String :=
  String.join (abbreviateEnds (Text.words name))

theorem interchangeable_abbreviate (word : String) :
    Interchangeable word.toList (abbreviate word).toList := by
  have full : "Reference".toList = 'R' :: 'e' :: "ference".toList := by decide +kernel
  have fulls : "References".toList = 'R' :: 'e' :: "ferences".toList := by decide +kernel
  have short : "Ref".toList = 'R' :: 'e' :: "f".toList := by decide +kernel
  have shorts : "Refs".toList = 'R' :: 'e' :: "fs".toList := by decide +kernel
  have small (w : String) (h : (w.toList.all fun a => !isUpper a) = true) :
      ∀ a ∈ w.toList, isUpper a = false := by simpa using h
  rw [abbreviate]
  split
  · rename_i same
    rw [same, full, short]
    exact .ends (by decide +kernel) (small _ (by decide +kernel)) (small _ (by decide +kernel))
  · split
    · rename_i same
      rw [same, fulls, shorts]
      exact .ends (by decide +kernel) (small _ (by decide +kernel)) (small _ (by decide +kernel))
    · exact .refl _

/-! ## Words -/

theorem forall₂_mapIdx {α β : Type} {R : α → β → Prop} {f : Nat → α → β} (l : List α)
    (h : ∀ i, ∀ a, R a (f i a)) : List.Forall₂ R l (l.mapIdx f) := by
  induction l generalizing f with
  | nil => exact .nil
  | cons a l ih =>
    rw [List.mapIdx_cons]
    exact .cons (h 0 a) (ih fun i => h (i + 1))

/-- The name with other ends is made up of the words with other ends. -/
theorem words_abbreviated (name : String) :
    Text.words (abbreviated name) = abbreviateEnds (Text.words name) := by
  have cut : Text.Cut ((Text.words name).map String.toList) := by
    rw [Text.words, List.map_map]
    simpa [Function.comp_def] using Text.cut_wordsOf name.toList
  have alike : List.Forall₂ Interchangeable ((Text.words name).map String.toList)
      ((abbreviateEnds (Text.words name)).map String.toList) := by
    rw [List.forall₂_map_left_iff, List.forall₂_map_right_iff, abbreviateEnds]
    refine forall₂_mapIdx _ fun i word => ?_
    split
    · exact interchangeable_abbreviate word
    · exact .refl _
  have read := (cut.congr alike).wordsOf_flatten
  rw [Text.words, abbreviated, String.toList_join, List.flatMap_def, read, List.map_map]
  simp [Function.comp_def]

/-! ## Messages -/

/-- There is a message about a name if one of its ends is spelled out and nothing is abbreviated. -/
theorem exists_message_iff : (∃ message, message? .preferAbbreviatedReference name = some message) ↔
    ((∃ word ∈ (Text.words name).head?, word ∈ ["Reference", "References"]) ∨
      ∃ word ∈ (Text.words name).getLast?, word ∈ ["Reference", "References"]) ∧
    ∀ word ∈ Text.words name, word ∉ ["Ref", "Refs"] := by
  have short : (Text.words name).any isAbbreviated = true ↔
      ∃ word ∈ Text.words name, word ∈ ["Ref", "Refs"] := by
    simp [isAbbreviated]
  have ends (long : String) : [(Text.words name).head?, (Text.words name).getLast?].contains
      (some long) = true ↔ long ∈ (Text.words name).head? ∨ long ∈ (Text.words name).getLast? := by
    rw [List.contains_iff_mem, List.mem_pair]
    exact or_congr eq_comm eq_comm
  simp only [message?]
  by_cases abbreviated : (Text.words name).any isAbbreviated = true
  · obtain ⟨word, mem, same⟩ := short.1 abbreviated
    rw [if_pos abbreviated]
    refine ⟨?_, fun spelled => absurd same (spelled.2 word mem)⟩
    rintro ⟨_, ⟨⟩⟩
  · have long : ∀ word ∈ Text.words name, word ∉ ["Ref", "Refs"] := fun word mem same =>
      abbreviated (short.2 ⟨word, mem, same⟩)
    rw [if_neg abbreviated, and_iff_left long]
    split
    · rename_i plural
      refine ⟨fun _ => ?_, fun _ => ⟨_, rfl⟩⟩
      exact ((ends _).1 plural).imp (⟨_, ·, by decide⟩) (⟨_, ·, by decide⟩)
    · rename_i plural
      split
      · rename_i singular
        refine ⟨fun _ => ?_, fun _ => ⟨_, rfl⟩⟩
        exact ((ends _).1 singular).imp (⟨_, ·, by decide⟩) (⟨_, ·, by decide⟩)
      · rename_i singular
        rw [ends] at plural singular
        refine ⟨?_, fun spelled => ?_⟩
        · rintro ⟨_, ⟨⟩⟩
        · rcases spelled with ⟨word, mem, same⟩ | ⟨word, mem, same⟩ <;>
            rcases List.mem_pair.1 same with rfl | rfl
          · exact absurd (.inl mem) singular
          · exact absurd (.inl mem) plural
          · exact absurd (.inr mem) singular
          · exact absurd (.inr mem) plural

theorem abbreviate_short (word : String) : abbreviate word ∉ ["Reference", "References"] := by
  rw [abbreviate]
  split
  · decide
  · split
    · decide
    · simp [*]

end NoReferences
end ApiConventions
