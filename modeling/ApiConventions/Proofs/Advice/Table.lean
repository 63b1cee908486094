import ApiConventions.Rule.FieldAdvice

/-!
# ApiConventions.Proofs.Advice.Table

The decision table on pointers. A finding either asks for a pointer, or asks to remove one, or is
about tags. `Pointed` says how the facts about a field change when a pointer level is added to
its type; the advice to add the level and the advice to remove it are never both given. `Remark`
lists everything the table may say, with its reasons and its words.
-/

namespace ApiConventions

/-- Findings that ask to make the field a pointer. -/
def FindingKind.asksForPointer : FindingKind → Bool
  | .shouldBePointer | .incompleteValidation | .minPropertiesPointer | .zeroNotAllowedPointer
  | .alwaysPointer => true
  | _ => false

/-- Findings that ask to remove the only pointer level of the field. -/
def FindingKind.asksForNoPointer : FindingKind → Bool
  | .needNotBePointer | .pointerToContainer => true
  | _ => false

/-- How the message of a remark goes on after the name of the field. -/
def FindingKind.opening : FindingKind → String
  | .missingOmitEmpty => " should have the omitempty tag."
  | .doublePointer => " is a pointer type and should not be a pointer."
  | .pointerToContainer => " is a pointer to a "
  | .shouldBePointer => " has a valid zero value ("
  | .incompleteValidation => " has a valid zero value ("
  | .needNotBePointer => " does not allow the zero value. The field does not need to be a pointer."
  | .mustHaveOmitEmpty => " does not allow the zero value. It must have the omitempty tag."
  | .minPropertiesPointer =>
    " has a greater than zero minimum number of properties and should be a pointer."
  | .zeroNotAllowedPointer => " does not allow the zero value and should be a pointer."
  | .alwaysPointer => " should be a pointer."

/--
What is known about a field after a pointer level is added to its type, in terms of what was
known before: everything stays but the zero value of a struct, which may contain the field
itself. At the step limit the type becomes opaque.
-/
structure FieldFacts.Pointed (x y : FieldFacts) : Prop where
  omitZero : y.omitZero = x.omitZero
  shape : y.shape = .other ∧ (x.pointerDepth = 0 → y.pointerDepth = 1) ∨
    y.shape = x.shape ∧ y.pointerDepth = x.pointerDepth + 1 ∧
      (x.shape ≠ .struct ∨ x.omitZero = true → y.zero = x.zero)

namespace Advice

variable {x y : FieldFacts} {r : Requirement} {o : AdviceOptions} {g : Finding}

theorem mem_evaluate :
    g ∈ evaluate x r o ↔ onOmission x o = some g ∨ onPointer x r o = some g := by
  rw [evaluate, List.mem_append, Option.mem_toList, Option.mem_toList]

theorem kind_of_onOmission (h : onOmission x o = some g) : g.kind = .missingOmitEmpty := by
  rw [onOmission] at h
  split at h
  · cases h
    rfl
  · cases h

theorem not_asksForPointer_of_onContainer {word : String} (h : onContainer x o word = some g) :
    g.kind.asksForPointer = false := by
  rw [onContainer] at h
  split at h
  · cases h
    rfl
  · split at h
    · cases h
      rfl
    · cases h

/-- When the table asks for a pointer, and why. -/
theorem of_asksForPointer (h : onPointer x r o = some g) (hg : g.kind.asksForPointer = true) :
    x.pointerDepth = 0 ∧ containerWord? x.shape = none ∧ x.shape ≠ .other ∧
      (x.zero.valid = true ∨ preference r o = .always ∨
        x.shape = .struct ∧ x.omitZero = false) := by
  rw [onPointer] at h
  split at h
  · cases h
    cases hg
  · split at h
    · rw [not_asksForPointer_of_onContainer h] at hg
      cases hg
    · rename_i hc
      split at h
      · cases h
      · rename_i ho
        split at h
        · rename_i hz
          rw [onValidZero] at h
          split at h
          · cases h
          · rename_i hp
            refine ⟨?_, hc, ho, .inl hz⟩
            simpa [FieldFacts.isPointer] using hp
        · rw [onInvalidZero] at h
          split at h
          · split at h
            · cases h
              cases hg
            · cases h
          · rename_i hp
            have hp : x.pointerDepth = 0 := by simpa [FieldFacts.isPointer] using hp
            split at h
            · rename_i hs
              rw [Bool.and_eq_true, decide_eq_true_iff, Bool.not_eq_true'] at hs
              exact ⟨hp, hc, ho, .inr (.inr hs)⟩
            · split at h
              · rename_i hpref
                exact ⟨hp, hc, ho, .inr (.inl hpref)⟩
              · split at h
                · cases h
                  cases hg
                · cases h

/-- When the table has a remark on a single pointer level, and why. -/
theorem of_pointer (h : onPointer y r o = some g) (hp : y.pointerDepth = 1) :
    y.shape ≠ .other ∧ (containerWord? y.shape = none → y.zero.valid = false ∧
      preference r o = .whenRequired ∧ (y.shape ≠ .struct ∨ y.omitZero = true)) := by
  have isPointer : y.isPointer = true := by simp [FieldFacts.isPointer, hp]
  rw [onPointer, if_neg (by omega)] at h
  split at h
  · rename_i word hc
    refine ⟨fun ho => ?_, fun hn => ?_⟩
    · rw [ho] at hc
      cases hc
    · rw [hn] at hc
      cases hc
  · split at h
    · cases h
    · rename_i ho
      refine ⟨ho, fun _ => ?_⟩
      split at h
      · rw [onValidZero, if_pos isPointer] at h
        cases h
      · rename_i hz
        rw [onInvalidZero, if_pos isPointer] at h
        split at h
        · rename_i hpref
          rw [Bool.and_eq_true, decide_eq_true_iff, Bool.or_eq_true, bne_iff_ne] at hpref
          exact ⟨by simpa using hz, hpref⟩
        · cases h

/-- The table does not ask for a pointer and then object to it. -/
theorem onPointer_of_asksForPointer (h : x.Pointed y) (hx : onPointer x r o = some g)
    (hg : g.kind.asksForPointer = true) : onPointer y r o = none := by
  obtain ⟨hdepth, hword, hother, hwhy⟩ := of_asksForPointer hx hg
  cases hy : onPointer y r o with
  | none => rfl
  | some g' =>
    exfalso
    rcases h.shape with ⟨hunknown, hone⟩ | ⟨hshape, hone, hzero⟩
    · exact (of_pointer hy (hone hdepth)).1 hunknown
    · obtain ⟨-, hbad⟩ := of_pointer hy (by rw [hone, hdepth])
      rw [hshape, h.omitZero] at hbad
      obtain ⟨hinvalid, hpref, hstruct⟩ := hbad hword
      rw [hzero hstruct] at hinvalid
      rcases hwhy with hvalid | halways | ⟨hs, ho⟩
      · rw [hinvalid] at hvalid
        cases hvalid
      · rw [hpref] at halways
        cases halways
      · rcases hstruct with hs' | ho'
        · exact hs' hs
        · rw [ho] at ho'
          cases ho'

/-- After a pointer is added as asked, nothing is left to say but that a tag is missing. -/
theorem evaluate_pointed (h : x.Pointed y) (hx : ∃ g ∈ evaluate x r o, g.kind.asksForPointer = true)
    (hy : g ∈ evaluate y r o) : g.kind = .missingOmitEmpty := by
  obtain ⟨g', hmem, hasks⟩ := hx
  rcases mem_evaluate.1 hmem with homit | hx
  · rw [kind_of_onOmission homit] at hasks
    cases hasks
  · rcases mem_evaluate.1 hy with homit | hy
    · exact kind_of_onOmission homit
    · rw [onPointer_of_asksForPointer h hx hasks] at hy
      cases hy

/-- Where the table asks to remove a pointer, it does not ask to add it afterwards. -/
theorem evaluate_unpointed (h : x.Pointed y)
    (hy : ∃ g ∈ evaluate y r o, g.kind.asksForNoPointer = true) (hx : g ∈ evaluate x r o) :
    g.kind.asksForPointer = false := by
  obtain ⟨g', hmem, hasks⟩ := hy
  rcases mem_evaluate.1 hx with homit | hx
  · rw [kind_of_onOmission homit]
    rfl
  · cases hg : g.kind.asksForPointer with
    | false => rfl
    | true =>
      rcases mem_evaluate.1 hmem with homit | hy
      · rw [kind_of_onOmission homit] at hasks
        cases hasks
      · rw [onPointer_of_asksForPointer h hx hg] at hy
        cases hy

/-! ## Reasons -/

/-- The remarks on a field, each with the reason that it gives. -/
inductive Remark (x : FieldFacts) : Finding → Prop where
  | missingOmitEmpty (policy : OmitEmptyPolicy) : Remark x (missingOmitEmpty x.name policy)
  | doublePointer : Remark x (doublePointer x.name)
  | pointerToContainer (word : String) : Remark x (pointerToContainer x.name word)
  | shouldBePointer (valid : x.zero.valid = true) :
      Remark x (shouldBePointer x.name x.shape.zeroLiteral)
  | incompleteValidation (valid : x.zero.valid = true) :
      Remark x (incompleteValidation x.name x.shape.zeroLiteral (validationHint x.shape))
  | needNotBePointer (invalid : x.zero.valid = false) : Remark x (needNotBePointer x.name)
  | mustHaveOmitEmpty (invalid : x.zero.valid = false) : Remark x (mustHaveOmitEmpty x.name)
  | minPropertiesPointer (few : x.failsMinProperties = true) : Remark x (minPropertiesPointer x.name)
  | zeroNotAllowedPointer (invalid : x.zero.valid = false) : Remark x (zeroNotAllowedPointer x.name)
  | alwaysPointer : Remark x (alwaysPointer x.name)

theorem remark_of_onOmission (h : onOmission x o = some g) : Remark x g := by
  rw [onOmission] at h
  split at h
  · cases h
    exact .missingOmitEmpty o.omitEmpty
  · cases h

theorem remark_of_onContainer {word : String} (h : onContainer x o word = some g) :
    Remark x g := by
  rw [onContainer] at h
  split at h
  · cases h
    exact .pointerToContainer word
  · split at h
    · rename_i hz
      cases h
      simp only [Bool.and_eq_true, Bool.not_eq_true'] at hz
      exact .mustHaveOmitEmpty hz.2
    · cases h

theorem remark_of_onValidZero (valid : x.zero.valid = true) (h : onValidZero x = some g) :
    Remark x g := by
  rw [onValidZero] at h
  split at h
  · cases h
  · split at h
    · cases h
      exact .shouldBePointer valid
    · cases h
      exact .incompleteValidation valid

theorem remark_of_onInvalidZero {preference : PointerPreference} (invalid : x.zero.valid = false)
    (h : onInvalidZero x preference o = some g) : Remark x g := by
  rw [onInvalidZero] at h
  split at h
  · split at h
    · cases h
      exact .needNotBePointer invalid
    · cases h
  · split at h
    · split at h
      · rename_i few
        cases h
        exact .minPropertiesPointer few
      · cases h
        exact .zeroNotAllowedPointer invalid
    · split at h
      · cases h
        exact .alwaysPointer
      · split at h
        · cases h
          exact .mustHaveOmitEmpty invalid
        · cases h

theorem remark_of_mem_evaluate (h : g ∈ evaluate x r o) : Remark x g := by
  rcases mem_evaluate.1 h with h | h
  · exact remark_of_onOmission h
  · rw [onPointer] at h
    split at h
    · cases h
      exact .doublePointer
    · split at h
      · exact remark_of_onContainer h
      · split at h
        · cases h
        · split at h
          · rename_i valid
            exact remark_of_onValidZero valid h
          · rename_i valid
            exact remark_of_onInvalidZero (by simpa using valid) h

theorem Remark.message (h : Remark x g) :
    ∃ rest, g.message = "field " ++ x.name ++ (g.kind.opening ++ rest) := by
  have closed (words : String) : "field " ++ x.name ++ words = "field " ++ x.name ++ (words ++ "") :=
    by rw [String.append_empty]
  have assoc (a b c d : String) : a ++ b ++ c ++ d = a ++ (b ++ (c ++ d)) := by
    simp only [String.append_assoc]
  cases h with
  | pointerToContainer word => exact ⟨_, assoc _ _ _ _⟩
  | shouldBePointer valid => exact ⟨_, assoc _ _ _ _⟩
  | incompleteValidation valid =>
    refine ⟨?rest, ?message⟩
    case message =>
      rw [Advice.incompleteValidation]
      simp only [toString, String.append_assoc, FindingKind.opening]
      rfl
  | missingOmitEmpty policy => exact ⟨"", closed _⟩
  | doublePointer => exact ⟨"", closed _⟩
  | needNotBePointer invalid => exact ⟨"", closed _⟩
  | mustHaveOmitEmpty invalid => exact ⟨"", closed _⟩
  | minPropertiesPointer few => exact ⟨"", closed _⟩
  | zeroNotAllowedPointer invalid => exact ⟨"", closed _⟩
  | alwaysPointer => exact ⟨"", closed _⟩

end Advice
end ApiConventions
