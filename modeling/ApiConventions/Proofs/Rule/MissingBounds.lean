import ApiConventions.Proofs.Constraint.Tighten
import ApiConventions.Proofs.Correspondence.Lists
import ApiConventions.Proofs.Rule.InvalidMarkers

/-!
# ApiConventions.Proofs.Rule.MissingBounds

Messages that ask for a marker. A message names the marker that it asks for, and the marker is read
as the bound that is missing; so with the marker the message is not repeated, and with one marker
more no subject gets a message that it did not have.
-/

namespace ApiConventions

/-- A diagnostic that asks to add a validation marker; names of markers have no blanks. -/
def Diagnostic.AsksFor (g : Diagnostic) (name : String) : Prop :=
  ' ' ∉ name.toList ∧
    ∃ text, g.message = text ++ ", add kubebuilder:validation:" ++ name ++ " marker"

/-- The comment line that sets a validation marker to one. -/
def validationLine (name : String) : String :=
  "// +kubebuilder:validation:" ++ name ++ "=1"

namespace Side

/-- Whose bound is missing. -/
inductive Target where
  | own
  | elements
deriving DecidableEq, Repr

def Target.of : Target → String
  | .own => ""
  | .elements => " array element"

def Target.path : Target → String
  | .own => ""
  | .elements => "items:"

/-- The name of the marker for a bound. -/
def markerName (s : Side) (t : Target) (m : Measure) : String :=
  t.path ++ s.abbreviation ++ m.markerEnd

def identifier (s : Side) (t : Target) (m : Measure) : String :=
  "kubebuilder:validation:" ++ s.markerName t m

def marker (s : Side) (t : Target) (m : Measure) : Marker where
  identifier := s.identifier t m
  value := some "1"
  expressions := []
  raw := s.identifier t m ++ "=1"

variable {s : Side} {t t' : Target} {m m' : Measure}

theorem parse_validationLine (s : Side) (t : Target) (m : Measure) :
    Registry.standard.parse [validationLine (s.markerName t m)] = [s.marker t m] := by
  cases s <;> cases t <;> cases m <;> decide +kernel

theorem boundsSize_marker (s : Side) (t : Target) (m : Measure) : (s.marker t m).BoundsSize 1 where
  asInt := rfl
  other := by
    cases s <;> cases t <;> cases m <;> decide +kernel

theorem marker_not_requirement (s : Side) (t : Target) (m : Measure) :
    (s.marker t m).identifier ∉ MarkerName.optionalFamily ++ MarkerName.requiredFamily := by
  cases s <;> cases t <;> cases m <;> decide +kernel

theorem blank_notMem_markerName (s : Side) (t : Target) (m : Measure) :
    ' ' ∉ (s.markerName t m).toList := by
  cases s <;> cases t <;> cases m <;> decide +kernel

theorem markerName_inj (h : s.markerName t m = s.markerName t' m') : t = t' ∧ m = m' := by
  revert h
  cases s <;> cases t <;> cases t' <;> cases m <;> cases m' <;> decide +kernel

/-! ## What a bound is read from -/

theorem bound?_own (s : Side) (m : Measure) (layers : List MarkerSet) (kind : Kind) :
    s.bound? (Layers.own layers kind).constraints m =
      (Layers.read layers (s.identifier .own m) Marker.asInt).value := by
  cases s <;> cases m <;> rfl

theorem bound?_overElements (s : Side) (hm : m ≠ .items) (layers : List MarkerSet)
    (e : Extraction) : s.bound? (Layers.overElements layers e).constraints m =
      (Layers.read layers (s.identifier .elements m) Marker.asInt).value.or
        (s.bound? e.constraints m) := by
  cases m with
  | items => exact absurd rfl hm
  | length => cases s <;> rfl
  | properties => cases s <;> rfl

/-! ## Requests -/

/-- The message that asks for a bound. -/
def request (s : Side) (subject : Subject) (q : Target × Measure) : String :=
  s.missing subject q.1.of q.1.path q.2

def missingElement? (s : Side) (p : Program) (r : Resolved) (c : Constraints) : Option Measure :=
  match Shape.ofResolved r, r.elem? with
  | .list, some elem => s.lackingElement? (c.items.getD {}) (Shape.ofResolved (p.resolve elem))
  | _, _ => none

/-- Every bound that a subject lacks. -/
def missingMeasures (s : Side) (p : Program) (r : Resolved) (c : Constraints)
    (withStructs : Bool) : List (Target × Measure) :=
  (s.lacking? c withStructs (Shape.ofResolved r)).toList.map (.own, ·) ++
    (s.missingElement? p r c).toList.map (.elements, ·)

theorem missingBounds_eq (s : Side) (p : Program) (subject : Subject) (r : Resolved)
    (c : Constraints) (withStructs : Bool) :
    s.missingBounds p subject r c withStructs =
      (s.missingMeasures p r c withStructs).map (s.request subject) := by
  rw [missingBounds, missingMeasures, missingElement?, List.map_append, List.map_map, List.map_map]
  congr 1
  cases Shape.ofResolved r with
  | list => cases r.elem? <;> rfl
  | _ => rfl

end Side

/-! ## Names in messages -/

/-- A text that ends in a blank and a word determines the word. -/
theorem word_eq_of_append {xs ys w v : List Char} (hw : ' ' ∉ w) (hv : ' ' ∉ v)
    (h : xs ++ ' ' :: w = ys ++ ' ' :: v) : w = v := by
  have lastWord (zs : List Char) {u : List Char} (hu : ' ' ∉ u) :
      (zs ++ ' ' :: u).reverse.takeWhile (· != ' ') = u.reverse := by
    have keeps : ∀ c ∈ u.reverse, (c != ' ') = true := by
      intro c hc
      rw [bne_iff_ne]
      rintro rfl
      exact hu (List.mem_reverse.1 hc)
    rw [List.reverse_append, List.reverse_cons, List.append_assoc,
      List.takeWhile_append_of_pos keeps]
    simp
  have same := lastWord xs hw
  rw [h, lastWord ys hv] at same
  exact (List.reverse_injective same).symm

namespace Diagnostic

variable {g : Diagnostic} {name : String} {s : Side} {subject : Subject}

theorem asksFor_request {q : Side.Target × Side.Measure} (h : g.message = s.request subject q) :
    g.AsksFor (s.markerName q.1 q.2) := by
  refine ⟨s.blank_notMem_markerName q.1 q.2, ?_⟩
  refine ⟨subject.text ++ q.1.of ++ " must have a " ++ s.word ++ " " ++ q.2.word, ?_⟩
  rw [h, Side.request, Side.missing, Side.markerName]
  simp only [String.append_assoc]

theorem AsksFor.name_eq {name' : String} (h : g.AsksFor name) (h' : g.AsksFor name') :
    name = name' := by
  obtain ⟨hblank, text, htext⟩ := h
  obtain ⟨hblank', text', htext'⟩ := h'
  have path (w : String) (hw : ' ' ∉ w.toList) :
      ' ' ∉ "kubebuilder:validation:".toList ++ w.toList := by
    rw [List.mem_append, not_or]
    exact ⟨by decide +kernel, hw⟩
  have split (text w : String) :
      (text ++ ", add kubebuilder:validation:" ++ w ++ " marker").toList =
        ((text.toList ++ ", add".toList) ++ ' ' :: ("kubebuilder:validation:".toList ++ w.toList)) ++
          " marker".toList := by
    simp only [String.toList_append, List.append_assoc]
    rfl
  have same := congrArg String.toList (htext.symm.trans htext')
  rw [split, split] at same
  have words := word_eq_of_append (path _ hblank) (path _ hblank') (List.append_cancel_right same)
  exact String.toList_inj.1 (List.append_cancel_left words)

theorem not_asksFor_of_mem_ofErrors {pos : Position} {errors : List ValueError}
    (h : g ∈ Diagnostic.ofErrors pos subject errors) : ¬ g.AsksFor name := by
  rintro ⟨-, text, said⟩
  obtain ⟨e, -, rfl⟩ := List.mem_map.1 h
  obtain ⟨start, message⟩ : ∃ start, subject.text ++ " has an invalid validation marker: " ++
      e.message = start ++ e.expected.name := ⟨_, String.append_assoc.symm⟩
  have same := congrArg String.toList (message.symm.trans said)
  rw [String.toList_append, String.toList_append] at same
  have ends : " marker".toList <:+ start.toList ++ e.expected.name.toList :=
    same ▸ List.suffix_append _ _
  have kind : e.expected.name.toList <:+ start.toList ++ e.expected.name.toList :=
    List.suffix_append _ _
  have differ : ∀ kind : ValueKind, (" marker".toList.isSuffixOf kind.name.toList ||
      kind.name.toList.isSuffixOf " marker".toList) = false := by
    intro kind
    cases kind <;> decide +kernel
  have differ := differ e.expected
  rw [Bool.or_eq_false_iff] at differ
  rcases List.suffix_or_suffix_of_suffix ends kind with hs | hs
  · rw [List.isSuffixOf_iff_suffix.2 hs] at differ
    cases differ.1
  · rw [List.isSuffixOf_iff_suffix.2 hs] at differ
    cases differ.2

end Diagnostic

/-! ## Two programs -/

/-- Types of one shape with elements of one shape, each resolved in its own program. -/
structure SameShapes (p p' : Program) (r r' : Resolved) : Prop where
  shape : Shape.ofResolved r' = Shape.ofResolved r
  elem : Option.Rel (fun t t' => Shape.ofResolved (p'.resolve t') = Shape.ofResolved (p.resolve t))
    r.elem? r'.elem?

section TwoPrograms

variable {s : Side} {p p' : Program} {r r' : Resolved} {c c' : Constraints} {withStructs : Bool}
  {m : Side.Measure} {q : Side.Target × Side.Measure}

theorem Side.mem_missingMeasures_own : (.own, m) ∈ s.missingMeasures p r c withStructs ↔
    s.lacking? c withStructs (Shape.ofResolved r) = some m := by
  simp [missingMeasures]

theorem Side.mem_missingMeasures_elements :
    (.elements, m) ∈ s.missingMeasures p r c withStructs ↔ s.missingElement? p r c = some m := by
  simp [missingMeasures]

theorem Side.missingElement?_of_tightens (h : SameShapes p p' r r')
    (ht : (c.items.getD {}).Tightens (c'.items.getD {}))
    (hm : s.missingElement? p' r' c' = some m) : s.missingElement? p r c = some m := by
  have helem := h.elem
  rw [missingElement?, h.shape] at hm
  rw [missingElement?]
  cases hs : Shape.ofResolved r with
  | list =>
    rcases option_rel_cases helem with ⟨he, he'⟩ | ⟨t, t', he, he', hshape⟩
    · rw [hs, he'] at hm
      cases hm
    · rw [he]
      simp only [hs, he', hshape] at hm
      exact lackingElement?_of_tightens ht hm
  | _ =>
    rw [hs] at hm
    cases hm

/-- Where the second program has more bounds, it misses none that the first one does not miss. -/
theorem Side.missingMeasures_sublist (h : SameShapes p p' r r') (hc : c.Tightens c')
    (hi : (c.items.getD {}).Tightens (c'.items.getD {})) :
    (s.missingMeasures p' r' c' withStructs).Sublist (s.missingMeasures p r c withStructs) := by
  have sublist {o o' : Option Measure} (t : Target) (hoo : ∀ m, o' = some m → o = some m) :
      (o'.toList.map (t, ·)).Sublist (o.toList.map (t, ·)) := by
    cases ho : o' with
    | none => exact List.nil_sublist _
    | some m => rw [hoo m ho]
  refine (sublist .own fun m hm => ?_).append (sublist .elements fun m hm => ?_)
  · rw [h.shape] at hm
    exact lacking?_of_tightens hc hm
  · exact missingElement?_of_tightens h hi hm

variable {pos : Position} {subject : Subject} {errors : List ValueError} {reports : Bool}
  {g : Diagnostic} {name : String}

theorem Bounds.checkSubject_sublist (h : SameShapes p p' r r') (hc : c.Tightens c')
    (hi : (c.items.getD {}).Tightens (c'.items.getD {})) :
    (checkSubject s p' pos subject r' c' errors reports withStructs).Sublist
      (checkSubject s p pos subject r c errors reports withStructs) := by
  simp only [checkSubject, Side.missingBounds_eq]
  refine List.Sublist.append (List.Sublist.refl _) ?_
  split
  · exact ((Side.missingMeasures_sublist h hc hi).map _).map _
  · exact List.Sublist.refl _

/-- A diagnostic that asks for a marker is about a bound that the subject lacks. -/
theorem Bounds.exists_of_asksFor
    (hg : g ∈ checkSubject s p pos subject r c errors reports withStructs)
    (h : g.AsksFor name) : ∃ q ∈ s.missingMeasures p r c withStructs,
      g.message = s.request subject q ∧ name = s.markerName q.1 q.2 ∧
        (errors.filter s.owns).isEmpty = true := by
  simp only [checkSubject, Side.missingBounds_eq] at hg
  rcases List.mem_append.1 hg with hg | hg
  · split at hg
    · exact absurd h (Diagnostic.not_asksFor_of_mem_ofErrors hg)
    · cases hg
  · split at hg
    · rename_i hempty
      obtain ⟨message, hmessage, rfl⟩ := List.mem_map.1 hg
      obtain ⟨q, hq, rfl⟩ := List.mem_map.1 hmessage
      exact ⟨q, hq, rfl, h.name_eq (Diagnostic.asksFor_request rfl), hempty⟩
    · cases hg

theorem Bounds.notMem_checkSubject (hg : g.message = s.request subject q)
    (hq : q ∉ s.missingMeasures p r c withStructs) :
    g ∉ checkSubject s p pos subject r c errors reports withStructs := by
  intro hmem
  obtain ⟨q', hq', -, hname, -⟩ := exists_of_asksFor hmem (Diagnostic.asksFor_request hg)
  obtain ⟨htarget, hmeasure⟩ := Side.markerName_inj hname
  have same : q = q' := Prod.ext htarget hmeasure
  exact hq (same ▸ hq')

end TwoPrograms
end ApiConventions
