import ApiConventions.Proofs.Constraint.Parts
import ApiConventions.Proofs.Correspondence.Rules
import ApiConventions.Proofs.Rule.MissingBounds

/-!
# ApiConventions.Proofs.Rule.Requests

What is known where a marker is asked for. If a subject lacks a bound and no error is in the way,
nothing decides on the marker for it, neither on the subject nor on the types it resolves through;
and where the marker decides, it is not asked for.
-/

namespace ApiConventions

/-! ## What an extraction reads -/

namespace Extractor

variable {x : Extractor} {levels : Nat} {own : List MarkerSet} {r : Resolved} {s : Side}
  {t : Side.Target} {m : Side.Measure} {e : ValueError}

theorem bound?_extractWithin : s.bound? (x.extractWithin levels own r).constraints m =
    (Layers.read (own ++ x.typeLayers r) (s.identifier .own m) Marker.asInt).value := by
  have part (c : Constraints) : s.bound? c m = s.bound? c.ownPart m := by
    cases s <;> cases m <;> rfl
  rw [part, extractWithin_ownPart, Side.bound?_own]

theorem items_extractWithin {elem : TypeRef} (h : listElem? r = some elem) :
    (x.extractWithin (levels + 1) own r).constraints.items = some (Layers.overElements
      (own ++ x.typeLayers r) (x.extractWithin levels [] (x.program.resolve elem))).constraints := by
  rw [extractWithin_succ, elements?, h]
  rfl

/-- Errors in reading a bound of the subject or of its elements are errors of the extraction. -/
theorem read_errors_subset (h : t = .elements → m ≠ .items ∧ (listElem? r).isSome = true)
    (he : e ∈ (Layers.read (own ++ x.typeLayers r) (s.identifier t m) Marker.asInt).errors) :
    e ∈ (x.extractWithin (levels + 1) own r).errors := by
  rw [extractWithin_succ]
  generalize own ++ x.typeLayers r = layers at he ⊢
  cases t with
  | own =>
    have mem : e ∈ (Layers.own layers r.kind).errors := by
      simp only [Layers.own, List.mem_append]
      cases s <;> cases m
      case minimum.length => exact .inl (.inl (.inl (.inl (.inl (.inl (.inr he))))))
      case maximum.length => exact .inl (.inl (.inl (.inl (.inl (.inr he)))))
      case minimum.items => exact .inl (.inl (.inl (.inl (.inr he))))
      case maximum.items => exact .inl (.inl (.inl (.inr he)))
      case minimum.properties => exact .inl (.inl (.inr he))
      case maximum.properties => exact .inl (.inr he)
    exact List.mem_append_left _ mem
  | elements =>
    obtain ⟨hitems, helem⟩ := h rfl
    obtain ⟨elem, helem⟩ := Option.isSome_iff_exists.1 helem
    rw [elements?, helem]
    refine List.mem_append_right _ ?_
    simp only [Option.map_some, Option.getD_some, Layers.overElements, List.mem_append]
    cases s <;> cases m
    case minimum.length => exact .inl (.inl (.inl (.inl (.inl he))))
    case maximum.length => exact .inl (.inl (.inl (.inl (.inr he))))
    case minimum.properties => exact .inl (.inl (.inl (.inr he)))
    case maximum.properties => exact .inl (.inl (.inr he))
    all_goals exact absurd rfl hitems

end Extractor

namespace Layers

variable {layers : List MarkerSet} {identifier : String}

theorem identifier_of_winner {x : Marker} (h : winner? layers identifier = some x) :
    x.identifier = identifier := by
  obtain ⟨layer, -, hx⟩ := List.exists_of_findSome?_eq_some h
  rw [MarkerSet.first?] at hx
  have found := List.find?_some hx
  exact eq_of_beq found

/-- Where a reading has no value and no error, nothing decides. -/
theorem winner?_eq_none {expected : ValueKind} {α : Type} {coerce : Marker → Except ValueError α}
    (hcoerce : ∀ x e, coerce x = .error e → e = x.error expected)
    (value : (read layers identifier coerce).value = none)
    (errors : ∀ e ∈ (read layers identifier coerce).errors, e.identifier ≠ identifier) :
    winner? layers identifier = none := by
  cases hx : winner? layers identifier with
  | none => rfl
  | some x =>
    rw [read, hx] at value errors
    cases ho : coerce x with
    | ok a =>
      simp only [ho] at value
      cases value
    | error e =>
      simp only [ho] at errors
      refine absurd ?_ (errors e (List.mem_singleton_self e))
      rw [hcoerce x e ho]
      exact identifier_of_winner hx

end Layers

theorem Marker.asInt_error {x : Marker} {e : ValueError} (h : x.asInt = .error e) :
    e = x.error .integer := by
  rw [asInt, coerce] at h
  split at h
  · cases h
  · cases h
    rfl

namespace Side

variable {s : Side} {t : Target} {m : Measure}

/-- A side owns the errors in the bounds that it asks for. -/
theorem owns_of_identifier {e : ValueError} (h : e.identifier = s.identifier t m) :
    s.owns e = true := by
  have upper : isUpperBound (s.identifier t m) = (s == .maximum) := by
    cases s <;> cases t <;> cases m <;> decide +kernel
  cases s <;> simp [owns, h, upper]

theorem ne_items_of_lackingElement? {c : Constraints} {shape : Shape}
    (h : s.lackingElement? c shape = some m) : m ≠ .items := by
  rintro rfl
  cases shape with
  | string =>
    rw [lackingElement?, lacking?_eq_some_iff] at h
    cases h.1
  | map =>
    rw [lackingElement?, lacking?_eq_some_iff] at h
    cases h.1
  | struct =>
    rw [lackingElement?, lacking?_eq_some_iff] at h
    cases h.1
  | _ => cases h

theorem exists_of_missingElement? {p : Program} {r : Resolved} {c : Constraints}
    (h : s.missingElement? p r c = some m) : ∃ elem, Extractor.listElem? r = some elem ∧
      s.lackingElement? (c.items.getD {}) (Shape.ofResolved (p.resolve elem)) = some m := by
  rw [missingElement?] at h
  split at h
  · rename_i elem hshape helem
    exact ⟨elem, (Extractor.listElem_of_shape hshape).trans helem, h⟩
  · cases h

end Side

namespace Extractor

variable {x : Extractor} {markers : MarkerSet} {r : Resolved} {s : Side} {withStructs : Bool}
  {q : Side.Target × Side.Measure}

theorem bound?_ofSubject (m : Side.Measure) :
    s.bound? (x.ofSubject markers r).constraints m =
      (Layers.read (markers :: x.typeLayers r) (s.identifier .own m) Marker.asInt).value := by
  have same : s.bound? (x.ofSubject markers r).constraints m =
      s.bound? (x.extractWithin maxShapeDepth [markers] r).constraints m := by
    cases s <;> cases m <;> rfl
  rw [same, bound?_extractWithin]
  rfl

theorem itemsBound?_ofSubject {elem : TypeRef} (h : listElem? r = some elem) {m : Side.Measure}
    (hm : m ≠ .items) : s.bound? ((x.ofSubject markers r).constraints.items.getD {}) m =
      (Layers.read (markers :: x.typeLayers r) (s.identifier .elements m) Marker.asInt).value.or
        (s.bound? (x.extractWithin 7 [] (x.program.resolve elem)).constraints m) := by
  have items : (x.ofSubject markers r).constraints.items = some (Layers.overElements
      (markers :: x.typeLayers r) (x.extractWithin 7 [] (x.program.resolve elem))).constraints :=
    items_extractWithin h
  rw [items, Option.getD_some, Side.bound?_overElements s hm]

/-- Nothing decides on the bounds that a subject lacks, if no error is in the way. -/
theorem winner?_of_missing
    (hq : q ∈ s.missingMeasures x.program r (x.ofSubject markers r).constraints withStructs)
    (readable : ((x.ofSubject markers r).errors.filter s.owns).isEmpty = true) :
    Layers.winner? (markers :: x.typeLayers r) (s.identifier q.1 q.2) = none := by
  obtain ⟨t, m⟩ := q
  rw [List.isEmpty_iff, List.filter_eq_nil_iff] at readable
  have errors (h : t = .elements → m ≠ .items ∧ (listElem? r).isSome = true) :
      ∀ e ∈ (Layers.read (markers :: x.typeLayers r) (s.identifier t m) Marker.asInt).errors,
        e.identifier ≠ s.identifier t m := by
    intro e he hid
    have mem : e ∈ (x.ofSubject markers r).errors := read_errors_subset h he
    exact readable e mem (Side.owns_of_identifier hid)
  have error (y : Marker) (e : ValueError) (hy : y.asInt = .error e) : e = y.error .integer :=
    Marker.asInt_error hy
  cases t with
  | own =>
    have unset := Side.bound?_of_lacking? (Side.mem_missingMeasures_own.1 hq)
    rw [bound?_ofSubject] at unset
    exact Layers.winner?_eq_none error unset (errors fun ht => by cases ht)
  | elements =>
    obtain ⟨elem, helem, hm⟩ :=
      Side.exists_of_missingElement? (Side.mem_missingMeasures_elements.1 hq)
    have hitems := Side.ne_items_of_lackingElement? hm
    have unset := Side.bound?_of_lackingElement? hm
    rw [itemsBound?_ofSubject helem hitems, Option.or_eq_none_iff] at unset
    exact Layers.winner?_eq_none error unset.1 (errors fun _ => ⟨hitems, by rw [helem]; rfl⟩)

theorem notMem_missing_of_winner
    (h : Layers.winner? (markers :: x.typeLayers r) (s.identifier q.1 q.2) =
      some (s.marker q.1 q.2)) :
    q ∉ s.missingMeasures x.program r (x.ofSubject markers r).constraints withStructs := by
  obtain ⟨t, m⟩ := q
  have reads := Layers.read_of_winner h (s.boundsSize_marker t m).asInt
  intro hq
  cases t with
  | own =>
    have unset := Side.bound?_of_lacking? (Side.mem_missingMeasures_own.1 hq)
    rw [bound?_ofSubject, reads] at unset
    cases unset
  | elements =>
    obtain ⟨elem, helem, hm⟩ :=
      Side.exists_of_missingElement? (Side.mem_missingMeasures_elements.1 hq)
    have unset := Side.bound?_of_lackingElement? hm
    rw [itemsBound?_ofSubject helem (Side.ne_items_of_lackingElement? hm), reads] at unset
    cases unset

end Extractor

/-! ## Subjects -/

namespace FileContext

variable {ctx : FileContext} {s : Side} {f : Field} {d scope : TypeDecl} {g : Diagnostic}
  {name : String} {q : Side.Target × Side.Measure} {markers : MarkerSet} {layers : List MarkerSet}

theorem declType_undecided (hg : g ∈ Bounds.checkDecl s ctx d) (h : g.AsksFor name) :
    ∃ q, name = s.markerName q.1 q.2 ∧ g.message = s.request (.type d.name) q ∧
      (d.isAlias || !d.params.isEmpty) = false ∧
      Layers.winner? (ctx.registry.parse d.doc ::
        ctx.extractor.typeLayers (ctx.program.resolve (ctx.declType d)))
        (s.identifier q.1 q.2) = none := by
  rw [Bounds.checkDecl] at hg
  split at hg
  · cases hg
  · rename_i exempt
    obtain ⟨q, hq, message, hname, readable⟩ := Bounds.exists_of_asksFor hg h
    refine ⟨q, hname, message, Bool.eq_false_iff.2 exempt, ?_⟩
    exact Extractor.winner?_of_missing hq readable

/-- A declaration to which the marker is added does not ask for it again. -/
theorem notMem_checkDecl (hg : g.message = s.request (.type d.name) q)
    (parsed : ctx.registry.parse d.doc = markers ++ [s.marker q.1 q.2])
    (undecided : Layers.winner? (markers :: layers) (s.identifier q.1 q.2) = none) :
    g ∉ Bounds.checkDecl s ctx d := by
  rw [Bounds.checkDecl]
  split
  · exact List.not_mem_nil
  · refine Bounds.notMem_checkSubject hg (Extractor.notMem_missing_of_winner ?_)
    rw [show ctx.extractor.registry.parse d.doc = markers ++ [s.marker q.1 q.2] from parsed]
    exact Layers.winner?_append undecided _

theorem typeRef_undecided (hg : g ∈ Bounds.checkField s ctx f scope) (h : g.AsksFor name) :
    ∃ q, name = s.markerName q.1 q.2 ∧ g.message = s.request (.field f.displayName) q ∧
      Layers.winner? (ctx.registry.parse f.doc ::
        ctx.extractor.typeLayers (ctx.resolve f.type scope)) (s.identifier q.1 q.2) = none := by
  rw [Bounds.checkField] at hg
  split at hg
  · cases hg
  · obtain ⟨q, hq, message, hname, readable⟩ := Bounds.exists_of_asksFor hg h
    exact ⟨q, hname, message, Extractor.winner?_of_missing hq readable⟩

theorem notMem_checkField (hg : g.message = s.request (.field f.displayName) q)
    (parsed : ctx.registry.parse f.doc = markers ++ [s.marker q.1 q.2])
    (undecided : Layers.winner? (markers :: layers) (s.identifier q.1 q.2) = none) :
    g ∉ Bounds.checkField s ctx f scope := by
  rw [Bounds.checkField]
  split
  · exact List.not_mem_nil
  · refine Bounds.notMem_checkSubject hg (Extractor.notMem_missing_of_winner ?_)
    rw [show ctx.extractor.registry.parse f.doc = markers ++ [s.marker q.1 q.2] from parsed]
    exact Layers.winner?_append undecided _

end FileContext
end ApiConventions
