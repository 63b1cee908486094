import ApiConventions.Report.Basic

/-!
# ApiConventions.Proofs.Report.Sort

The order of places in a report is total and transitive, and the sort by it is stable. A stable
sort depends on its input only through the order of the elements that are tied with one another:
lists that agree on every set of tied elements are sorted into the same list.
-/

namespace ApiConventions

/-! ## The order of paths -/

namespace PathPart

theorem le_total (a b : PathPart) : a.le b = true ∨ b.le a = true := by
  cases a <;> cases b <;> simp [PathPart.le, PathPart.rank, String.le_total]

theorem le_antisymm {a b : PathPart} (h : a.le b = true) (h' : b.le a = true) : a = b := by
  cases a <;> cases b <;> simp_all [PathPart.le, PathPart.rank]
  exact String.le_antisymm h h'

theorem le_trans {a b c : PathPart} (h : a.le b = true) (h' : b.le c = true) : a.le c = true := by
  cases a <;> cases b <;> cases c <;> simp_all [PathPart.le, PathPart.rank]
  exact String.le_trans h h'

end PathPart

namespace Path

theorem partsLe_total (as bs : List PathPart) : partsLe as bs = true ∨ partsLe bs as = true := by
  induction as generalizing bs with
  | nil => exact .inl rfl
  | cons a as ih =>
    cases bs with
    | nil => exact .inr rfl
    | cons b bs =>
      rw [partsLe, partsLe]
      by_cases hab : a = b
      · rw [if_pos hab, if_pos hab.symm]
        exact ih bs
      · rw [if_neg hab, if_neg (Ne.symm hab)]
        exact a.le_total b

theorem partsLe_antisymm {as bs : List PathPart} (h : partsLe as bs = true)
    (h' : partsLe bs as = true) : as = bs := by
  induction as generalizing bs with
  | nil =>
    cases bs with
    | nil => rfl
    | cons b bs => simp [partsLe] at h'
  | cons a as ih =>
    cases bs with
    | nil => simp [partsLe] at h
    | cons b bs =>
      rw [partsLe] at h h'
      by_cases hab : a = b
      · rw [if_pos hab] at h
        rw [if_pos hab.symm] at h'
        rw [hab, ih h h']
      · rw [if_neg hab] at h
        rw [if_neg (Ne.symm hab)] at h'
        exact absurd (PathPart.le_antisymm h h') hab

theorem partsLe_trans {as bs cs : List PathPart} (h : partsLe as bs = true)
    (h' : partsLe bs cs = true) : partsLe as cs = true := by
  induction as generalizing bs cs with
  | nil => rfl
  | cons a as ih =>
    cases bs with
    | nil => simp [partsLe] at h
    | cons b bs =>
      cases cs with
      | nil => simp [partsLe] at h'
      | cons c cs =>
        rw [partsLe] at h h' ⊢
        by_cases hab : a = b
        · subst hab
          rw [if_pos rfl] at h
          by_cases hac : a = c
          · rw [if_pos hac] at h' ⊢
            exact ih h h'
          · rw [if_neg hac] at h' ⊢
            exact h'
        · rw [if_neg hab] at h
          by_cases hbc : b = c
          · subst hbc
            rw [if_neg hab]
            exact h
          · rw [if_neg hbc] at h'
            by_cases hac : a = c
            · subst hac
              exact absurd (PathPart.le_antisymm h h') hab
            · rw [if_neg hac]
              exact PathPart.le_trans h h'

end Path

/-! ## The order of places -/

namespace Location

theorem le_total (a b : Location) : (a.le b || b.le a) = true := by
  rw [Bool.or_eq_true, Location.le, Location.le]
  by_cases hf : Path.parts a.file = Path.parts b.file
  · rw [if_pos hf, if_pos hf.symm]
    by_cases hl : a.line = b.line
    · rw [if_pos hl, if_pos hl.symm, decide_eq_true_iff, decide_eq_true_iff]
      exact UInt64.le_total _ _
    · rw [if_neg hl, if_neg (Ne.symm hl), decide_eq_true_iff, decide_eq_true_iff]
      exact UInt64.le_total _ _
  · rw [if_neg hf, if_neg (Ne.symm hf)]
    exact Path.partsLe_total _ _

theorem le_trans (a b c : Location) (h : a.le b = true) (h' : b.le c = true) :
    a.le c = true := by
  rw [Location.le] at h h' ⊢
  by_cases hab : Path.parts a.file = Path.parts b.file
  · rw [if_pos hab] at h
    by_cases hbc : Path.parts b.file = Path.parts c.file
    · rw [if_pos hbc] at h'
      rw [if_pos (hab.trans hbc)]
      simp only [← UInt64.toNat_inj, UInt64.le_iff_toNat_le] at h h' ⊢
      split at h <;> split at h' <;> split <;> simp only [decide_eq_true_iff] at h h' ⊢ <;> omega
    · rw [if_neg hbc] at h'
      rw [if_neg (hab ▸ hbc), Path.le, hab]
      exact h'
  · rw [if_neg hab] at h
    by_cases hbc : Path.parts b.file = Path.parts c.file
    · rw [if_neg (hbc ▸ hab), Path.le, ← hbc]
      exact h
    · rw [if_neg hbc] at h'
      by_cases hac : Path.parts a.file = Path.parts c.file
      · rw [Path.le, hac] at h
        exact absurd (hac.trans (Path.partsLe_antisymm h h')) hab
      · rw [if_neg hac]
        exact Path.partsLe_trans h h'

theorem parts_eq_of_le_of_le {a b : Location} (h : a.le b = true) (h' : b.le a = true) :
    Path.parts a.file = Path.parts b.file := by
  rw [Location.le] at h h'
  by_cases hf : Path.parts a.file = Path.parts b.file
  · exact hf
  · rw [if_neg hf] at h
    rw [if_neg (Ne.symm hf)] at h'
    exact Path.partsLe_antisymm h h'

end Location

/-! ## Stable sorting -/

section Stable

variable {α : Type} {le : α → α → Bool} {l l' : List α}

/-- Whether an order does not tell two elements apart. -/
def isTied (le : α → α → Bool) (a b : α) : Bool :=
  le a b && le b a

variable (trans : ∀ a b c, le a b = true → le b c = true → le a c = true)
  (total : ∀ a b, (le a b || le b a) = true)

include total in
theorem isTied_self (a : α) : isTied le a a = true := by
  have h := total a a
  simpa [isTied] using h

include trans in
theorem le_of_isTied {a b c : α} (hb : isTied le a b = true) (hc : isTied le a c = true) :
    le b c = true := by
  rw [isTied, Bool.and_eq_true] at hb hc
  exact trans _ _ _ hb.2 hc.1

include trans total in
/-- Tied elements keep their order. -/
theorem filter_mergeSort (a : α) :
    (l.mergeSort le).filter (isTied le a) = l.filter (isTied le a) := by
  have sorted : (l.filter (isTied le a)).Pairwise (fun b c => le b c = true) := by
    refine List.pairwise_iff_forall_sublist.2 fun {b c} hbc => ?_
    have hb := List.mem_filter.1 (hbc.subset (by simp : b ∈ [b, c]))
    have hc := List.mem_filter.1 (hbc.subset (by simp : c ∈ [b, c]))
    exact le_of_isTied trans hb.2 hc.2
  have sub : (l.filter (isTied le a)).Sublist ((l.mergeSort le).filter (isTied le a)) := by
    have h := (List.sublist_mergeSort trans total sorted List.filter_sublist).filter (isTied le a)
    simp only [List.filter_filter, Bool.and_self] at h
    exact h
  have perm := (List.mergeSort_perm l le).filter (isTied le a)
  exact (sub.eq_of_length perm.length_eq.symm).symm

include total in
/-- Sorted lists with the same tied elements in the same order are equal. -/
theorem eq_of_pairwise_of_filter (hl : l.Pairwise (fun a b => le a b = true))
    (hl' : l'.Pairwise (fun a b => le a b = true))
    (h : ∀ a, l.filter (isTied le a) = l'.filter (isTied le a)) : l = l' := by
  have self := isTied_self total
  induction l generalizing l' with
  | nil =>
    cases l' with
    | nil => rfl
    | cons b t' =>
      have hb := h b
      rw [List.filter_cons_of_pos (self b)] at hb
      cases hb
  | cons a t ih =>
    obtain ⟨ha, ht⟩ := List.pairwise_cons.1 hl
    have mem : a ∈ l' := by
      have h1 : a ∈ (a :: t).filter (isTied le a) := List.mem_filter.2 ⟨List.mem_cons_self, self a⟩
      exact (List.mem_filter.1 (h a ▸ h1)).1
    cases l' with
    | nil => cases mem
    | cons b t' =>
      obtain ⟨hb, ht'⟩ := List.pairwise_cons.1 hl'
      have mem' : b ∈ a :: t := by
        have h1 : b ∈ (b :: t').filter (isTied le b) :=
          List.mem_filter.2 ⟨List.mem_cons_self, self b⟩
        exact (List.mem_filter.1 (h b ▸ h1)).1
      have refl (x : α) : le x x = true := by simpa [isTied] using self x
      have hab : le a b = true := by
        rcases List.mem_cons.1 mem' with rfl | hm
        · exact refl _
        · exact ha b hm
      have hba : le b a = true := by
        rcases List.mem_cons.1 mem with rfl | hm
        · exact refl _
        · exact hb a hm
      have hcons := h a
      rw [List.filter_cons_of_pos (self a),
        List.filter_cons_of_pos (by rw [isTied, hab, hba]; rfl)] at hcons
      obtain ⟨rfl, -⟩ := List.cons.inj hcons
      refine congrArg (a :: ·) (ih ht ht' fun x => ?_)
      have hx := h x
      by_cases hxa : isTied le x a = true
      · rw [List.filter_cons_of_pos hxa, List.filter_cons_of_pos hxa] at hx
        exact (List.cons.inj hx).2
      · rwa [List.filter_cons_of_neg hxa, List.filter_cons_of_neg hxa] at hx

include trans total in
/-- Sorting depends on the order of tied elements only. -/
theorem mergeSort_eq_of_filter (h : ∀ a, l.filter (isTied le a) = l'.filter (isTied le a)) :
    l.mergeSort le = l'.mergeSort le := by
  refine eq_of_pairwise_of_filter total (List.pairwise_mergeSort trans total l)
    (List.pairwise_mergeSort trans total l') fun a => ?_
  rw [filter_mergeSort trans total, filter_mergeSort trans total, h a]

include trans total in
/-- Sorting and deleting commute. -/
theorem mergeSort_filter (p : α → Bool) : (l.filter p).mergeSort le = (l.mergeSort le).filter p := by
  have sorted := List.pairwise_mergeSort trans total (l.filter p)
  have sorted' : ((l.mergeSort le).filter p).Pairwise (fun a b => le a b = true) :=
    (List.pairwise_mergeSort trans total l).sublist List.filter_sublist
  refine eq_of_pairwise_of_filter total sorted sorted' fun a => ?_
  have comm (m : List α) :
      (m.filter p).filter (isTied le a) = (m.filter (isTied le a)).filter p := by
    simp only [List.filter_filter, Bool.and_comm]
  calc ((l.filter p).mergeSort le).filter (isTied le a)
      = (l.filter p).filter (isTied le a) := filter_mergeSort trans total a
    _ = (l.filter (isTied le a)).filter p := comm l
    _ = ((l.mergeSort le).filter (isTied le a)).filter p := by rw [filter_mergeSort trans total]
    _ = ((l.mergeSort le).filter p).filter (isTied le a) := (comm _).symm

/-- A sublist is what is left of the list when the elements without a mark are deleted. -/
theorem exists_marks_of_sublist (h : l.Sublist l') : ∃ marked : List (α × Bool),
    marked.map Prod.fst = l' ∧ (marked.filter Prod.snd).map Prod.fst = l := by
  induction h with
  | slnil => exact ⟨[], rfl, rfl⟩
  | cons a _ ih =>
    obtain ⟨marked, h, h'⟩ := ih
    exact ⟨(a, false) :: marked, by simp [h], by simp [h']⟩
  | cons_cons a _ ih =>
    obtain ⟨marked, h, h'⟩ := ih
    exact ⟨(a, true) :: marked, by simp [h], by simp [h']⟩

include trans total in
theorem sublist_mergeSort_of_sublist (h : l.Sublist l') :
    (l.mergeSort le).Sublist (l'.mergeSort le) := by
  obtain ⟨marked, rfl, rfl⟩ := exists_marks_of_sublist h
  have key (m : List (α × Bool)) : (m.mergeSort fun a b => le a.1 b.1).map Prod.fst =
      (m.map Prod.fst).mergeSort le := List.map_mergeSort fun _ _ _ _ => rfl
  rw [← key, ← key, mergeSort_filter (fun a b c => trans a.1 b.1 c.1) fun a b => total a.1 b.1]
  exact List.filter_sublist.map Prod.fst

end Stable

end ApiConventions
