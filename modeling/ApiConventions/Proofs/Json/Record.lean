import Mathlib.Data.List.Nodup
import ApiConventions.Json.Record
import ApiConventions.Model.Encode

/-!
# ApiConventions.Proofs.Json.Record

Objects whose members may be left out. `present` keeps the members that have a value; a record
that is read from them finds under each key the value that was written there, and finds nothing
exactly under the keys that were left out. So a member survives when the value for which it is
left out is the value that stands in for an absent one.
-/

namespace ApiConventions
namespace Json

/-- Keys with their values, of which some may be left out. -/
abbrev Entries := List (String × Option Json)

/-- The members that are not left out. -/
def present (es : Entries) : List (String × Json) :=
  es.filterMap fun e => e.2.map (e.1, ·)

/-- The value of a list that is left out when it is empty. -/
def nonempty (items : List Json) : Option Json :=
  if items.isEmpty then none else some (.array items)

theorem nonempty_of_mem {items : List Json} {j : Json} (h : j ∈ items) :
    nonempty items = some (.array items) := by
  cases items with
  | nil => cases h
  | cons x items => rfl

theorem present_append (es es' : Entries) : present (es ++ es') = present es ++ present es' :=
  List.filterMap_append

theorem optionalMember_eq (key : String) (value : Option String) :
    optionalMember key value = present [(key, value.map .string)] := by
  cases value with
  | none => rfl
  | some s => rfl

theorem listMember_eq (key : String) (items : List Json) :
    listMember key items = present [(key, nonempty items)] := by
  rw [listMember, nonempty]
  split
  · rfl
  · rfl

theorem mem_present {es : Entries} {m : String × Json} :
    m ∈ present es ↔ (m.1, some m.2) ∈ es := by
  rw [present, List.mem_filterMap]
  constructor
  · rintro ⟨⟨key, value⟩, hm, he⟩
    obtain ⟨j, rfl, rfl⟩ := Option.map_eq_some_iff.1 he
    exact hm
  · intro hm
    exact ⟨_, hm, rfl⟩

theorem key_of_mem_present {es : Entries} {m : String × Json} (h : m ∈ present es) :
    m.1 ∈ es.map (·.1) :=
  List.mem_map.2 ⟨_, mem_present.1 h, rfl⟩

theorem nodup_present {es : Entries} (h : (es.map (·.1)).Nodup) :
    ((present es).map (·.1)).Nodup := by
  have sub : ((present es).map (·.1)).Sublist (es.map (·.1)) := by
    induction es with
    | nil => exact .slnil
    | cons e es ih =>
      obtain ⟨key, value⟩ := e
      have rest := ih (List.nodup_cons.1 h).2
      cases value with
      | none => exact rest.cons key
      | some j => exact rest.cons_cons key
  exact h.sublist sub

/-- What is found under a key is what was written there. -/
theorem lookup_present {es : Entries} (h : (es.map (·.1)).Nodup) (key : String) :
    (present es).lookup key = (es.lookup key).join := by
  induction es with
  | nil => rfl
  | cons e es ih =>
    obtain ⟨k, value⟩ := e
    obtain ⟨fresh, rest⟩ := List.nodup_cons.1 h
    rw [List.lookup_cons]
    by_cases hk : key = k
    · subst hk
      rw [beq_self_eq_true]
      cases value with
      | some j => exact List.lookup_cons_self
      | none =>
        -- Left out here, the key stands nowhere else.
        show (present es).lookup key = none
        rw [List.lookup_eq_none_iff]
        intro m hm
        refine bne_iff_ne.2 ?_
        rintro rfl
        exact fresh (key_of_mem_present hm)
    · rw [beq_false_of_ne hk]
      cases value with
      | none => exact ih rest
      | some j =>
        show ((k, j) :: present es).lookup key = _
        rw [List.lookup_cons, beq_false_of_ne hk]
        exact ih rest

theorem eraseDups_of_nodup {l : List String} (h : l.Nodup) : l.eraseDups = l := by
  induction l with
  | nil => rfl
  | cons a l ih =>
    obtain ⟨fresh, rest⟩ := List.nodup_cons.1 h
    have others : l.filter (fun b => !b == a) = l := by
      refine List.filter_eq_self.2 ?_
      intro b hb
      have hne : b ≠ a := fun hba => fresh (hba ▸ hb)
      simp [hne]
    rw [List.eraseDups_cons, others, ih rest]

/-! ## Records -/

/-- The record of the members that are not left out. -/
def recordOf (es : Entries) : Record := ⟨present es, false⟩

theorem record?_present {es : Entries} (h : (es.map (·.1)).Nodup) :
    (object (present es)).record? (es.map (·.1)) = some (recordOf es) := by
  have known : (present es).filter (fun m => (es.map (·.1)).contains m.1) = present es := by
    refine List.filter_eq_self.2 ?_
    intro m hm
    exact List.contains_iff_mem.2 (key_of_mem_present hm)
  rw [record?]
  simp only [known, eraseDups_of_nodup (nodup_present h), List.length_map, if_true]
  rfl

theorem tagged?_present {es : Entries} {tag : String} (h : tag ∉ es.map (·.1)) (value : Json) :
    (object ((tag, value) :: present es)).tagged? tag = some (value, object (present es)) := by
  have other : ∀ m ∈ present es, m.1 ≠ tag := by
    rintro m hm rfl
    exact h (key_of_mem_present hm)
  have none : (present es).filter (·.1 == tag) = [] := by
    refine List.filter_eq_nil_iff.2 ?_
    intro m hm
    simp [other m hm]
  have all : (present es).filter (·.1 != tag) = present es := by
    refine List.filter_eq_self.2 ?_
    intro m hm
    simp [other m hm]
  simp [tagged?, none, all]

namespace Record

variable {α : Type} {es : Entries} {key : String} {decode : Json → Option α}

theorem get?_recordOf (h : (es.map (·.1)).Nodup) :
    (recordOf es).get? key = (es.lookup key).join :=
  lookup_present h key

theorem required?_recordOf (h : (es.map (·.1)).Nodup) {j : Json} {a : α}
    (written : es.lookup key = some (some j)) (read : decode j = some a) :
    (recordOf es).required? key decode = some a := by
  rw [required?, get?_recordOf h, written]
  exact read

theorem withDefault?_recordOf (h : (es.map (·.1)).Nodup) {default a : α} {j : Json}
    (written : es.lookup key = some (some j)) (read : decode j = some a) :
    (recordOf es).withDefault? key default decode = some a := by
  rw [withDefault?, get?_recordOf h, written]
  exact read

/-- A text that is left out when it is absent is absent when it is left out. -/
theorem withDefault?_text (h : (es.map (·.1)).Nodup) {value : Option String}
    (written : es.lookup key = some (value.map .string)) :
    (recordOf es).withDefault? key none (nullable? string?) = some value := by
  rw [withDefault?, get?_recordOf h, written]
  cases value with
  | none => rfl
  | some s => rfl

theorem list?_map {β : Type} {encode : β → Json} {decode : Json → Option β} {items : List β}
    (each : ∀ x ∈ items, decode (encode x) = some x) :
    list? decode (.array (items.map encode)) = some items := by
  show (items.map encode).mapM decode = some items
  induction items with
  | nil => rfl
  | cons x items ih =>
    obtain ⟨first, rest⟩ := List.forall_mem_cons.1 each
    rw [List.map_cons, List.mapM_cons, first, ih rest]
    rfl

/-- A list that is left out when it is empty is empty when it is left out. -/
theorem withDefault?_list {β : Type} {encode : β → Json} {decode : Json → Option β}
    {items : List β} (h : (es.map (·.1)).Nodup)
    (written : es.lookup key = some (nonempty (items.map encode)))
    (each : ∀ x ∈ items, decode (encode x) = some x) :
    (recordOf es).withDefault? key [] (list? decode) = some items := by
  rw [withDefault?, get?_recordOf h, written]
  cases items with
  | nil => rfl
  | cons x items => exact list?_map each

end Record

theorem uint64?_ofNat (n : UInt64) : uint64? (ofNat n.toNat) = some n := by
  have bound : n.toNat ≤ Number.maxUInt64 := Nat.le_of_lt_succ n.toNat_lt
  simp [uint64?, ofNat, bound]

/-! ## Parts of an object -/

theorem membersReadable_iff {ms : List (String × Json)} :
    membersReadable ms = true ↔ ∀ m ∈ ms, m.2.isReadable = true := by
  induction ms with
  | nil => simp [membersReadable]
  | cons m ms ih =>
    obtain ⟨key, j⟩ := m
    simp [membersReadable, ih]

theorem allReadable_iff {items : List Json} :
    allReadable items = true ↔ ∀ j ∈ items, j.isReadable = true := by
  induction items with
  | nil => simp [allReadable]
  | cons j items ih => simp [allReadable, ih]

theorem membersHeight_le_iff {ms : List (String × Json)} {n : Nat} :
    membersHeight ms ≤ n ↔ ∀ m ∈ ms, m.2.height ≤ n := by
  induction ms with
  | nil => simp [membersHeight]
  | cons m ms ih =>
    obtain ⟨key, j⟩ := m
    rw [membersHeight, Nat.max_le, ih, List.forall_mem_cons]

theorem listHeight_le_iff {items : List Json} {n : Nat} :
    listHeight items ≤ n ↔ ∀ j ∈ items, j.height ≤ n := by
  induction items with
  | nil => simp [listHeight]
  | cons j items ih => rw [listHeight, Nat.max_le, ih, List.forall_mem_cons]

/-! ## Readable entries -/

/-- No entry has an unreadable part. -/
def Readable (es : Entries) : Prop :=
  ∀ e ∈ es, ∀ j ∈ e.2, j.isReadable = true

namespace Readable

theorem nil : Readable [] := fun _ h => nomatch h

variable {es : Entries} {key : String}

theorem cons {j : Json} (h : j.isReadable = true) (hs : Readable es) :
    Readable ((key, some j) :: es) := by
  refine List.forall_mem_cons.2 ⟨?_, hs⟩
  rintro _ ⟨⟩
  exact h

theorem text (value : Option String) (hs : Readable es) :
    Readable ((key, value.map .string) :: es) := by
  cases value with
  | none => exact List.forall_mem_cons.2 ⟨(fun _ h => nomatch h), hs⟩
  | some s => exact .cons rfl hs

theorem list {items : List Json} (h : ∀ j ∈ items, j.isReadable = true) (hs : Readable es) :
    Readable ((key, nonempty items) :: es) := by
  cases items with
  | nil => exact List.forall_mem_cons.2 ⟨(fun _ h => nomatch h), hs⟩
  | cons x items => exact .cons (allReadable_iff.2 h) hs

theorem present (hs : Readable es) : membersReadable (present es) = true := by
  refine membersReadable_iff.2 ?_
  intro m hm
  exact hs _ (mem_present.1 hm) m.2 rfl

end Readable
end Json
end ApiConventions
