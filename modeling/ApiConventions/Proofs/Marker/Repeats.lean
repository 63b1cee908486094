import Mathlib.Data.List.Induction
import Mathlib.Data.List.Nodup
import ApiConventions.Marker.Set

/-!
# ApiConventions.Proofs.Marker.Repeats

Repeated markers. The walk over a comment block keeps two sets of keys, and `Tallies` says what
they hold after some markers: the keys that occurred, and the keys that occurred twice. A marker is
therefore reported when its key occurred exactly once before it (`Tallies.step`), whatever stands
behind it, and the markers reported are the second occurrences of the repeated keys.
-/

namespace ApiConventions
namespace MarkerSet

variable {before seen seen' reported reported' : List (String × Option String)}
  {key : String × Option String}

def keys (ms : MarkerSet) : List (String × Option String) :=
  ms.map Marker.key

@[simp] theorem keys_nil : keys [] = [] := rfl

@[simp] theorem keys_cons (m : Marker) (ms : MarkerSet) : keys (m :: ms) = m.key :: ms.keys := rfl

@[simp] theorem keys_append (ms more : MarkerSet) : keys (ms ++ more) = ms.keys ++ more.keys :=
  List.map_append

/-- The second occurrences: the markers whose key occurs exactly once before their place. -/
def seconds (ms : MarkerSet) : List Marker :=
  (ms.zipIdx.filter fun (m, place) => (keys (ms.take place)).count m.key = 1).map (·.1)

theorem count_concat (before : List (String × Option String)) (key other : String × Option String) :
    (before ++ [key]).count other = before.count other + if other = key then 1 else 0 := by
  rw [List.count_append, List.count_singleton]
  by_cases same : other = key
  · simp [same]
  · simp [same, Ne.symm same]

/-! ## The two sets -/

/-- What the sets hold after markers with these keys. -/
structure Tallies (before seen reported : List (String × Option String)) : Prop where
  seen : ∀ key, key ∈ seen ↔ 1 ≤ before.count key
  reported : ∀ key, key ∈ reported ↔ 2 ≤ before.count key

namespace Tallies

theorem start : Tallies [] [] [] where
  seen := by simp
  reported := by simp

/-- One key more: it is seen now, and reported by now if it was seen before. -/
theorem concat (h : Tallies before seen reported)
    (hseen : ∀ other, other ∈ seen' ↔ other ∈ seen ∨ other = key)
    (hreported : ∀ other, other ∈ reported' ↔ other ∈ reported ∨ other = key ∧ key ∈ seen) :
    Tallies (before ++ [key]) seen' reported' where
  seen other := by
    rw [hseen, h.seen, count_concat]
    by_cases same : other = key
    · simp [same]
    · simp [same]
  reported other := by
    rw [hreported, h.reported, h.seen, count_concat]
    by_cases same : other = key
    · subst same
      simp only [true_and, if_true]
      omega
    · simp [same]

/-- A marker is reported when its key occurred exactly once before it. -/
theorem step (h : Tallies before seen reported) (m : Marker) : ∃ seen' reported',
    Tallies (before ++ [m.key]) seen' reported' ∧ ∀ rest, duplicatesFrom seen reported (m :: rest) =
      (if before.count m.key = 1 then [m] else []) ++ duplicatesFrom seen' reported' rest := by
  by_cases new : m.key ∉ seen
  · have never : ¬ 1 ≤ before.count m.key := mt (h.seen m.key).2 new
    have other : before.count m.key ≠ 1 := by omega
    refine ⟨m.key :: seen, reported, h.concat ?_ ?_, fun rest => ?_⟩
    · simp [or_comm]
    · simp [new]
    · rw [duplicatesFrom, if_pos new, if_neg other, List.nil_append]
  · have old := not_not.1 new
    have met : 1 ≤ before.count m.key := (h.seen m.key).1 old
    by_cases fresh : m.key ∉ reported
    · have few : ¬ 2 ≤ before.count m.key := mt (h.reported m.key).2 fresh
      have once : before.count m.key = 1 := by omega
      refine ⟨seen, m.key :: reported, h.concat ?_ ?_, fun rest => ?_⟩
      · simpa using old
      · simp [old, or_comm]
      · rw [duplicatesFrom, if_neg new, if_pos fresh, if_pos once, List.singleton_append]
    · have given := not_not.1 fresh
      have twice : 2 ≤ before.count m.key := (h.reported m.key).1 given
      have other : before.count m.key ≠ 1 := by omega
      refine ⟨seen, reported, h.concat ?_ ?_, fun rest => ?_⟩
      · simpa using old
      · simp [given]
      · rw [duplicatesFrom, if_neg new, if_neg fresh, if_neg other, List.nil_append]

/-- What is reported of some markers does not depend on those that follow. -/
theorem run (h : Tallies before seen reported) (ms : MarkerSet) : ∃ seen' reported',
    Tallies (before ++ keys ms) seen' reported' ∧
      ∀ rest, duplicatesFrom seen reported (ms ++ rest) =
        duplicatesFrom seen reported ms ++ duplicatesFrom seen' reported' rest := by
  induction ms generalizing before seen reported with
  | nil => exact ⟨seen, reported, by simpa using h, fun rest => rfl⟩
  | cons m ms ih =>
    obtain ⟨seen₁, reported₁, h₁, out₁⟩ := h.step m
    obtain ⟨seen₂, reported₂, h₂, out₂⟩ := ih h₁
    refine ⟨seen₂, reported₂, by simpa using h₂, fun rest => ?_⟩
    rw [List.cons_append, out₁, out₁, out₂, List.append_assoc]

end Tallies

/-! ## One marker more -/

theorem duplicates_prefix (ms more : MarkerSet) : ms.duplicates <+: (ms ++ more).duplicates := by
  obtain ⟨seen, reported, -, out⟩ := Tallies.start.run ms
  exact ⟨_, (out more).symm⟩

theorem duplicates_concat (ms : MarkerSet) (m : Marker) : duplicates (ms ++ [m]) =
    ms.duplicates ++ if (keys ms).count m.key = 1 then [m] else [] := by
  obtain ⟨seen, reported, h, out⟩ := Tallies.start.run ms
  obtain ⟨_, _, -, last⟩ := h.step m
  rw [duplicates, out, last, duplicatesFrom, List.append_nil, List.nil_append]
  rfl

theorem seconds_concat (ms : MarkerSet) (m : Marker) :
    seconds (ms ++ [m]) = ms.seconds ++ if (keys ms).count m.key = 1 then [m] else [] := by
  have inside : ∀ e ∈ ms.zipIdx, (ms ++ [m]).take e.2 = ms.take e.2 := by
    intro e mem
    have place := List.snd_lt_add_of_mem_zipIdx mem
    exact List.take_append_of_le_length (by omega)
  have before : ms.zipIdx.filter (fun e => (keys ((ms ++ [m]).take e.2)).count e.1.key = 1) =
      ms.zipIdx.filter fun e => (keys (ms.take e.2)).count e.1.key = 1 :=
    List.filter_congr fun e mem => by rw [inside e mem]
  rw [seconds, List.zipIdx_append, List.filter_append, List.map_append, seconds]
  congr 1
  · exact congrArg (List.map Prod.fst) before
  · by_cases once : (keys ms).count m.key = 1
    · simp [once]
    · simp [once]

theorem duplicates_eq_seconds (ms : MarkerSet) : ms.duplicates = ms.seconds := by
  induction ms using List.reverseRecOn with
  | nil => rfl
  | append_singleton ms m ih => rw [duplicates_concat, seconds_concat, ih]

/-- A repeated key is reported once, and no other key is. -/
theorem count_keys_duplicates (ms : MarkerSet) (key : String × Option String) :
    (keys ms.duplicates).count key = if 2 ≤ ms.keys.count key then 1 else 0 := by
  induction ms using List.reverseRecOn with
  | nil => rfl
  | append_singleton ms m ih =>
    rw [duplicates_concat, keys_append, keys_append, keys_cons, keys_nil, count_concat,
      List.count_append, ih]
    by_cases same : key = m.key
    · subst same
      by_cases once : (keys ms).count m.key = 1
      · simp [once]
      · have twice : 2 ≤ (keys ms).count m.key + 1 ↔ 2 ≤ (keys ms).count m.key := by omega
        simp [once, twice]
    · have other : (keys (if (keys ms).count m.key = 1 then [m] else [])).count key = 0 := by
        split <;> simp [Ne.symm same]
      simp [same, other]

/--
The markers reported are the second occurrences of the keys that occur at least twice, one for each
such key and in the order of the comment, and those of a beginning of it are the first of them.
-/
theorem repeats_reported_once (ms more : MarkerSet) :
    (keys ms.duplicates).Nodup ∧
    (∀ key, key ∈ keys ms.duplicates ↔ 2 ≤ ms.keys.count key) ∧
    ms.duplicates = ms.seconds ∧
    ms.duplicates <+: (ms ++ more).duplicates := by
  refine ⟨?nodup, ?repeated, duplicates_eq_seconds ms, duplicates_prefix ms more⟩
  case nodup =>
    rw [List.nodup_iff_count_le_one]
    intro key
    rw [count_keys_duplicates]
    split <;> omega
  case repeated =>
    intro key
    rw [← List.count_pos_iff, count_keys_duplicates]
    split <;> simp [*]

/-- No value is not the empty value, and the second of two spellings is the one reported. -/
example : duplicates
    [⟨"size", some "1", [], "size=1"⟩, ⟨"size", none, [], "size"⟩, ⟨"size", some "", [], "size="⟩,
      ⟨"size", some "1", [], "size:=1"⟩, ⟨"size", some "1", [], "size=1"⟩] =
    [⟨"size", some "1", [], "size:=1"⟩] := by
  decide +kernel

end MarkerSet
end ApiConventions
