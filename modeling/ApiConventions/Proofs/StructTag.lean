import ApiConventions.Proofs.Text.Literal
import ApiConventions.StructTag

/-!
# ApiConventions.Proofs.StructTag

Struct tags as they are written. A pair is its key, a colon and its value between double quotes,
where every quote and every backslash of the value has a backslash in front of it, and a tag is a
list of pairs with blanks between them. `lookup` reads back what was written: for each key the
value of the first pair that has it.
-/

namespace ApiConventions
namespace StructTag

/-- A key and its value. The key can be told from the blanks, the colon and the quote around it. -/
structure Pair where
  key : String
  value : String
  key_ne : key ≠ ""
  key_chars : ∀ c ∈ key.toList, ' ' < c ∧ c ≠ ':' ∧ c ≠ '"'

/-- The characters with a backslash in front of them in a value. -/
def isSpecial (c : Char) : Bool :=
  c == '\\' || c == '"'

/-- A pair as it is written in a tag. -/
def Pair.written (p : Pair) : List Char :=
  p.key.toList ++ ':' :: Text.enclose '"' (Text.escape isSpecial p.value.toList)

/-- A tag that is the pairs in order, with one or more blanks between them. -/
inductive Writes : List Pair → List Char → Prop where
  | nil : Writes [] []
  | one (p : Pair) : Writes [p] p.written
  | cons {q : Pair} {pairs : List Pair} {tag : List Char} (p : Pair) (blanks : Nat)
      (rest : Writes (q :: pairs) tag) :
      Writes (p :: q :: pairs) (p.written ++ List.replicate (blanks + 1) ' ' ++ tag)

variable {pairs : List Pair} {tag key s : List Char}

theorem readQuoted?_cons {c : Char} (quote : c ≠ '"') (backslash : c ≠ '\\') :
    readQuoted? (c :: s) = (readQuoted? s).map fun (value, rest) => (c :: value, rest) := by
  rw [readQuoted?.eq_5]
  · intro h
    exact absurd h quote
  · intro _ _ h
    exact absurd h backslash
  · intro h
    exact absurd h backslash

/-- The quote that ends a value is the one that was written there. -/
theorem readQuoted?_escape (value rest : List Char) :
    readQuoted? (Text.escape isSpecial value ++ '"' :: rest) = some (value, rest) := by
  induction value with
  | nil => rfl
  | cons c value ih =>
    cases special : isSpecial c with
    | true =>
      rw [Text.escape_cons_of_special special, List.cons_append, List.cons_append, readQuoted?, ih]
      rfl
    | false =>
      obtain ⟨backslash, quote⟩ : c ≠ '\\' ∧ c ≠ '"' := by simpa [isSpecial] using special
      rw [Text.escape_cons_of_plain special, List.cons_append, readQuoted?_cons quote backslash, ih]
      rfl

namespace Pair

variable (p : Pair)

theorem key_toList_ne : p.key.toList ≠ [] := by
  intro empty
  exact p.key_ne (String.toList_eq_nil_iff.1 empty)

theorem dropWhile_written (rest : List Char) :
    (p.written ++ rest).dropWhile (· == ' ') = p.written ++ rest := by
  obtain ⟨c, key, hkey⟩ := List.exists_cons_of_ne_nil p.key_toList_ne
  have blank : c ≠ ' ' := by
    rintro rfl
    have after := (p.key_chars ' ' (by simp [hkey])).1
    exact absurd after (by decide)
  rw [written, hkey]
  exact List.dropWhile_cons_of_neg (by simpa using blank)

theorem readPair?_written (rest : List Char) :
    readPair? (p.written ++ rest) = some ((p.key.toList, p.value.toList), rest) := by
  have colon : ':' ∉ p.key.toList := fun mem => (p.key_chars _ mem).2.1 rfl
  have chars : p.key.toList.all isKeyChar = true := by
    rw [List.all_eq_true]
    intro c hc
    obtain ⟨above, -, quote⟩ := p.key_chars c hc
    simp [isKeyChar, above, quote]
  have nonempty : p.key.toList.isEmpty = false := by simp [p.key_toList_ne]
  have cut : Text.cutAt? ':' (p.written ++ rest) =
      some (p.key.toList, '"' :: (Text.escape isSpecial p.value.toList ++ '"' :: rest)) := by
    rw [written, List.append_assoc, List.cons_append, Text.cutAt?_append colon]
    simp [Text.enclose]
  rw [readPair?, p.dropWhile_written, cut]
  simp [nonempty, chars, readQuoted?_escape]

end Pair

theorem readPair?_blanks (n : Nat) : readPair? (List.replicate n ' ' ++ s) = readPair? s := by
  have dropped : (List.replicate n ' ' ++ s).dropWhile (· == ' ') = s.dropWhile (· == ' ') :=
    List.dropWhile_append_of_pos (by simp)
  rw [readPair?, dropped, readPair?]

/-- Blanks in front of a tag do not count. -/
theorem lookupWithin_blanks (fuel n : Nat) :
    lookupWithin key fuel (List.replicate n ' ' ++ s) = lookupWithin key fuel s := by
  cases fuel with
  | zero => rfl
  | succ fuel => rw [lookupWithin, readPair?_blanks, lookupWithin]

theorem lookupWithin_nil (fuel : Nat) : lookupWithin key fuel [] = none := by
  cases fuel <;> rfl

/-- The first pair either has the key, or is passed over. -/
theorem lookupWithin_written (p : Pair) (fuel : Nat) (rest : List Char) :
    lookupWithin key (fuel + 1) (p.written ++ rest) =
      if p.key.toList = key then some p.value.toList else lookupWithin key fuel rest := by
  rw [lookupWithin, p.readPair?_written]

theorem Writes.length_le (h : Writes pairs tag) : pairs.length ≤ tag.length := by
  have written (p : Pair) : 0 < p.written.length := by
    rw [Pair.written, List.length_append, List.length_cons]
    omega
  induction h with
  | nil => exact Nat.le_refl _
  | one p => exact written p
  | cons p blanks rest ih =>
    simp only [List.length_cons, List.length_append, List.length_replicate] at ih ⊢
    have := written p
    omega

/-- The induction is on the pairs; the fuel need only count them. -/
theorem Writes.lookupWithin_eq (h : Writes pairs tag) {fuel : Nat} (enough : pairs.length ≤ fuel) :
    lookupWithin key fuel tag = (pairs.find? (·.key.toList = key)).map (·.value.toList) := by
  induction h generalizing fuel with
  | nil => exact lookupWithin_nil fuel
  | one p =>
    obtain ⟨fuel, rfl⟩ := Nat.exists_eq_succ_of_ne_zero (Nat.ne_of_gt enough)
    rw [← List.append_nil p.written, lookupWithin_written, lookupWithin_nil]
    by_cases same : p.key.toList = key <;> simp [same]
  | cons p blanks rest ih =>
    obtain ⟨fuel, rfl⟩ := Nat.exists_eq_succ_of_ne_zero (Nat.ne_of_gt (Nat.zero_lt_of_lt enough))
    have next := ih (Nat.le_of_succ_le_succ enough)
    rw [List.append_assoc, lookupWithin_written, lookupWithin_blanks, next]
    by_cases same : p.key.toList = key <;> simp [same]

/-- A key finds the value of the first pair that has it, and nothing where no pair has it. -/
theorem lookup_of_writes {tag : String} (h : Writes pairs tag.toList) (key : String) :
    lookup tag key = (pairs.find? (·.key = key)).map (·.value) := by
  have enough : pairs.length ≤ tag.length := by
    rw [← String.length_toList]
    exact h.length_le
  have keys (p : Pair) : p.key.toList = key.toList ↔ p.key = key := String.toList_inj
  rw [lookup, h.lookupWithin_eq enough, Option.map_map]
  simp only [keys]
  congr 1
  funext p
  exact String.ofList_toList

namespace Quoting

/-- Its value holds quotes, a colon, what could be another pair, and a backslash at its end. -/
def doc : Pair where
  key := "doc"
  value := "say \"hi\" json:\"no\" \\"
  key_ne := by decide
  key_chars := by simp

def json (value : String) : Pair where
  key := "json"
  value := value
  key_ne := by decide
  key_chars := by simp

def labels : List Pair := [doc, json "size,omitempty", json "other"]

def labelled : String :=
  "doc:\"say \\\"hi\\\" json:\\\"no\\\" \\\\\"   json:\"size,omitempty\" json:\"other\""

theorem writes_labelled : Writes labels labelled.toList := by
  have last : Writes [json "other"] (json "other").written := .one _
  have rest := Writes.cons (json "size,omitempty") 0 last
  have whole := Writes.cons doc 2 rest
  have text : labelled.toList = doc.written ++ List.replicate 3 ' ' ++
      ((json "size,omitempty").written ++ List.replicate 1 ' ' ++ (json "other").written) := by
    decide +kernel
  rw [text]
  exact whole

theorem lookup_of_writes_labelled :
    Writes labels labelled.toList ∧ lookup labelled "doc" = some "say \"hi\" json:\"no\" \\" ∧
      lookup labelled "json" = some "size,omitempty" ∧ lookup labelled "yaml" = none := by
  have found (key : String) := lookup_of_writes writes_labelled key
  exact ⟨writes_labelled, found "doc", found "json", found "yaml"⟩

end Quoting
end StructTag
end ApiConventions
