import ApiConventions.Marker.Registry
import ApiConventions.Proofs.Marker.Quoted

/-!
# ApiConventions.Proofs.Marker.Values

Values that are read as strings. A list is read member by member when each member is written as
one part. Between back quotes a text is kept up to its escapes: a backslash is lost where it
stands in front of a double quote, although splitting takes no notice of it there.
-/

namespace ApiConventions

namespace Marker

open Quoted

variable {m : Marker}

theorem asString_of_value {value : String} (h : m.value = some value) :
    m.asString = .ok (valueOf value.toList) := by
  rw [asString, coerce, h]
  rfl

/-- A list is read member by member when each is written as one part. -/
theorem asList_of_written (write : String → String) {texts : List String} (nonempty : texts ≠ [])
    (single : ∀ text ∈ texts, IsPart ';' (write text).toList)
    (h : m.value = some (";".intercalate (texts.map write))) :
    m.asList = .ok (texts.map fun text => valueOf (write text).toList) := by
  have split : split ';' (";".intercalate (texts.map write)).toList =
      some (texts.map fun text => (write text).toList) := by
    rw [String.toList_intercalate, List.map_map]
    refine split_intercalate rfl (by simpa using nonempty) fun part hpart => ?_
    obtain ⟨text, mem, rfl⟩ := List.mem_map.1 hpart
    exact single text mem
  rw [asList, coerce, h]
  simp only [Option.bind_some, split, Option.map_some, List.map_map]
  rfl

end Marker

namespace Quoted

/--
Back quotes keep a text up to its escapes, in a string and in a list: the text is read back
exactly when no backslash stands in front of a double quote in it.
-/
theorem backQuoted_read_back (m : Marker) :
    (∀ text, m.value = some (backQuoted text) →
      m.asString = .ok (unescaped text) ∧
      (m.asString = .ok text ↔ ¬ ['\\', '"'] <:+: text.toList)) ∧
    (∀ texts : List String, texts ≠ [] → (∀ text ∈ texts, '`' ∉ text.toList) →
      m.value = some (";".intercalate (texts.map backQuoted)) →
      m.asList = .ok (texts.map unescaped) ∧
      (m.asList = .ok texts ↔ ∀ text ∈ texts, ¬ ['\\', '"'] <:+: text.toList)) := by
  refine ⟨fun text value => ?_, fun texts nonempty raw value => ?_⟩
  · have read : m.asString = .ok (unescaped text) := by
      rw [Marker.asString_of_value value, valueOf_backQuoted]
    refine ⟨read, ?_⟩
    rw [read, Except.ok.injEq, unescaped_eq_self_iff]
  · have single (text : String) (mem : text ∈ texts) : IsPart ';' (backQuoted text).toList :=
      isPart_backQuoted rfl (raw text mem)
    have read : m.asList = .ok (texts.map unescaped) := by
      rw [Marker.asList_of_written backQuoted nonempty single value]
      simp only [valueOf_backQuoted]
    refine ⟨read, ?_⟩
    rw [read, Except.ok.injEq, map_unescaped_eq_self_iff]

end Quoted

namespace BackQuotes

open Quoted

def digits : Marker where
  identifier := "kubebuilder:validation:Pattern"
  value := some "`^\\d+;?$`"
  expressions := []
  raw := "kubebuilder:validation:Pattern=`^\\d+;?$`"

/-- Two of the three have no escape; the second is two backslashes between double quotes. -/
def words : List String := ["^\\d+;?$", "\"\\\\\"", ""]

def choice : Marker where
  identifier := MarkerName.enum
  value := some "`^\\d+;?$`;`\"\\\\\"`;``"
  expressions := []
  raw := "kubebuilder:validation:Enum=`^\\d+;?$`;`\"\\\\\"`;``"

theorem backQuoted_read_back_words :
    (digits.value = some (backQuoted "^\\d+;?$") ∧ digits.asString = .ok "^\\d+;?$") ∧
    (∀ text ∈ words, '`' ∉ text.toList) ∧
    choice.value = some (";".intercalate (words.map backQuoted)) ∧
    choice.asList = .ok ["^\\d+;?$", "\"\\\"", ""] := by
  have raw : ∀ text ∈ words, '`' ∉ text.toList := by decide +kernel
  have value : choice.value = some (";".intercalate (words.map backQuoted)) := by decide +kernel
  have read := ((backQuoted_read_back choice).2 words (by decide) raw value).1
  have kept := ((backQuoted_read_back digits).1 "^\\d+;?$" (by decide +kernel)).2.2
    (by decide +kernel)
  have unescaped : words.map unescaped = ["^\\d+;?$", "\"\\\"", ""] := by decide +kernel
  rw [unescaped] at read
  exact ⟨⟨by decide +kernel, kept⟩, raw, value, read⟩

/-- A word between quotes, as a pattern that escapes them. -/
def quotedWord : String := "^\\\"[a-z]*\\\"$"

/-- The escapes are lost between back quotes. -/
theorem backQuoted_escape_lost :
    '`' ∉ quotedWord.toList ∧
    ∃ m, Registry.standard.parseLine?
        "// +kubebuilder:validation:Pattern=`^\\\"[a-z]*\\\"$`" = some m ∧
      m.value = some (backQuoted quotedWord) ∧
      m.asString = .ok "^\"[a-z]*\"$" ∧ m.asList = .ok ["^\"[a-z]*\"$"] ∧
      m.asString ≠ .ok quotedWord ∧ m.asList ≠ .ok [quotedWord] := by
  exact ⟨by decide +kernel, ⟨"kubebuilder:validation:Pattern", some "`^\\\"[a-z]*\\\"$`", [],
    "kubebuilder:validation:Pattern=`^\\\"[a-z]*\\\"$`"⟩, by decide +kernel, by decide +kernel,
    by decide +kernel, by decide +kernel, by decide +kernel, by decide +kernel⟩

end BackQuotes
end ApiConventions
