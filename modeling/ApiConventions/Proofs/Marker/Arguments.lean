import ApiConventions.Proofs.Marker.Registry
import ApiConventions.Proofs.Marker.Values

/-!
# ApiConventions.Proofs.Marker.Arguments

Texts between double quotes. A text without backslashes is read back as it was written, as a
member of a list and as the value of an argument of an expression marker. There the identifier,
the names and the values are told apart although a value may hold any separator.
-/

namespace ApiConventions

namespace Registry

open Quoted

variable {r : Registry} {id : String} {a : String × String} {args : List (String × String)}

/-- An argument that can be told from the others: its name has no separator and no quote. -/
structure IsArgument (a : String × String) : Prop where
  name_trimmed : Text.trimmed a.1 = a.1
  name_chars : ∀ c ∈ a.1.toList, c ∉ ['=', ',', ':', '"', '`']
  value_chars : '\\' ∉ a.2.toList

def writtenArgument (a : String × String) : String :=
  a.1 ++ "=" ++ doubleQuoted a.2

/-- The arguments of an expression marker as they are written. -/
def writtenArguments (args : List (String × String)) : String :=
  ",".intercalate (args.map writtenArgument)

/-- An identifier with which the text of a marker can start. -/
def StartsMarker (id : String) : Prop :=
  ∃ c rest, id.toList = c :: rest ∧ Text.isBlank c = false ∧ c ≠ '+' ∧ c ≠ '-'

theorem toList_writtenArgument (a : String × String) :
    (writtenArgument a).toList = a.1.toList ++ '=' :: (doubleQuoted a.2).toList := by
  simp [writtenArgument]

theorem IsArgument.isPart (h : IsArgument a) : IsPart ',' (writtenArgument a).toList := by
  have name : IsPart ',' (a.1.toList ++ ['=']) := by
    refine isPart_of_plain fun c mem => ?_
    rcases List.mem_append.1 mem with mem | mem
    · have chars := h.name_chars c mem
      simp only [List.mem_cons, not_or] at chars
      obtain ⟨-, comma, -, double, back, -⟩ := chars
      exact ⟨by simp [isQuote, double, back], comma⟩
    · cases List.mem_singleton.1 mem
      exact ⟨rfl, by decide⟩
  have value : IsPart ',' (doubleQuoted a.2).toList := isPart_doubleQuoted rfl h.value_chars
  rw [toList_writtenArgument, List.append_cons]
  exact Scan.append name value

theorem IsArgument.argument?_eq (h : IsArgument a) :
    argument? (writtenArgument a).toList = some a := by
  have equals : '=' ∉ a.1.toList := fun mem => h.name_chars '=' mem (by decide)
  have name : String.ofList (Text.trim a.1.toList) = a.1 := h.name_trimmed
  have value : String.ofList (unquote (Text.trim (doubleQuoted a.2).toList)) = a.2 :=
    valueOf_doubleQuoted a.2
  rw [argument?, toList_writtenArgument, Text.cutAt?_append equals, Option.map_some]
  simp only [name, value]

theorem toList_writtenArguments (args : List (String × String)) :
    (writtenArguments args).toList =
      [','].intercalate (args.map fun a => (writtenArgument a).toList) := by
  rw [writtenArguments, String.toList_intercalate, List.map_map]
  rfl

theorem argumentList_written (nonempty : args ≠ []) (h : ∀ a ∈ args, IsArgument a) :
    argumentList (writtenArguments args).toList = args := by
  have split : split ',' (writtenArguments args).toList =
      some (args.map fun a => (writtenArgument a).toList) := by
    rw [toList_writtenArguments]
    refine split_intercalate rfl (by simpa using nonempty) fun part hpart => ?_
    obtain ⟨a, mem, rfl⟩ := List.mem_map.1 hpart
    exact (h a mem).isPart
  rw [argumentList, split, Option.getD_some, List.filterMap_map]
  have each : ∀ a ∈ args, (argument? ∘ fun a => (writtenArgument a).toList) a = some a :=
    fun a mem => (h a mem).argument?_eq
  rw [List.filterMap_congr each, List.filterMap_some]

theorem exists_writtenArguments (nonempty : args ≠ []) :
    ∃ a ∈ args, ∃ rest, (writtenArguments args).toList = a.1.toList ++ '=' :: rest := by
  obtain ⟨a, args, rfl⟩ := List.exists_cons_of_ne_nil nonempty
  refine ⟨a, List.mem_cons_self, ?_⟩
  rw [toList_writtenArguments, List.map_cons]
  cases args with
  | nil => exact ⟨_, by rw [List.map_nil, List.intercalate_singleton, toList_writtenArgument]⟩
  | cons b args =>
    rw [List.map_cons, List.intercalate_cons_cons, toList_writtenArgument]
    exact ⟨_, by rw [List.append_assoc, List.append_assoc, List.cons_append]⟩

theorem getLast?_writtenArguments (nonempty : args ≠ []) :
    (writtenArguments args).toList.getLast? = some '"' := by
  rw [toList_writtenArguments]
  refine Text.getLast?_intercalate (by simpa using nonempty) fun part mem => ?_
  obtain ⟨a, -, rfl⟩ := List.mem_map.1 mem
  have quote : (doubleQuoted a.2).toList.getLast? = some '"' := by
    rw [doubleQuoted, String.toList_ofList, Text.enclose, ← List.cons_append, List.getLast?_concat]
  rw [toList_writtenArgument, List.getLast?_append, List.getLast?_cons, quote]
  rfl

/-- A longer identifier would hold the `=` of the first argument. -/
theorem isLongest_of_name {body name rest : List Char} (mem : id ∈ r.identifiers)
    (plain : ∀ other ∈ r.identifiers, '=' ∉ other.toList) (colon : ':' ∉ name)
    (split : body = id.toList ++ ':' :: (name ++ '=' :: rest)) :
    IsLongest r.identifiers body id := by
  refine ⟨mem, ⟨_, split⟩, fun other hother fits => ?_⟩
  obtain ⟨args, hargs⟩ := fits
  rw [split] at hargs
  by_contra longer
  have equals := plain other hother
  rcases List.append_eq_append_iff.1 hargs with ⟨between, hother, hbetween⟩ | ⟨between, hid, -⟩
  · cases between with
    | nil =>
      rw [List.append_nil] at hother
      exact longer (by rw [String.toList_inj.1 hother])
    | cons c between =>
      rw [hother] at equals
      have cuts := (List.cons.inj hbetween).2
      rcases Text.mem_or_mem_of_append_eq (by decide) cuts with beyond | before
      · exact equals (List.mem_append_right id.toList (List.mem_cons_of_mem c beyond))
      · exact colon before
  · have shorter := congrArg List.length hid
    rw [List.length_append, String.length_toList, String.length_toList] at shorter
    omega

/-- An expression marker is read back with its identifier and its arguments. -/
theorem parseLine?_written (registered : id ∈ r.identifiers) (starts : StartsMarker id)
    (plain : ∀ other ∈ r.identifiers, '=' ∉ other.toList) (nonempty : args ≠ [])
    (h : ∀ a ∈ args, IsArgument a) :
    r.parseLine? ("// +" ++ id ++ ":" ++ writtenArguments args) = some
      { identifier := id
        value := some (writtenArguments args)
        expressions := args
        raw := id ++ ":" ++ writtenArguments args } := by
  obtain ⟨c, start, hid, blank, plus, minus⟩ := starts
  generalize hbody : (id ++ ":" ++ writtenArguments args).toList = body
  have split : body = id.toList ++ ':' :: (writtenArguments args).toList := by simp [← hbody]
  have isOpen : IsOpen body := ⟨c, _, by rw [split, hid, List.cons_append], minus, plus⟩
  -- The line ends with a quote, so that neither a blank nor `*/` can be dropped there.
  have last : body.getLast? = some '"' := by
    rw [split, List.getLast?_append, List.getLast?_cons, getLast?_writtenArguments nonempty]
    rfl
  have trimmed : Text.IsTrimmed body := by
    refine ⟨fun d hd => ?_, fun d hd => ?_⟩
    · rw [split, hid] at hd
      cases hd
      exact blank
    · rw [last] at hd
      cases hd
      decide
  have longest : IsLongest r.identifiers body id := by
    obtain ⟨a, mem, rest, hargs⟩ := exists_writtenArguments nonempty
    have colon : ':' ∉ a.1.toList := fun hc => (h a mem).name_chars ':' hc (by decide)
    rw [hargs] at split
    exact isLongest_of_name registered plain colon split
  have line : "// +" ++ id ++ ":" ++ writtenArguments args = "// +" ++ String.ofList body := by
    rw [← hbody, String.ofList_toList]
    simp only [String.append_assoc]
  rw [parseLine?_eq, line, markerText?_slashes trimmed last (by decide), Option.bind_some,
    markerOfBody?_of_longest isOpen longest split, String.ofList_toList,
    argumentList_written nonempty h, ← hbody, String.ofList_toList]

end Registry

namespace Quoted

/--
Double quotes keep every text without a backslash: as a member of a list, and as the value of an
argument of an expression marker.
-/
theorem doubleQuoted_read_back (m : Marker) (r : Registry) :
    (∀ texts : List String, texts ≠ [] → (∀ text ∈ texts, '\\' ∉ text.toList) →
      m.value = some (";".intercalate (texts.map doubleQuoted)) → m.asList = .ok texts) ∧
    (∀ (id : String) (args : List (String × String)), id ∈ r.identifiers →
      Registry.StartsMarker id → (∀ other ∈ r.identifiers, '=' ∉ other.toList) →
      args ≠ [] → (∀ a ∈ args, Registry.IsArgument a) →
      r.parseLine? ("// +" ++ id ++ ":" ++ Registry.writtenArguments args) = some
        { identifier := id
          value := some (Registry.writtenArguments args)
          expressions := args
          raw := id ++ ":" ++ Registry.writtenArguments args }) := by
  refine ⟨fun texts nonempty plain value => ?_,
    fun id args registered starts plain nonempty written =>
      Registry.parseLine?_written registered starts plain nonempty written⟩
  have single (text : String) (mem : text ∈ texts) : IsPart ';' (doubleQuoted text).toList :=
    isPart_doubleQuoted rfl (plain text mem)
  rw [Marker.asList_of_written doubleQuoted nonempty single value]
  simp only [valueOf_doubleQuoted, List.map_id']

end Quoted

namespace DoubleQuotes

open Quoted

def names : List String := ["Foo", "Bar;\"Baz\" = `,", ""]

def enumeration : Marker where
  identifier := MarkerName.enum
  value := some "\"Foo\";\"Bar;\\\"Baz\\\" = `,\";\"\""
  expressions := []
  raw := "kubebuilder:validation:Enum=\"Foo\";\"Bar;\\\"Baz\\\" = `,\";\"\""

def rule : List (String × String) :=
  [("rule", "self.a == \"x\", really"), ("message", ""), ("field path", "a:`b`;c=d ")]

def ruleLine : String :=
  "// +kubebuilder:validation:XValidation:rule=\"self.a == \\\"x\\\", really\",message=\"\"," ++
    "field path=\"a:`b`;c=d \""

theorem doubleQuoted_read_back_members :
    ((∀ text ∈ names, '\\' ∉ text.toList) ∧
      enumeration.value = some (";".intercalate (names.map doubleQuoted)) ∧
      enumeration.asList = .ok names) ∧
    (MarkerName.xValidation ∈ Registry.standard.identifiers ∧
      Registry.StartsMarker MarkerName.xValidation ∧
      (∀ other ∈ Registry.standard.identifiers, '=' ∉ other.toList) ∧
      ∀ a ∈ rule, Registry.IsArgument a) ∧
    (Registry.standard.parseLine? ruleLine).map (·.identifier) = some MarkerName.xValidation ∧
    (Registry.standard.parseLine? ruleLine).map (·.expressions) = some rule := by
  have read := doubleQuoted_read_back enumeration .standard
  have plain : ∀ text ∈ names, '\\' ∉ text.toList := by decide +kernel
  have value : enumeration.value = some (";".intercalate (names.map doubleQuoted)) := by
    decide +kernel
  have members := read.1 names (by decide) plain value
  have registered : MarkerName.xValidation ∈ Registry.standard.identifiers := by decide +kernel
  have starts : Registry.StartsMarker MarkerName.xValidation :=
    ⟨'k', _, rfl, by decide, by decide, by decide⟩
  have free : ∀ other ∈ Registry.standard.identifiers, '=' ∉ other.toList := by decide +kernel
  have arguments : ∀ a ∈ rule, Registry.IsArgument a := by
    intro a mem
    simp only [rule, List.mem_cons, List.not_mem_nil, or_false] at mem
    rcases mem with rfl | rfl | rfl <;>
      exact ⟨by decide +kernel, by simp, by simp⟩
  have parsed := read.2 MarkerName.xValidation rule registered starts free (by decide) arguments
  have written :
      ruleLine = "// +" ++ MarkerName.xValidation ++ ":" ++ Registry.writtenArguments rule := by
    decide +kernel
  rw [← written] at parsed
  rw [parsed]
  exact ⟨⟨plain, value, members⟩, ⟨registered, starts, free, arguments⟩, rfl, rfl⟩

end DoubleQuotes
end ApiConventions
