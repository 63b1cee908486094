import Mathlib.Data.List.Basic
import ApiConventions.Marker.Quoted
import ApiConventions.Proofs.Text.Literal

/-!
# ApiConventions.Proofs.Marker.Quoted

Splitting outside quotes, and the quotes themselves. `Scan` is a walk over a text that meets no
separator outside quotes; a text that such a walk leads from outside quotes back to outside stays
one part wherever it stands, so that splitting undoes joining. Texts between quotes are of this
kind: without backslashes between double quotes, and without back quotes between those.
-/

namespace ApiConventions
namespace Quoted

variable {sep q c : Char} {state state' state'' : State} {s t : List Char}
  {parts : List (List Char)} {text : String} {texts : List String}

/-! ## One character -/

theorem next_plain (other : isQuote c = false) : State.next .outside c = .outside := by
  simp [State.next, other]

theorem next_opens (quote : isQuote q = true) : State.next .outside q = .inside q := by
  simp [State.next, quote]

theorem next_closes (quote : isQuote q = true) : State.next (.inside q) q = .outside := by
  have backslash : q ≠ '\\' := by
    rintro rfl
    cases quote
  simp [State.next, backslash]

/-- Inside quotes a character other than a backslash and the quote changes nothing. -/
theorem next_inside (backslash : q = '"' → c ≠ '\\') (quote : c ≠ q) :
    State.next (.inside q) c = .inside q := by
  have shown : ¬ (q = '"' ∧ c = '\\') := fun h => backslash h.1 h.2
  simp [State.next, shown, quote]

/-! ## Splitting -/

/-- A text leads from one state to another and has no separator outside quotes. -/
inductive Scan (sep : Char) : State → List Char → State → Prop where
  | nil {state : State} : Scan sep state [] state
  | cons {state state' : State} {c : Char} {s : List Char} (kept : state = .outside → c ≠ sep)
      (rest : Scan sep (state.next c) s state') : Scan sep state (c :: s) state'

/-- A text that stays one part when a longer text is split. -/
def IsPart (sep : Char) (s : List Char) : Prop :=
  Scan sep .outside s .outside

theorem Scan.append (h : Scan sep state s state') (h' : Scan sep state' t state'') :
    Scan sep state (s ++ t) state'' := by
  induction h with
  | nil => exact h'
  | cons kept _ ih => exact .cons kept (ih h')

theorem ne_nil_of_splitFrom (h : splitFrom sep state s = some parts) : parts ≠ [] := by
  cases s with
  | nil =>
    rw [splitFrom] at h
    split at h
    · cases h
      exact List.cons_ne_nil _ _
    · cases h
  | cons c s =>
    rw [splitFrom] at h
    split at h
    · split at h <;> (cases h; exact List.cons_ne_nil _ _)
    · cases h

/-- What a scan passes over stands in front of the first part of the rest. -/
theorem Scan.splitFrom_append (h : Scan sep state s state') (rest : List Char) :
    splitFrom sep state (s ++ rest) =
      (splitFrom sep state' rest).map (List.modifyHead (s ++ ·)) := by
  -- The walk has a constructor for each character, as the splitting has a step.
  induction h with
  | nil =>
    have same : List.modifyHead (([] : List Char) ++ ·) = id := by
      funext parts
      cases parts <;> rfl
    rw [List.nil_append, same, Option.map_id, id]
  | @cons state state' c s kept _ ih =>
    rw [List.cons_append, splitFrom, ih]
    cases hparts : splitFrom sep state' rest with
    | none => rfl
    | some parts =>
      obtain ⟨part, parts, rfl⟩ := List.exists_cons_of_ne_nil (ne_nil_of_splitFrom hparts)
      have unsplit : ¬ (state = .outside ∧ (!isQuote c) = true ∧ c = sep) :=
        fun splits => kept splits.1 splits.2.2
      simp only [Option.map_some, List.modifyHead_cons, if_neg unsplit, List.cons_append]

theorem IsPart.split (h : IsPart sep s) : split sep s = some [s] := by
  have whole := h.splitFrom_append []
  rw [List.append_nil] at whole
  rw [Quoted.split, whole]
  simp [splitFrom]

theorem IsPart.split_append (h : IsPart sep s) (hsep : isQuote sep = false) (rest : List Char) :
    Quoted.split sep (s ++ sep :: rest) = (Quoted.split sep rest).map (s :: ·) := by
  rw [Quoted.split, h.splitFrom_append, splitFrom, next_plain hsep, Quoted.split]
  cases hparts : splitFrom sep .outside rest with
  | none => rfl
  | some parts =>
    obtain ⟨part, parts, rfl⟩ := List.exists_cons_of_ne_nil (ne_nil_of_splitFrom hparts)
    simp [hsep]

/-- Splitting undoes joining. -/
theorem split_intercalate (hsep : isQuote sep = false) (nonempty : parts ≠ [])
    (h : ∀ part ∈ parts, IsPart sep part) : split sep ([sep].intercalate parts) = some parts := by
  induction parts with
  | nil => exact absurd rfl nonempty
  | cons part parts ih =>
    obtain ⟨first, others⟩ := List.forall_mem_cons.1 h
    cases parts with
    | nil => simpa using first.split
    | cons next parts =>
      have rest := ih (List.cons_ne_nil next parts) others
      rw [List.intercalate_cons_cons, List.append_assoc, List.singleton_append,
        first.split_append hsep, rest]
      rfl

/-! ## Parts -/

theorem isPart_of_plain (h : ∀ c ∈ s, isQuote c = false ∧ c ≠ sep) : IsPart sep s := by
  induction s with
  | nil => exact .nil
  | cons c s ih =>
    obtain ⟨⟨quote, other⟩, rest⟩ := List.forall_mem_cons.1 h
    refine .cons (fun _ => other) ?_
    rw [next_plain quote]
    exact ih rest

theorem isPart_enclose (hq : isQuote q = true) (hsep : isQuote sep = false)
    (h : Scan sep (.inside q) s (.inside q)) : IsPart sep (Text.enclose q s) := by
  have different : q ≠ sep := by
    rintro rfl
    rw [hq] at hsep
    cases hsep
  refine .cons (fun _ => different) ?_
  rw [next_opens hq]
  refine h.append (.cons nofun ?_)
  rw [next_closes hq]
  exact .nil

/-- Inside double quotes every quote is escaped, and nothing else is hidden. -/
theorem scan_escape (h : '\\' ∉ s) :
    Scan sep (.inside '"') (Text.escape (· == '"') s) (.inside '"') := by
  induction s with
  | nil => exact .nil
  | cons c s ih =>
    have backslash : c ≠ '\\' := fun same => h (by simp [same])
    have rest := ih fun mem => h (List.mem_cons_of_mem c mem)
    by_cases quote : c = '"'
    · rw [Text.escape_cons_of_special (by simp [quote])]
      refine .cons nofun ?_
      exact .cons nofun rest
    · rw [Text.escape_cons_of_plain (by simp [quote])]
      refine .cons nofun ?_
      rw [next_inside (fun _ => backslash) quote]
      exact rest

/-- Between back quotes a backslash hides nothing. -/
theorem scan_raw (h : '`' ∉ s) : Scan sep (.inside '`') s (.inside '`') := by
  induction s with
  | nil => exact .nil
  | cons c s ih =>
    have quote : c ≠ '`' := fun same => h (by simp [same])
    refine .cons nofun ?_
    rw [next_inside (fun double => by cases double) quote]
    exact ih fun mem => h (List.mem_cons_of_mem c mem)

/-! ## Removing quotes -/

theorem unquote_enclose (hq : isQuote q = true) (s : List Char) :
    unquote (Text.enclose q s) = unescape s := by
  have inner : between? q (Text.enclose q s) = some s := by simp [between?, Text.enclose]
  rcases (by simpa [isQuote] using hq : q = '"' ∨ q = '`') with rfl | rfl
  · rw [unquote, inner]
    rfl
  · have other : between? '"' (Text.enclose '`' s) = none := by simp [between?, Text.enclose]
    rw [unquote, other, inner]
    rfl

theorem unescape_cons {c : Char} (h : c ≠ '\\' ∨ s.head? ≠ some '"') :
    unescape (c :: s) = c :: unescape s := by
  rw [unescape.eq_2]
  rintro rest rfl rfl
  simp at h

theorem head?_escape_ne (s : List Char) : (Text.escape (· == '"') s).head? ≠ some '"' := by
  cases s with
  | nil => simp [Text.escape]
  | cons c s =>
    by_cases quote : c = '"'
    · rw [Text.escape_cons_of_special (by simp [quote])]
      simp
    · rw [Text.escape_cons_of_plain (by simp [quote])]
      simpa using quote

theorem unescape_escape (s : List Char) : unescape (Text.escape (· == '"') s) = s := by
  induction s with
  | nil => rfl
  | cons c s ih =>
    by_cases quote : c = '"'
    · rw [Text.escape_cons_of_special (by simp [quote]), quote, unescape, ih]
    · rw [Text.escape_cons_of_plain (by simp [quote]), unescape_cons (.inr (head?_escape_ne s)), ih]

/-- A text has no escapes exactly when no backslash stands in front of a double quote. -/
theorem unescape_eq_self_iff : unescape s = s ↔ ¬ ['\\', '"'] <:+: s := by
  induction s using unescape.induct with
  | case1 rest _ =>
    have escape : ['\\', '"'] <:+: '\\' :: '"' :: rest := (List.prefix_append _ rest).isInfix
    simp [unescape, escape]
  | case2 c s plain ih =>
    have start : ¬ ['\\', '"'] <+: c :: s := by
      rintro ⟨rest, same⟩
      cases same
      exact plain rest rfl rfl
    rw [unescape.eq_2 c s plain, List.infix_cons_iff, not_or, ← ih]
    simp [start]
  | case3 => simp [unescape]

/-! ## Texts as they are written -/

/-- A text between double quotes, each of its own quotes behind a backslash. -/
def doubleQuoted (text : String) : String :=
  String.ofList (Text.enclose '"' (Text.escape (· == '"') text.toList))

def backQuoted (text : String) : String :=
  String.ofList (Text.enclose '`' text.toList)

/-- A text without the backslashes that stand in front of a double quote. -/
def unescaped (text : String) : String :=
  String.ofList (unescape text.toList)

theorem isPart_doubleQuoted {sep : Char} (hsep : isQuote sep = false) (h : '\\' ∉ text.toList) :
    IsPart sep (doubleQuoted text).toList := by
  rw [doubleQuoted, String.toList_ofList]
  exact isPart_enclose rfl hsep (scan_escape h)

theorem isPart_backQuoted {sep : Char} (hsep : isQuote sep = false) (h : '`' ∉ text.toList) :
    IsPart sep (backQuoted text).toList := by
  rw [backQuoted, String.toList_ofList]
  exact isPart_enclose rfl hsep (scan_raw h)

/-- What a reader of strings makes of a part. -/
def valueOf (part : List Char) : String :=
  String.ofList (unquote (Text.trim part))

theorem valueOf_doubleQuoted (text : String) : valueOf (doubleQuoted text).toList = text := by
  rw [valueOf, doubleQuoted, String.toList_ofList,
    (Text.isTrimmed_enclose (by decide) _).trim_eq, unquote_enclose rfl, unescape_escape,
    String.ofList_toList]

theorem valueOf_backQuoted (text : String) :
    valueOf (backQuoted text).toList = unescaped text := by
  rw [valueOf, backQuoted, String.toList_ofList,
    (Text.isTrimmed_enclose (by decide) _).trim_eq, unquote_enclose rfl, unescaped]

theorem unescaped_eq_self_iff : unescaped text = text ↔ ¬ ['\\', '"'] <:+: text.toList := by
  rw [← unescape_eq_self_iff, unescaped, ← String.toList_inj, String.toList_ofList]

theorem map_unescaped_eq_self_iff :
    texts.map unescaped = texts ↔ ∀ text ∈ texts, ¬ ['\\', '"'] <:+: text.toList := by
  simp only [← unescaped_eq_self_iff]
  induction texts with
  | nil => simp
  | cons text texts ih => rw [List.map_cons, List.cons.injEq, ih, List.forall_mem_cons]

end Quoted
end ApiConventions
