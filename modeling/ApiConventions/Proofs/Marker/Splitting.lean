import ApiConventions.Proofs.Marker.Quoted

/-!
# ApiConventions.Proofs.Marker.Splitting

Splitting loses nothing. `Closed` is the grammar of the texts that leave no quote open, and a text
is `LeftOpen` when a quote that is opened in it is never closed; every text is one or the other. A
scan ends outside quotes on the closed texts only (`after_outside_iff`). So splitting fails on the
others and on nothing else, and its parts, which joined are the text again, are closed as well.
-/

namespace ApiConventions
namespace Quoted

/--
A text that can stand between quotes. Between double quotes a backslash hides the next character,
whatever it is; between back quotes it hides nothing.
-/
inductive Body (q : Char) : List Char → Prop where
  | nil : Body q []
  | shown {c : Char} {s : List Char} (other : c ≠ q) (backslash : q = '"' → c ≠ '\\')
      (rest : Body q s) : Body q (c :: s)
  | hidden {c : Char} {s : List Char} (double : q = '"') (rest : Body q s) :
      Body q ('\\' :: c :: s)

/-- A text in which every quote that is opened is closed. -/
inductive Closed : List Char → Prop where
  | nil : Closed []
  | plain {c : Char} {s : List Char} (other : isQuote c = false) (rest : Closed s) : Closed (c :: s)
  | quoted {q : Char} {body s : List Char} (quote : isQuote q = true) (inner : Body q body)
      (rest : Closed s) : Closed (q :: (body ++ q :: s))

/-- A quote is opened that is never closed: what follows never gets to the quote again. -/
def LeftOpen (s : List Char) : Prop :=
  ∃ before q after, s = before ++ q :: after ∧ Closed before ∧ isQuote q = true ∧
    ∀ body rest, after = body ++ q :: rest → ¬ Body q body

/-- The state after a text. -/
def State.after (state : State) (s : List Char) : State :=
  s.foldl State.next state

variable {sep q c : Char} {state state' : State} {s t body part before : List Char}
  {parts : List (List Char)}

@[simp] theorem State.after_nil : state.after [] = state := rfl

@[simp] theorem State.after_cons : state.after (c :: s) = (state.next c).after s := rfl

theorem State.after_append : state.after (s ++ t) = (state.after s).after t :=
  List.foldl_append

/-! ## Quotes -/

theorem Body.after (h : Body q s) : State.after (.inside q) s = .inside q := by
  induction h with
  | nil => rfl
  | shown other backslash _ ih => rw [State.after_cons, next_inside backslash other, ih]
  | hidden double _ ih =>
    subst double
    exact ih

theorem after_quoted (quote : isQuote q = true) (inner : Body q body) :
    State.after .outside (q :: (body ++ q :: s)) = State.after .outside s := by
  rw [State.after_cons, next_opens quote, State.after_append, inner.after, State.after_cons,
    next_closes quote]

theorem Closed.after (h : Closed s) : State.after .outside s = .outside := by
  induction h with
  | nil => rfl
  | plain other _ ih => rw [State.after_cons, next_plain other, ih]
  | quoted quote inner _ ih => rw [after_quoted quote inner, ih]

/-- Only the quote that opened them leads out of quotes, and it stands behind a body. -/
theorem exists_body (s : List Char) :
    (State.after (.inside q) s = .outside → ∃ body rest, s = body ++ q :: rest ∧ Body q body) ∧
    (q = '"' → State.after .escaped s = .outside →
      ∃ c body rest, s = c :: (body ++ q :: rest) ∧ Body q body) := by
  -- After a backslash the scan is in a state of its own, so both are proved together.
  induction s with
  | nil => exact ⟨nofun, fun _ => nofun⟩
  | cons c s ih =>
    constructor
    · intro ends
      rw [State.after_cons] at ends
      by_cases escape : q = '"' ∧ c = '\\'
      · obtain ⟨rfl, rfl⟩ := escape
        obtain ⟨d, body, rest, rfl, inner⟩ := ih.2 rfl ends
        exact ⟨'\\' :: d :: body, rest, rfl, .hidden rfl inner⟩
      · have backslash : q = '"' → c ≠ '\\' := fun double same => escape ⟨double, same⟩
        by_cases quote : c = q
        · subst quote
          exact ⟨[], s, rfl, .nil⟩
        · rw [next_inside backslash quote] at ends
          obtain ⟨body, rest, rfl, inner⟩ := ih.1 ends
          exact ⟨c :: body, rest, rfl, .shown quote backslash inner⟩
    · rintro rfl ends
      obtain ⟨body, rest, rfl, inner⟩ := ih.1 ends
      exact ⟨c, body, rest, rfl, inner⟩

namespace LeftOpen

theorem plain (other : isQuote c = false) : LeftOpen s → LeftOpen (c :: s) := by
  rintro ⟨before, q, after, rfl, closed, quote, never⟩
  exact ⟨c :: before, q, after, rfl, .plain other closed, quote, never⟩

theorem quoted (quote : isQuote q = true) (inner : Body q body) :
    LeftOpen s → LeftOpen (q :: (body ++ q :: s)) := by
  rintro ⟨before, q', after, rfl, closed, quote', never⟩
  exact ⟨q :: (body ++ q :: before), q', after, by simp, .quoted quote inner closed, quote', never⟩

theorem after_ne (h : LeftOpen s) : State.after .outside s ≠ .outside := by
  obtain ⟨before, q, after, rfl, closed, quote, never⟩ := h
  intro ends
  rw [State.after_append, closed.after, State.after_cons, next_opens quote] at ends
  obtain ⟨body, rest, same, inner⟩ := (exists_body after).1 ends
  exact never body rest same inner

end LeftOpen

theorem closed_or_leftOpen (s : List Char) : Closed s ∨ LeftOpen s := by
  -- Behind a quote that is closed the text goes on after the body, hence on the length.
  induction hn : s.length using Nat.strong_induction_on generalizing s with
  | _ n ih =>
    cases s with
    | nil => exact .inl .nil
    | cons c s =>
      rw [List.length_cons] at hn
      cases quote : isQuote c with
      | false => exact (ih s.length (by omega) s rfl).imp (.plain quote) (.plain quote)
      | true =>
        by_cases closes : ∃ body rest, s = body ++ c :: rest ∧ Body c body
        · obtain ⟨body, rest, rfl, inner⟩ := closes
          have shorter : rest.length < n := by
            rw [List.length_append, List.length_cons] at hn
            omega
          exact (ih rest.length shorter rest rfl).imp (.quoted quote inner) (.quoted quote inner)
        · exact .inr ⟨[], c, s, rfl, .nil, quote, fun body rest same inner =>
            closes ⟨body, rest, same, inner⟩⟩

theorem after_outside_iff : State.after .outside s = .outside ↔ Closed s := by
  refine ⟨fun ends => ?_, Closed.after⟩
  exact (closed_or_leftOpen s).resolve_right fun opened => opened.after_ne ends

theorem leftOpen_iff : LeftOpen s ↔ State.after .outside s ≠ .outside := by
  refine ⟨LeftOpen.after_ne, fun opened => ?_⟩
  exact (closed_or_leftOpen s).resolve_left fun closed => opened closed.after

/-! ## Parts -/

theorem splitFrom_eq_none_iff : splitFrom sep state s = none ↔ state.after s ≠ .outside := by
  induction s generalizing state with
  | nil => simp [splitFrom]
  | cons c s ih =>
    rw [State.after_cons, ← ih, splitFrom]
    cases found : splitFrom sep (state.next c) s with
    | none => simp
    | some parts =>
      obtain ⟨part, parts, rfl⟩ := List.exists_cons_of_ne_nil (ne_nil_of_splitFrom found)
      simp only [reduceCtorEq, iff_false]
      split <;> simp

/-- The parts are walks without a separator, and they stand between separators in the text. -/
theorem scan_of_splitFrom (hsep : isQuote sep = false)
    (h : splitFrom sep state s = some (part :: parts)) :
    Scan sep state part .outside ∧ (∀ next ∈ parts, IsPart sep next) ∧
      [sep].intercalate (part :: parts) = s := by
  induction s generalizing state part parts with
  | nil =>
    rw [splitFrom] at h
    split at h
    · rename_i ends
      cases h
      rw [ends]
      exact ⟨.nil, by simp, by simp⟩
    · cases h
  | cons c s ih =>
    rw [splitFrom] at h
    cases found : splitFrom sep (state.next c) s with
    | none => simp [found] at h
    | some rest =>
      obtain ⟨first, others, rfl⟩ := List.exists_cons_of_ne_nil (ne_nil_of_splitFrom found)
      obtain ⟨scan, are, joined⟩ := ih found
      rw [found] at h
      simp only at h
      split at h
      · rename_i splits
        obtain ⟨rfl, -, rfl⟩ := splits
        cases h
        rw [next_plain hsep] at scan
        refine ⟨.nil, List.forall_mem_cons.2 ⟨scan, are⟩, ?_⟩
        rw [List.intercalate_cons_cons, joined]
        rfl
      · rename_i unsplit
        cases h
        have kept : state = .outside → c ≠ sep := by
          rintro rfl rfl
          exact unsplit ⟨rfl, by simp [hsep], rfl⟩
        refine ⟨.cons kept scan, are, ?_⟩
        rw [← joined]
        cases parts <;> simp

theorem Scan.after (h : Scan sep state s state') : state.after s = state' := by
  induction h with
  | nil => rfl
  | cons _ _ ih => exact ih

theorem Scan.of_append (h : Scan sep state (s ++ t) state') :
    Scan sep (state.after s) t state' := by
  induction s generalizing state with
  | nil => exact h
  | cons c s ih =>
    cases h with
    | cons _ rest => exact ih rest

theorem IsPart.closed (h : IsPart sep s) : Closed s :=
  after_outside_iff.1 h.after

/-- A part has no separator outside quotes. -/
theorem IsPart.not_closed (h : IsPart sep (before ++ sep :: t)) : ¬ Closed before := by
  intro closed
  have rest := h.of_append
  rw [closed.after] at rest
  cases rest with
  | cons kept _ => exact kept rfl rfl

/--
Splitting fails on the texts that leave a quote open. Of every other text the parts joined give
back the text, and each of them leaves no quote open, has the separator inside quotes only and is
its own only part.
-/
theorem split_lossless (hsep : isQuote sep = false) (s : List Char) :
    (split sep s = none ↔ LeftOpen s) ∧
    (¬ LeftOpen s → ∃ parts, split sep s = some parts ∧ [sep].intercalate parts = s ∧
      ∀ part ∈ parts, Closed part ∧ split sep part = some [part] ∧
        ∀ before after, part = before ++ sep :: after → ¬ Closed before) := by
  have fails : split sep s = none ↔ LeftOpen s := by
    rw [split, splitFrom_eq_none_iff, leftOpen_iff]
  refine ⟨fails, fun closed => ?_⟩
  obtain ⟨parts, found⟩ := Option.ne_none_iff_exists'.1 (mt fails.1 closed)
  obtain ⟨first, others, rfl⟩ := List.exists_cons_of_ne_nil (ne_nil_of_splitFrom found)
  obtain ⟨scan, are, joined⟩ := scan_of_splitFrom hsep found
  refine ⟨first :: others, found, joined, fun part mem => ?_⟩
  have isPart : IsPart sep part := by
    rcases List.mem_cons.1 mem with rfl | other
    · exact scan
    · exact are part other
  refine ⟨isPart.closed, isPart.split, ?_⟩
  rintro before after rfl
  exact isPart.not_closed

end Quoted

namespace Choices

open Quoted

/-- Separators outside quotes and inside, a hidden quote, and a backslash that hides nothing. -/
def members : String :=
  "é;\"a;\\\";b\";;`\\`"

/-- The quote at the end is hidden. -/
def unfinished : String :=
  "é;\"a;\\\""

def parts : List (List Char) :=
  ["é", "\"a;\\\";b\"", "", "`\\`"].map String.toList

theorem split_lossless_members :
    isQuote ';' = false ∧ ¬ LeftOpen members.toList ∧
    split ';' members.toList = some parts ∧ [';'].intercalate parts = members.toList ∧
    (∀ part ∈ parts, Closed part ∧ split ';' part = some [part] ∧
      ∀ before after, part = before ++ ';' :: after → ¬ Closed before) ∧
    LeftOpen unfinished.toList := by
  have hsep : isQuote ';' = false := by decide
  have found : split ';' members.toList = some parts := by decide +kernel
  have failed : split ';' unfinished.toList = none := by decide +kernel
  have closed : ¬ LeftOpen members.toList := by
    rw [← (split_lossless hsep members.toList).1, found]
    exact nofun
  obtain ⟨parts', found', joined, alone⟩ := (split_lossless hsep members.toList).2 closed
  obtain rfl : parts = parts' := Option.some.inj (found.symm.trans found')
  exact ⟨hsep, closed, found, joined, alone, (split_lossless hsep unfinished.toList).1.1 failed⟩

end Choices
end ApiConventions
