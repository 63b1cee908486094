import Mathlib.Data.List.Basic
import ApiConventions.Marker.Registry
import ApiConventions.Proofs.Text.Trim

/-!
# ApiConventions.Proofs.Marker.Registry

What the reading of a marker depends on. Of the registered identifiers only those matter that
stand at the start of the marker with a colon behind them, and of these the longest one is taken;
so neither the order of registration nor an identifier that does not fit changes anything. The
text that a marker keeps is read as the same marker again.
-/

namespace ApiConventions

namespace Comment

variable {s : List Char} {q : Char}

/-- A line comment is what stands behind the slashes, unless its end can close a comment. -/
theorem text_slashes (h : Text.IsTrimmed s) (last : s.getLast? = some q) (solid : q ≠ '/') :
    text ('/' :: '/' :: ' ' :: s) = s := by
  obtain ⟨init, rfl⟩ := List.getLast?_eq_some_iff.1 last
  have line : Text.IsTrimmed ('/' :: '/' :: ' ' :: (init ++ [q])) :=
    Text.isTrimmed_between (by decide) (h.last q last) ('/' :: ' ' :: init)
  have unclosed : body ('/' :: '/' :: ' ' :: (init ++ [q])) = ' ' :: (init ++ [q]) := by
    have kept : dropClosings (q :: (init.reverse ++ [' '])) = q :: (init.reverse ++ [' ']) := by
      simp [dropClosings, solid]
    simp [body, kept]
  have indented : Text.trim (' ' :: (init ++ [q])) = Text.trim (init ++ [q]) := rfl
  rw [text, line.trim_eq, unclosed, indented, h.trim_eq]

theorem text_plus (h : Text.IsTrimmed s) : text ('+' :: s) = '+' :: s := by
  have plus : Text.IsTrimmed ('+' :: s) := h.cons (by decide)
  have undelimited : body ('+' :: s) = '+' :: s := by simp [body]
  rw [text, plus.trim_eq, undelimited, plus.trim_eq]

end Comment

namespace Registry

variable {r r' : Registry} {ids ids' : List String} {id other line : String}
  {body args : List Char} {found found' : Option String} {m : Marker}

/-! ## The identifiers that fit a marker -/

/-- The marker starts with the identifier and a colon. -/
def Fits (id : String) (body : List Char) : Prop :=
  ∃ args, body = id.toList ++ ':' :: args

/-- No registered identifier that fits the marker is longer. -/
structure IsLongest (ids : List String) (body : List Char) (id : String) : Prop where
  mem : id ∈ ids
  fits : Fits id body
  length_le : ∀ other ∈ ids, Fits other body → other.length ≤ id.length

/-- The longest identifier that fits, or none where none fits. -/
def Picks (ids : List String) (body : List Char) : Option String → Prop
  | some id => IsLongest ids body id
  | none => ∀ id ∈ ids, ¬ Fits id body

theorem arguments?_eq_some_iff {start : List Char} :
    arguments? start body = some args ↔ body = start ++ ':' :: args := by
  rw [arguments?]
  constructor
  · intro h
    split at h
    · rename_i rest hrest
      cases h
      exact (List.isPrefixOf?_eq_some_iff_append_eq.1 hrest).symm
    · cases h
  · intro h
    have rest : start.isPrefixOf? body = some (':' :: args) :=
      List.isPrefixOf?_eq_some_iff_append_eq.2 h.symm
    simp only [rest]

theorem fits_iff : Fits id body ↔ ∃ args, arguments? id.toList body = some args := by
  simp only [arguments?_eq_some_iff]
  rfl

theorem not_fits_iff : ¬ Fits id body ↔ arguments? id.toList body = none := by
  rw [fits_iff, Option.eq_none_iff_forall_ne_some, not_exists]

/-- Two identifiers of one length that fit a marker are the same characters. -/
theorem Fits.eq_of_length (h : Fits id body) (h' : Fits other body)
    (same : id.length = other.length) : id = other := by
  obtain ⟨args, rfl⟩ := h
  obtain ⟨args', hargs⟩ := h'
  have chars : id.toList.length = other.toList.length := by
    rw [String.length_toList, String.length_toList, same]
  exact String.toList_inj.1 (List.append_inj_left hargs chars)

theorem Picks.unique (h : Picks ids body found) (h' : Picks ids body found') : found = found' := by
  cases found with
  | none =>
    cases found' with
    | none => rfl
    | some id => exact absurd h'.fits (h id h'.mem)
  | some id =>
    cases found' with
    | none => exact absurd h.fits (h' id h.mem)
    | some other =>
      have le := h'.length_le id h.mem h.fits
      have ge := h.length_le other h'.mem h'.fits
      rw [h.fits.eq_of_length h'.fits (Nat.le_antisymm le ge)]

/-- Identifiers that do not fit play no part. -/
theorem Picks.congr (same : ∀ id, Fits id body → (id ∈ ids ↔ id ∈ ids'))
    (h : Picks ids body found) : Picks ids' body found := by
  cases found with
  | none => exact fun id mem fits => h id ((same id fits).2 mem) fits
  | some id =>
    have longest : IsLongest ids body id := h
    exact ⟨(same id longest.fits).1 longest.mem, longest.fits,
      fun other mem fits => longest.length_le other ((same other fits).2 mem) fits⟩

theorem picks_longest? (ids : List String) (body : List Char) :
    Picks ids body (longest? body ids) := by
  induction ids with
  | nil => exact fun id mem => absurd mem List.not_mem_nil
  | cons id ids ih =>
    rw [longest?]
    cases hargs : arguments? id.toList body with
    | none =>
      -- An identifier that does not fit leaves the choice among the others as it is.
      refine ih.congr fun other fits => ?_
      have different : other ≠ id := by
        rintro rfl
        exact not_fits_iff.2 hargs fits
      simp [different]
    | some args =>
      have fits : Fits id body := fits_iff.2 ⟨args, hargs⟩
      cases hlongest : longest? body ids with
      | none =>
        rw [hlongest] at ih
        refine ⟨List.mem_cons_self, fits, fun other mem hother => ?_⟩
        rcases List.mem_cons.1 mem with rfl | mem
        · exact Nat.le_refl _
        · exact absurd hother (ih other mem)
      | some best =>
        rw [hlongest] at ih
        have best_longest : IsLongest ids body best := ih
        dsimp only
        split
        · rename_i shorter
          refine ⟨List.mem_cons_self, fits, fun other mem hother => ?_⟩
          rcases List.mem_cons.1 mem with rfl | mem
          · exact Nat.le_refl _
          · exact Nat.le_trans (best_longest.length_le other mem hother) (Nat.le_of_lt shorter)
        · rename_i longer
          refine ⟨List.mem_cons_of_mem id best_longest.mem, best_longest.fits,
            fun other mem hother => ?_⟩
          rcases List.mem_cons.1 mem with rfl | mem
          · exact Nat.le_of_not_lt longer
          · exact best_longest.length_le other mem hother

/-! ## Markers -/

/-- What follows `+` in the text of a comment line. -/
def markerText? (line : String) : Option (List Char) :=
  match Comment.text line.toList with
  | '+' :: rest => some (Text.trim rest)
  | _ => none

/-- A text after `+` is no marker when it is empty or starts with a sign. -/
def IsOpen (body : List Char) : Prop :=
  ∃ c rest, body = c :: rest ∧ c ≠ '-' ∧ c ≠ '+'

/-- What a text is read as where the identifiers `ids` are registered. -/
inductive Reads (ids : List String) (body : List Char) : Option Marker → Prop where
  | expression {id : String} {args : List Char} (longest : IsLongest ids body id)
      (split : body = id.toList ++ ':' :: args) :
      Reads ids body (some
        { identifier := id
          value := some (String.ofList args)
          expressions := argumentList args
          raw := String.ofList body })
  | plain (none : ∀ id ∈ ids, ¬ Fits id body) : Reads ids body (plainMarker? body)

theorem parseLine?_eq (r : Registry) (line : String) :
    r.parseLine? line = (markerText? line).bind r.markerOfBody? := by
  rw [parseLine?, markerText?]
  generalize Comment.text line.toList = text
  cases text with
  | nil => rfl
  | cons c rest =>
    by_cases plus : c = '+'
    · rw [plus]
      rfl
    · simp [plus]

theorem markerOfBody?_of_open (h : IsOpen body) :
    r.markerOfBody? body = (r.expressionMarker? body).or (plainMarker? body) := by
  obtain ⟨c, rest, rfl, minus, plus⟩ := h
  rw [markerOfBody?]
  simp [minus, plus]

theorem isOpen_of_markerOfBody? (h : r.markerOfBody? body = some m) : IsOpen body := by
  cases body with
  | nil => cases h
  | cons c rest =>
    rw [markerOfBody?] at h
    split at h
    · cases h
    · rename_i sign
      exact ⟨c, rest, rfl, by simpa using sign⟩

theorem markerOfBody?_of_longest (h : IsOpen body) (longest : IsLongest r.identifiers body id)
    (split : body = id.toList ++ ':' :: args) :
    r.markerOfBody? body = some
      { identifier := id
        value := some (String.ofList args)
        expressions := argumentList args
        raw := String.ofList body } := by
  have picked : longest? body r.identifiers = some id :=
    (picks_longest? r.identifiers body).unique longest
  rw [markerOfBody?_of_open h, expressionMarker?, picked]
  dsimp only
  rw [arguments?_eq_some_iff.2 split]
  rfl

theorem reads_markerOfBody? (h : IsOpen body) (same : ∀ id, id ∈ r.identifiers ↔ id ∈ ids) :
    Reads ids body (r.markerOfBody? body) := by
  have picked := picks_longest? r.identifiers body
  cases hlongest : longest? body r.identifiers with
  | none =>
    rw [hlongest] at picked
    have unfit : ∀ id ∈ ids, ¬ Fits id body := fun id mem => picked id ((same id).2 mem)
    rw [markerOfBody?_of_open h, expressionMarker?, hlongest]
    exact .plain unfit
  | some id =>
    rw [hlongest] at picked
    have longest : IsLongest ids body id := picked.congr fun id _ => same id
    obtain ⟨args, split⟩ := longest.fits
    rw [markerOfBody?_of_longest h picked split]
    exact .expression longest split

/-- Registries that agree on the identifiers that fit read a text alike. -/
theorem markerOfBody?_congr
    (same : ∀ id, Fits id body → (id ∈ r.identifiers ↔ id ∈ r'.identifiers)) :
    r.markerOfBody? body = r'.markerOfBody? body := by
  have longest : longest? body r.identifiers = longest? body r'.identifiers :=
    ((picks_longest? r.identifiers body).congr same).unique (picks_longest? r'.identifiers body)
  have expression : r.expressionMarker? body = r'.expressionMarker? body := by
    rw [expressionMarker?, expressionMarker?, longest]
  cases body with
  | nil => rfl
  | cons c rest => rw [markerOfBody?, markerOfBody?, expression]

theorem raw_of_plainMarker? (h : plainMarker? body = some m) : m.raw = String.ofList body := by
  rw [plainMarker?] at h
  split at h
  split at h
  · cases h
  · cases h
    rfl

theorem Reads.raw_eq (h : Reads ids body (some m)) : m.raw = String.ofList body := by
  generalize hfound : some m = found at h
  cases h with
  | expression longest split =>
    cases hfound
    rfl
  | plain none => exact raw_of_plainMarker? hfound.symm

theorem isTrimmed_of_markerText? (h : markerText? line = some body) : Text.IsTrimmed body := by
  rw [markerText?] at h
  split at h
  · cases h
    exact Text.isTrimmed_trim _
  · cases h

theorem markerText?_plus (h : Text.IsTrimmed body) :
    markerText? ("+" ++ String.ofList body) = some body := by
  have text : Comment.text ("+" ++ String.ofList body).toList = '+' :: body := by
    have chars : ("+" ++ String.ofList body).toList = '+' :: body := by simp
    rw [chars, Comment.text_plus h]
  rw [markerText?, text]
  exact congrArg some h.trim_eq

/-- A line comment that ends with `/` may lose its end. -/
theorem markerText?_slashes {q : Char} (h : Text.IsTrimmed body) (last : body.getLast? = some q)
    (solid : q ≠ '/') : markerText? ("// +" ++ String.ofList body) = some body := by
  have chars : ("// +" ++ String.ofList body).toList = '/' :: '/' :: ' ' :: '+' :: body := by simp
  have ends : ('+' :: body).getLast? = some q := by rw [List.getLast?_cons, last, Option.getD_some]
  have text := Comment.text_slashes (h.cons (by decide)) ends solid
  rw [markerText?, chars, text]
  exact congrArg some h.trim_eq

/-! ## Lines -/

theorem parseLine?_congr (same : ∀ id, id ∈ r.identifiers ↔ id ∈ r'.identifiers) (line : String) :
    r.parseLine? line = r'.parseLine? line := by
  rw [parseLine?_eq, parseLine?_eq]
  congr 1
  funext body
  exact markerOfBody?_congr fun id _ => same id

/-- The text that a marker keeps has no blank at its ends, so that it is found again. -/
theorem parseLine?_raw (h : r.parseLine? line = some m) :
    r.parseLine? ("+" ++ m.raw) = some m := by
  rw [parseLine?_eq, Option.bind_eq_some_iff] at h
  obtain ⟨body, hbody, hm⟩ := h
  have reads : Reads r.identifiers body (r.markerOfBody? body) :=
    reads_markerOfBody? (isOpen_of_markerOfBody? hm) fun _ => Iff.rfl
  rw [hm] at reads
  rw [parseLine?_eq, reads.raw_eq, markerText?_plus (isTrimmed_of_markerText? hbody)]
  exact hm

/-! ## Registration -/

theorem mem_register :
    other ∈ (r.register id).identifiers ↔ other ∈ r.identifiers ∨ other = id := by
  rw [register]
  split
  · rename_i known
    have known : id ∈ r.identifiers := List.contains_iff_mem.1 known
    constructor
    · exact .inl
    · rintro (mem | rfl)
      · exact mem
      · exact known
  · simp

theorem mem_registerAll :
    other ∈ (r.registerAll ids).identifiers ↔ other ∈ r.identifiers ∨ other ∈ ids := by
  induction ids generalizing r with
  | nil => simp [registerAll]
  | cons id ids ih =>
    have step : r.registerAll (id :: ids) = (r.register id).registerAll ids := rfl
    rw [step, ih, mem_register, List.mem_cons, or_assoc]

theorem mem_registered : other ∈ (empty.registerAll ids).identifiers ↔ other ∈ ids := by
  rw [mem_registerAll]
  simp [empty]

/-- An identifier that does not fit the marker of a line changes nothing. -/
theorem fits_of_register_ne (changed : (r.register id).parseLine? line ≠ r.parseLine? line) :
    ∃ body, markerText? line = some body ∧ Fits id body := by
  rw [parseLine?_eq, parseLine?_eq] at changed
  cases hbody : markerText? line with
  | none => simp [hbody] at changed
  | some body =>
    refine ⟨body, rfl, ?_⟩
    by_contra unfit
    rw [hbody] at changed
    refine changed (markerOfBody?_congr fun other fits => ?_)
    have different : other ≠ id := by
      rintro rfl
      exact unfit fits
    simp [mem_register, different]

/--
A line is read as the set of the registered identifiers says: by the longest of those that fit
its marker. One more identifier changes nothing unless it fits, and the text of a marker is read
as that marker again.
-/
theorem reads_registered (ids : List String) (line : String) :
    (∀ ids', (∀ id, id ∈ ids' ↔ id ∈ ids) →
      (empty.registerAll ids').parseLine? line = (empty.registerAll ids).parseLine? line) ∧
    (∀ body, markerText? line = some body → IsOpen body →
      Reads ids body ((empty.registerAll ids).parseLine? line)) ∧
    (∀ id, ((empty.registerAll ids).register id).parseLine? line ≠
        (empty.registerAll ids).parseLine? line →
      ∃ body, markerText? line = some body ∧ Fits id body) ∧
    (∀ m, (empty.registerAll ids).parseLine? line = some m →
      (empty.registerAll ids).parseLine? ("+" ++ m.raw) = some m) := by
  refine ⟨fun ids' same => ?order, fun body hbody isOpen => ?choice, fun id => ?further,
    fun m => ?again⟩
  case order =>
    refine parseLine?_congr (fun id => ?_) line
    rw [mem_registered, mem_registered, same]
  case choice =>
    rw [parseLine?_eq, hbody]
    exact reads_markerOfBody? isOpen fun id => mem_registered
  case further => exact fits_of_register_ne
  case again => exact parseLine?_raw

end Registry

namespace Columns

open Registry

def line : String := "// +printcolumn:wide:name=\"Age\""

def column : Marker where
  identifier := "printcolumn"
  value := some "wide:name=\"Age\""
  expressions := [("wide:name", "Age")]
  raw := "printcolumn:wide:name=\"Age\""

/-- The marker changes when the longer identifier is registered too, and not otherwise. -/
theorem reads_registered_column :
    (empty.registerAll ["sorted", "printcolumn", "sorted"]).parseLine? line = some column ∧
    Reads ["printcolumn", "sorted"] column.raw.toList (some column) ∧
    ((empty.registerAll ["printcolumn", "sorted"]).register "printcolumn:wide").parseLine? line ≠
      some column ∧
    (∃ body, markerText? line = some body ∧ Fits "printcolumn:wide" body) ∧
    (empty.registerAll ["printcolumn", "sorted"]).parseLine? ("+" ++ column.raw) = some column := by
  have parsed : (empty.registerAll ["printcolumn", "sorted"]).parseLine? line = some column := by
    decide +kernel
  have text : markerText? line = some column.raw.toList := by decide +kernel
  have isOpen : IsOpen column.raw.toList := ⟨_, _, rfl, by decide, by decide⟩
  have changed : ((empty.registerAll ["printcolumn", "sorted"]).register
      "printcolumn:wide").parseLine? line ≠ some column := by decide +kernel
  obtain ⟨order, choice, further, again⟩ :=
    reads_registered ["printcolumn", "sorted"] line
  rw [parsed] at order choice further
  refine ⟨order _ fun id => ?_, choice _ text isOpen, changed, further _ changed, again _ parsed⟩
  simp only [List.mem_cons, List.not_mem_nil, or_false]
  tauto

end Columns
end ApiConventions
