/-!
# ApiConventions.Pattern.Regex

Regular expressions, matched by partial derivatives: the derivative of an expression by a
character is the list of expressions for what may follow that character. A match is looked for
anywhere in the text; `^` and `$` stand for its two ends. What is read here are characters and
classes of them, groups, alternatives and the repetitions `*`, `+` and `?`.
-/

namespace ApiConventions

inductive Regex where
  | epsilon
  /-- A character in one of the ranges, or in none of them when negated. -/
  | set (negated : Bool) (ranges : List (Char × Char))
  | seq (first second : Regex)
  | alt (first second : Regex)
  | star (body : Regex)
  | textStart
  | textEnd
deriving DecidableEq, Repr

namespace Regex

def char (c : Char) : Regex := .set false [(c, c)]

/-- Any character at all. -/
def anything : Regex := .set true []

/-- A sequence, where an empty first part is dropped. -/
def join (first second : Regex) : Regex :=
  if first = .epsilon then second else .seq first second

/-- Whether the empty text matches, at the start or the end of the whole text or not. -/
def isNullable (atStart atEnd : Bool) : Regex → Bool
  | .epsilon => true
  | .set _ _ => false
  | .seq a b => a.isNullable atStart atEnd && b.isNullable atStart atEnd
  | .alt a b => a.isNullable atStart atEnd || b.isNullable atStart atEnd
  | .star _ => true
  | .textStart => atStart
  | .textEnd => atEnd

def inSet (negated : Bool) (ranges : List (Char × Char)) (c : Char) : Bool :=
  (ranges.any fun (lo, hi) => lo ≤ c && c ≤ hi) != negated

/-- What may follow once `c` has been read. -/
def derive (atStart : Bool) (c : Char) : Regex → List Regex
  | .epsilon => []
  | .set negated ranges => if inSet negated ranges c then [.epsilon] else []
  | .seq a b =>
    (a.derive atStart c).map (join · b) ++
      (if a.isNullable atStart false then b.derive atStart c else [])
  | .alt a b => a.derive atStart c ++ b.derive atStart c
  | .star a => (a.derive atStart c).map (join · (.star a))
  | .textStart => []
  | .textEnd => []

/-- Whether one of the expressions matches the rest of the text. -/
def anyMatches (atStart : Bool) : List Regex → List Char → Bool
  | states, [] => states.any (·.isNullable atStart true)
  | states, c :: rest => anyMatches false (states.flatMap (derive atStart c)).eraseDups rest

/-- Whether the whole text matches. -/
def matchesAll (r : Regex) (text : List Char) : Bool :=
  anyMatches true [r] text

/-- Whether some part of the text matches. -/
def isMatch (r : Regex) (text : String) : Bool :=
  matchesAll (.seq (.star anything) (.seq r (.star anything))) text.toList

/-! ## Notation -/

/-- Characters that an escape may stand in front of, to be taken literally. -/
def isEscapable (c : Char) : Bool :=
  "\\.+*?()|[]\x7b\x7d^$#&-~/".toList.contains c

/-- The character an escape stands for. -/
def escaped? (c : Char) : Option Char :=
  if isEscapable c then some c
  else
    match c with
    | 'n' => some '\n'
    | 't' => some '\t'
    | 'r' => some '\r'
    | _ => none

/-- One character of a class. -/
def classChar? : List Char → Option (Char × List Char)
  | '\\' :: c :: rest => (escaped? c).map (·, rest)
  | '\\' :: [] => none
  | '[' :: _ => none
  | c :: rest => some (c, rest)
  | [] => none

/-- The ranges of a class up to its closing bracket. -/
def classRanges? : Nat → List Char → Option (List (Char × Char) × List Char)
  | 0, _ => none
  | _, ']' :: rest => some ([], rest)
  | fuel + 1, s =>
    match classChar? s with
    | none => none
    | some (lo, '-' :: rest) =>
      if rest.head? = some ']' then
        (classRanges? fuel rest).map fun (ranges, rest) => ((lo, lo) :: ('-', '-') :: ranges, rest)
      else
        match classChar? rest with
        | none => none
        | some (hi, rest) =>
          if hi < lo then none
          else (classRanges? fuel rest).map fun (ranges, rest) => ((lo, hi) :: ranges, rest)
    | some (c, rest) =>
      (classRanges? fuel rest).map fun (ranges, rest) => ((c, c) :: ranges, rest)

/-- A class whose opening bracket has been read. A bracket right after that is a member. -/
def class? (fuel : Nat) (s : List Char) : Option (Regex × List Char) :=
  let (negated, s) :=
    match s with
    | '^' :: rest => (true, rest)
    | _ => (false, s)
  match s with
  | ']' :: rest =>
    (classRanges? fuel rest).map fun (ranges, rest) => (.set negated ((']', ']') :: ranges), rest)
  | _ => (classRanges? fuel s).map fun (ranges, rest) => (.set negated ranges, rest)

/-- The repetitions written after an expression, and whether they prefer a short match. -/
def repeated : Nat → Regex → List Char → Regex × List Char
  | 0, r, s => (r, s)
  | fuel + 1, r, s =>
    let lazily (rest : List Char) : List Char :=
      match rest with
      | '?' :: rest => rest
      | _ => rest
    match s with
    | '*' :: rest => repeated fuel (.star r) (lazily rest)
    | '+' :: rest => repeated fuel (.seq r (.star r)) (lazily rest)
    | '?' :: rest => repeated fuel (.alt r .epsilon) (lazily rest)
    | _ => (r, s)

mutual
/-- Alternatives up to a closing parenthesis or the end. -/
def alternatives? : Nat → List Char → Option (Regex × List Char)
  | 0, _ => none
  | fuel + 1, s =>
    match sequence? fuel s with
    | some (r, '|' :: rest) => (alternatives? fuel rest).map fun (q, rest) => (.alt r q, rest)
    | found => found

/-- A sequence up to a bar, a closing parenthesis or the end. -/
def sequence? : Nat → List Char → Option (Regex × List Char)
  | 0, _ => none
  | fuel + 1, s =>
    match s with
    | [] => some (.epsilon, [])
    | c :: _ =>
      if c = ')' || c = '|' then some (.epsilon, s)
      else
        match atom? fuel s with
        | none => none
        | some (r, rest) =>
          let (r, rest) := repeated rest.length r rest
          (sequence? fuel rest).map fun (q, rest) => (.seq r q, rest)

/-- One expression without repetitions. -/
def atom? : Nat → List Char → Option (Regex × List Char)
  | 0, _ => none
  | fuel + 1, s =>
    let group (inner : List Char) : Option (Regex × List Char) :=
      match alternatives? fuel inner with
      | some (r, ')' :: rest) => some (r, rest)
      | _ => none
    match s with
    | '(' :: '?' :: ':' :: rest => group rest
    | '(' :: '?' :: _ => none
    | '(' :: rest => group rest
    | '[' :: rest => class? fuel rest
    | '.' :: rest => some (.set true [('\n', '\n')], rest)
    | '^' :: rest => some (.textStart, rest)
    | '$' :: rest => some (.textEnd, rest)
    | '\\' :: c :: rest => (escaped? c).map fun c => (char c, rest)
    | '\\' :: [] => none
    | c :: rest => if "*+?\x7b".toList.contains c then none else some (char c, rest)
    | [] => none
end

/-- Reads a regular expression. Every call reads a character or is one of three in a row. -/
def parse? (pattern : String) : Option Regex :=
  let s := pattern.toList
  match alternatives? (3 * s.length + 3) s with
  | some (r, []) => some r
  | _ => none

end Regex
end ApiConventions
