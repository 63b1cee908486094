/-!
# ApiConventions.Marker.Quoted

Quotes inside marker values. A separator splits a value only outside quotes, where a quote is a
double quote or a back quote, and a backslash hides the next character only inside double
quotes. `unquote` removes one pair of quotes around a text.
-/

namespace ApiConventions
namespace Quoted

/-- Where a scan stands. -/
inductive State where
  | outside
  | inside (quote : Char)
  /-- After a backslash inside double quotes. -/
  | escaped
deriving DecidableEq, Repr

def isQuote (c : Char) : Bool :=
  c == '"' || c == '`'

/-- The state after one more character. -/
def State.next (state : State) (c : Char) : State :=
  match state with
  | .escaped => .inside '"'
  | .inside q => if q = '"' ∧ c = '\\' then .escaped else if c = q then .outside else .inside q
  | .outside => if isQuote c then .inside c else .outside

/-- The parts of a text between separators outside quotes; `none` when a quote stays open. -/
def splitFrom (sep : Char) : State → List Char → Option (List (List Char))
  | state, [] => if state = .outside then some [[]] else none
  | state, c :: rest =>
    match splitFrom sep (state.next c) rest with
    | some (part :: parts) =>
      if state = .outside ∧ !isQuote c ∧ c = sep then some ([] :: part :: parts)
      else some ((c :: part) :: parts)
    | _ => none

/-- Splits on `sep` outside quotes. -/
def split (sep : Char) (s : List Char) : Option (List (List Char)) :=
  splitFrom sep .outside s

/-- The text between a leading and a trailing `q`, which must be two characters. -/
def between? (q : Char) (s : List Char) : Option (List Char) :=
  match s with
  | c :: rest => if c = q && rest.getLast? == some q then some rest.dropLast else none
  | [] => none

/-- Every backslash in front of a double quote is dropped. -/
def unescape : List Char → List Char
  | '\\' :: '"' :: rest => '"' :: unescape rest
  | c :: rest => c :: unescape rest
  | [] => []

/-- Removes a pair of quotes around the text, double quotes first, and then the escapes. -/
def unquote (s : List Char) : List Char :=
  match (between? '"' s).or (between? '`' s) with
  | some inner => unescape inner
  | none => s

end Quoted
end ApiConventions
