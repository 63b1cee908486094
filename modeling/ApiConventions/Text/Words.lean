import ApiConventions.Text.LetterCase

/-!
# ApiConventions.Text.Words

The camel-case words of a name. A word starts at an upper case character whose predecessor is
not upper case, or whose successor is lower case: `IDReference` is `ID`, `Reference`, and a run
of capitals at the end of a name stays together.
-/

namespace ApiConventions
namespace Text

/-- Whether a new word starts at `current`, given its neighbours. -/
def startsWord (previous current : Char) (next : Option Char) : Bool :=
  isUpper current && (!isUpper previous || next.any isLower)

/-- The words of `previous :: rest`, the first of which starts with `previous`. -/
def wordsFrom (previous : Char) : List Char → List (List Char)
  | [] => [[previous]]
  | current :: rest =>
    match wordsFrom current rest with
    | [] => [[previous]]
    | word :: words =>
      if startsWord previous current rest.head? then [previous] :: word :: words
      else (previous :: word) :: words

def wordsOf : List Char → List (List Char)
  | [] => []
  | first :: rest => wordsFrom first rest

/-- The camel-case words of a name, in order. -/
def words (name : String) : List String :=
  (wordsOf name.toList).map String.ofList

end Text
end ApiConventions
