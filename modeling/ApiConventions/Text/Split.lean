/-!
# ApiConventions.Text.Split

Cutting a text at a character: at every occurrence (`splitOn`), or at the first one
(`cutAt?`). Neither keeps the separator.
-/

namespace ApiConventions
namespace Text

/-- The parts between the occurrences of `sep`; there is always at least one. -/
def splitOn (sep : Char) : List Char → List (List Char)
  | [] => [[]]
  | c :: rest =>
    match splitOn sep rest with
    | [] => [[c]]
    | part :: parts => if c = sep then [] :: part :: parts else (c :: part) :: parts

/-- What stands before and after the first `sep`. -/
def cutAt? (sep : Char) : List Char → Option (List Char × List Char)
  | [] => none
  | c :: rest =>
    if c = sep then some ([], rest) else (cutAt? sep rest).map fun (a, b) => (c :: a, b)

/-- `splitOn` for strings. -/
def fieldsOf (sep : Char) (s : String) : List String :=
  (splitOn sep s.toList).map String.ofList

end Text
end ApiConventions
