import ApiConventions.Pattern.Regex

/-!
# ApiConventions.Pattern.Glob

Globs that select files by their paths. `?` stands for one character and `*` for any number of
them, a slash included. A bracket stands for one of its characters, or after `[!` for any other.
`**` stands for any number of whole directories; it has to be a whole component.

A glob is a notation for a regular expression that the whole path has to match.
-/

namespace ApiConventions

structure Glob where
  source : String
  regex : Regex
deriving DecidableEq, Repr

namespace Glob

/-- Any number of characters. -/
def anyText : Regex := .star Regex.anything

/-- Any number of whole directories, or everything up to the end of the path. -/
def directories : Regex :=
  .alt .epsilon (.seq anyText (.alt (Regex.char '/') .textEnd))

/-- The members of a bracket: ranges such as `a-z`, and single characters. -/
def ranges : List Char → List (Char × Char)
  | lo :: '-' :: hi :: rest => (lo, hi) :: ranges rest
  | c :: rest => (c, c) :: ranges rest
  | [] => []

/-- The members of a bracket up to its end. The first one may be a closing bracket. -/
def members? : List Char → Option (List Char × List Char)
  | [] => none
  | first :: rest =>
    match rest.span (· != ']') with
    | (more, ']' :: rest) => some (first :: more, rest)
    | _ => none

/-- A bracket whose opening has been read. -/
def bracket? (s : List Char) : Option (Regex × List Char) :=
  let (negated, s) :=
    match s with
    | '!' :: rest => (true, rest)
    | _ => (false, s)
  (members? s).map fun (members, rest) => (.set negated (ranges members), rest)

/--
The expression for a glob, of which every step reads a character. `opens` says that a component
starts here.
-/
def read? : Nat → Bool → List Char → Option Regex
  | 0, _, _ => none
  | fuel + 1, opens, s =>
    match s with
    | [] => some .epsilon
    | '?' :: rest => (read? fuel false rest).map (.seq Regex.anything ·)
    | '*' :: '*' :: rest =>
      match opens, rest with
      | true, [] => some directories
      | true, '/' :: rest => (read? fuel true rest).map (.seq directories ·)
      | _, _ => none
    | '*' :: rest => (read? fuel false rest).map (.seq anyText ·)
    | '[' :: rest =>
      (bracket? rest).bind fun (set, rest) => (read? fuel false rest).map (.seq set ·)
    | c :: rest => (read? fuel (c == '/') rest).map (.seq (Regex.char c) ·)

def parse? (source : String) : Option Glob :=
  (read? (source.length + 1) true source.toList).map fun regex => { source, regex }

def isMatch (g : Glob) (path : String) : Bool :=
  g.regex.matchesAll path.toList

end Glob
end ApiConventions
