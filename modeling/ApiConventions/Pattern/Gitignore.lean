import ApiConventions.Pattern.Glob
import ApiConventions.Text.Blank
import ApiConventions.Text.Split

/-!
# ApiConventions.Pattern.Gitignore

Ignore files. Every line that is neither blank nor a comment is a rule: a pattern for paths
relative to the directory of the file. After `!` the rule takes paths back in, and with a slash
at the end it is about directories only. A pattern without another slash applies at any depth.

`*` and `?` do not match a slash here, and `**` is any number of directories where it is a whole
component. The last rule that matches a path decides. A line with a malformed pattern is skipped.
-/

namespace ApiConventions

/-- What ignore rules say about a path. -/
inductive IgnoreVerdict where
  | ignored
  | kept
deriving DecidableEq, Repr

structure IgnoreRule where
  regex : Regex
  verdict : IgnoreVerdict
  directoriesOnly : Bool
deriving DecidableEq, Repr

namespace IgnoreRule

def slash : Regex := Regex.char '/'

/-- One character inside a name. -/
def nameChar : Regex := .set true [('/', '/')]

/-- Any number of directories in front of a name. -/
def leadingDirectories : Regex :=
  .alt (.alt slash .epsilon) (.seq Glob.anyText slash)

/-- A slash with any number of directories after it. -/
def innerDirectories : Regex :=
  .seq slash (.alt .epsilon (.seq Glob.anyText slash))

/-- Everything below a directory. -/
def everythingBelow : Regex :=
  .seq slash Glob.anyText

/-- Drops each further `**` component in a row. -/
def skipStars : List Char → List Char
  | '*' :: '*' :: '/' :: rest => skipStars rest
  | s => s

/-- A bracket whose opening has been read. Its ranges have to be in order. -/
def bracket? (s : List Char) : Option (Regex × List Char) :=
  let (negated, s) :=
    match s with
    | '!' :: rest => (true, rest)
    | '^' :: rest => (true, rest)
    | _ => (false, s)
  match Glob.members? s with
  | none => none
  | some (members, rest) =>
    let ranges := Glob.ranges members
    if ranges.all fun (lo, hi) => lo ≤ hi then some (.set negated ranges, rest) else none

/-- The expression for a pattern after its first component mark. Every step reads a character. -/
def read? : Nat → List Char → Option Regex
  | 0, _ => none
  | fuel + 1, s =>
    match s with
    | [] => some .epsilon
    | '/' :: '*' :: '*' :: [] => some everythingBelow
    | '/' :: '*' :: '*' :: '/' :: rest =>
      match skipStars rest with
      | ['*', '*'] => some everythingBelow
      | rest => (read? fuel rest).map (.seq innerDirectories ·)
    | '?' :: rest => (read? fuel rest).map (.seq nameChar ·)
    | '*' :: rest => (read? fuel rest).map (.seq (.star nameChar) ·)
    | '[' :: rest => (bracket? rest).bind fun (set, rest) => (read? fuel rest).map (.seq set ·)
    | '\\' :: c :: rest => (read? fuel rest).map (.seq (Regex.char c) ·)
    | '\\' :: [] => none
    | c :: rest => (read? fuel rest).map (.seq (Regex.char c) ·)

/-- The expression for a whole pattern. -/
def pattern? (s : List Char) : Option Regex :=
  match s with
  | ['*', '*'] => some Glob.anyText
  | '*' :: '*' :: '/' :: rest =>
    match skipStars rest with
    | [] => some Glob.anyText
    | ['*', '*'] => some Glob.anyText
    | rest => (read? (rest.length + 1) rest).map (.seq leadingDirectories ·)
  | _ => read? (s.length + 1) s

/-- A pattern that is not anchored applies at any depth. -/
def atAnyDepth (s : List Char) : List Char :=
  match s with
  | ['*', '*'] => s
  | _ => "**/".toList ++ s

/-- `/**` at the end means what is inside a directory, and not the directory itself. -/
def insideOnly (s : List Char) : List Char :=
  if "/**".toList.isSuffixOf s then s ++ "/*".toList else s

/-- A pattern without the slash that restricts it to directories, and whether it has one. -/
def dropFinalSlash (s : List Char) : List Char × Bool :=
  match s.reverse with
  | '/' :: '\\' :: rest => (rest.reverse, true)
  | '/' :: rest => (rest.reverse, true)
  | _ => (s, false)

/-- The rule of a pattern that may be anchored by a slash in front. -/
def ofPattern? (verdict : IgnoreVerdict) (anchored : Bool) (s : List Char) : Option IgnoreRule :=
  let (s, directoriesOnly) := dropFinalSlash s
  let s := if anchored || s.contains '/' then s else atAnyDepth s
  (pattern? (insideOnly s)).map fun regex => { regex, verdict, directoriesOnly }

/-- The rule after the mark that takes paths back in. -/
def ofMarked? (verdict : IgnoreVerdict) : List Char → Option IgnoreRule
  | '/' :: rest => ofPattern? verdict true rest
  | s => ofPattern? verdict false s

/-- Blanks at the end of a line do not count, unless a backslash keeps one. -/
def stripLine (line : List Char) : List Char :=
  if "\\ ".toList.isSuffixOf line then line else Text.trimEnd line

/-- The rule on a line. -/
def ofLine? (line : List Char) : Option IgnoreRule :=
  if line.head? = some '#' then none
  else
    match stripLine line with
    | [] => none
    | '\\' :: '!' :: rest => ofPattern? .ignored false ('!' :: rest)
    | '\\' :: '#' :: rest => ofPattern? .ignored false ('#' :: rest)
    | '!' :: rest => ofMarked? .kept rest
    | s => ofMarked? .ignored s

/-- Whether the rule matches a path relative to the directory of its file. -/
def matchesPath (r : IgnoreRule) (path : String) (isDirectory : Bool) : Bool :=
  (!r.directoriesOnly || isDirectory) && r.regex.matchesAll path.toList

end IgnoreRule

/-- The rules of an ignore file, in order. -/
structure IgnoreFile where
  rules : List IgnoreRule
deriving DecidableEq, Repr

namespace IgnoreFile

/-- Reads an ignore file. A byte order mark in front of it is skipped. -/
def parse (text : String) : IgnoreFile :=
  let s :=
    match text.toList with
    | '\uFEFF' :: rest => rest
    | s => s
  ⟨(Text.splitOn '\n' s).filterMap IgnoreRule.ofLine?⟩

/-- What the file says about a path relative to its directory. -/
def verdict? (f : IgnoreFile) (path : String) (isDirectory : Bool) : Option IgnoreVerdict :=
  (f.rules.findRev? (·.matchesPath path isDirectory)).map (·.verdict)

end IgnoreFile
end ApiConventions
