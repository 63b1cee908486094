import ApiConventions.Text.Split

/-!
# ApiConventions.FileSystem

A picture of the files that a run can see, and of those it writes. A file or directory has a
place, the names on the way to it from the root directory. A directory exists when it is on the
way to a file, to the working directory, or to a directory that is listed by itself.
-/

namespace ApiConventions

/-- The names on the way from the root directory. -/
abbrev Place := List String

namespace Path

def isAbsolute (path : String) : Bool :=
  path.toList.head? == some '/'

/-- A path that starts from another one, unless it starts from the root directory. -/
def join (base path : String) : String :=
  if isAbsolute path || base.isEmpty then path
  else if base.toList.getLast? = some '/' then base ++ path
  else base ++ "/" ++ path

/-- The path of a list of names. -/
def ofNames (names : List String) : String :=
  String.intercalate "/" names

end Path

structure FileSystem where
  workingDirectory : Place
  /-- Every file with its text, and without one when its bytes are no text. -/
  files : List (Place × Option String)
  /-- Directories that may be empty. -/
  directories : List Place := []
deriving Repr

namespace FileSystem

/-- The absolute path of the working directory. -/
def workingPath (fs : FileSystem) : String :=
  "/" ++ Path.ofNames fs.workingDirectory

def isFile (fs : FileSystem) (place : Place) : Bool :=
  fs.files.any (·.1 == place)

def isDirectory (fs : FileSystem) (place : Place) : Bool :=
  (fs.workingDirectory :: fs.directories).any place.isPrefixOf ||
    fs.files.any fun (p, _) => place.isPrefixOf p && place != p

/-- The text of a file, if there is such a file and it has one. -/
def text? (fs : FileSystem) (place : Place) : Option String :=
  (fs.files.lookup place).join

/-- Follows names from a place. Only a directory can be gone through. -/
def follow? (fs : FileSystem) (start : Place) : List String → Option Place
  | [] => some start
  | name :: rest =>
    if !fs.isDirectory start then none
    else if name = "" || name = "." then fs.follow? start rest
    else if name = ".." then fs.follow? start.dropLast rest
    else fs.follow? (start ++ [name]) rest

/-- The place a path leads to, whether there is something or not. -/
def locate? (fs : FileSystem) (path : String) : Option Place :=
  let start := if Path.isAbsolute path then [] else fs.workingDirectory
  if path.isEmpty then none else fs.follow? start (Text.fieldsOf '/' path)

def hasFile (fs : FileSystem) (path : String) : Bool :=
  (fs.locate? path).any fs.isFile

/-- The text of the file at a path. -/
def read? (fs : FileSystem) (path : String) : Option String :=
  (fs.locate? path).bind fs.text?

/-- Puts a file in place of whatever file was there. -/
def write (fs : FileSystem) (place : Place) (text : String) : FileSystem :=
  { fs with files := fs.files.filter (·.1 != place) ++ [(place, some text)] }

/-- The files at a place and below it, each with the names that lead from there to it. -/
def filesBelow (fs : FileSystem) (place : Place) : List (List String × Option String) :=
  fs.files.filterMap fun (p, text) => (place.isPrefixOf? p).map (·, text)

end FileSystem
end ApiConventions
