import ApiConventions.Analysis
import ApiConventions.FileSystem
import ApiConventions.Model.Decode
import ApiConventions.Pattern.Gitignore
import ApiConventions.Report.PathOrder

/-!
# ApiConventions.Discovery

Finding the packages of an analysis: the files with the extension `json` under a directory, in
the order of their paths. Ignore files and globs leave some of them out. A glob is tried both on
the whole path and on the path from the directory.
-/

namespace ApiConventions

/-- Which files an analysis looks at. -/
structure FileFilter where
  /-- Files that match one of these are left out. -/
  exclude : List Glob
  /-- Files that match none of these are left out, if there are any. -/
  included : List Glob

namespace FileFilter

/-- Reads the globs of a filter; fails if one of them is malformed. -/
def parse? (exclude included : List String) : Option FileFilter :=
  match exclude.mapM Glob.parse?, included.mapM Glob.parse? with
  | some exclude, some included => some { exclude, included }
  | _, _ => none

/-- The filter of a configuration, with further globs in front. -/
def ofConfig? (config : Config) (exclude included : List String) : Option FileFilter :=
  parse? (exclude ++ config.analyzer.exclude) (included ++ config.analyzer.included)

/-- Whether a file stays, given its path and its path from the directory that is analysed. -/
def admits (f : FileFilter) (path relative : String) : Bool :=
  let hits (globs : List Glob) : Bool := globs.any fun g => g.isMatch path || g.isMatch relative
  !hits f.exclude && (f.included.isEmpty || hits f.included)

end FileFilter

namespace FileSystem

/-- Ignore files, from the strongest to the weakest, by their names in a directory. -/
def ignoreFiles : List (List String) :=
  [[".ignore"], [".gitignore"], [".git", "info", "exclude"]]

/-- What the nearest ignore file of one kind that decides says about a place. -/
def verdict? (fs : FileSystem) (place : Place) (isDirectory : Bool) (ignoreFile : List String) :
    Option IgnoreVerdict :=
  (List.range place.length).reverse.findSome? fun depth =>
    (fs.text? (place.take depth ++ ignoreFile)).bind fun text =>
      (IgnoreFile.parse text).verdict? (Path.ofNames (place.drop depth)) isDirectory

def isIgnored (fs : FileSystem) (place : Place) (isDirectory : Bool) : Bool :=
  ignoreFiles.findSome? (fs.verdict? place isDirectory) == some .ignored

/-- Whether the file that `names` lead to from `root`, or a directory on the way, is ignored. -/
def isPruned (fs : FileSystem) (root : Place) (names : List String) : Bool :=
  (List.range names.length).any fun depth =>
    fs.isIgnored (root ++ names.take (depth + 1)) (depth + 1 < names.length)

end FileSystem

/-- A file that is to be analysed. -/
structure PackageDump where
  path : String
  /-- Its name in its directory. -/
  name : String
  text : Option String
deriving Repr

namespace PackageDump

/-- Whether a file name has the extension `json`; the extension alone is no name. -/
def isDumpName (name : String) : Bool :=
  ".json".toList.isSuffixOf name.toList && name != ".json"

/-- The dump that `names` lead to from the directory at `root`. -/
def of (rootPath : String) (root : Place) (names : List String) (text : Option String) :
    PackageDump :=
  { path := if names.isEmpty then rootPath else Path.join rootPath (Path.ofNames names)
    name := ((root ++ names).getLast?).getD ""
    text }

/-- The dumps at a path and below it, in the order of their paths; none if there is no such path. -/
def discover? (fs : FileSystem) (rootPath : String) (filter : FileFilter)
    (respectIgnoreFiles : Bool) : Option (List PackageDump) :=
  let rootPath := Path.join fs.workingPath rootPath
  match fs.locate? rootPath with
  | none => none
  | some root =>
    if !fs.isFile root && !fs.isDirectory root then none
    else
      let found := (fs.filesBelow root).filterMap fun (names, text) =>
        let dump := PackageDump.of rootPath root names text
        if isDumpName dump.name && filter.admits dump.path (Path.ofNames names) &&
            !(respectIgnoreFiles && fs.isPruned root names) then some dump
        else none
      some (found.mergeSort fun a b => Path.le a.path b.path)

end PackageDump

/-- Why the analysis of a directory fails. -/
inductive AnalysisError where
  /-- There is nothing at the path. -/
  | noSuchPath
  /-- A file has no text. -/
  | unreadable (name : String)
  /-- A file is no package, and that counts. -/
  | undecodable (name : String)
deriving DecidableEq, Repr

/-- The packages of dumps, where one that is no package is skipped unless `strict`. -/
def PackageDump.packages (strict : Bool) : List PackageDump → Except AnalysisError (List Package)
  | [] => .ok []
  | dump :: rest =>
    match dump.text with
    | none => .error (.unreadable dump.name)
    | some text =>
      match Package.read? text, packages strict rest with
      | some package, .ok packages => .ok (package :: packages)
      | some _, .error e => .error e
      | none, others => if strict then .error (.undecodable dump.name) else others

/-- The report on the packages at a path and below it. -/
def Analysis.runDirectory (a : Analysis) (fs : FileSystem) (path : String) (filter : FileFilter)
    (strict : Bool) : Except AnalysisError Report :=
  match PackageDump.discover? fs path filter a.config.analyzer.respectGitignore with
  | none => .error .noSuchPath
  | some dumps => (PackageDump.packages strict dumps).map fun packages => a.run ⟨packages⟩

end ApiConventions
