import ApiConventions.CommandLine.Run

/-!
# ApiConventions.Main

The program. It takes a picture of the files that an invocation can look at, runs the invocation
on the picture, writes the files that are new in it, and prints.
-/

namespace ApiConventions
namespace CommandLine

/-- Directories deeper than this are not looked into. -/
def maxDirectoryDepth : Nat := 128

/-- The text of a file, if it can be read and is text. -/
def readText? (path : String) : IO (Option String) := do
  try
    return some (← IO.FS.readFile path)
  catch _ =>
    return none

/-- Names of files whose contents matter. -/
def matters (name : String) : Bool :=
  PackageDump.isDumpName name || [".ignore", ".gitignore", "exclude"].contains name

/-- The files in a directory and below it that matter. -/
def filesUnder : Nat → Place → IO (List (Place × Option String))
  | 0, _ => return []
  | depth + 1, place => do
    let mut found := []
    let directory ← IO.FS.realPath ("/" ++ Path.ofNames place)
    for entry in ← directory.readDir do
      let inner := place ++ [entry.fileName]
      if ← entry.path.isDir then
        found := found ++ (← filesUnder depth inner)
      else if matters entry.fileName then
        found := found ++ [(inner, ← readText? ("/" ++ Path.ofNames inner))]
    return found

/-- The file at a path, if there is one. -/
def fileAt (cwd : Place) (path : String) : IO (List (Place × Option String)) := do
  try
    let real ← IO.FS.realPath (Path.join ("/" ++ Path.ofNames cwd) path)
    if ← real.isDir then return []
    let place := (Text.fieldsOf '/' real.toString).drop 1
    if ← real.pathExists then return [(place, ← readText? real.toString)]
    return []
  catch _ =>
    return []

/-- The ignore files in the directories above a place. -/
def ignoreFilesAbove (place : Place) : IO (List (Place × Option String)) := do
  let mut found := []
  for depth in List.range place.length do
    for name in FileSystem.ignoreFiles do
      let file := place.take depth ++ name
      if let some text ← readText? ("/" ++ Path.ofNames file) then
        found := found ++ [(file, some text)]
  return found

/-- The files at a path, below it, and above it as far as they matter. -/
def filesAround (cwd : Place) (path : String) : IO FileSystem := do
  try
    let real ← IO.FS.realPath (Path.join ("/" ++ Path.ofNames cwd) path)
    let place := (Text.fieldsOf '/' real.toString).drop 1
    let above ← ignoreFilesAbove place
    if ← real.isDir then
      let below ← filesUnder maxDirectoryDepth place
      return { workingDirectory := cwd, files := below ++ above, directories := [place] }
    return { workingDirectory := cwd, files := (← fileAt cwd path) ++ above }
  catch _ =>
    return { workingDirectory := cwd, files := [] }

/-- The environment variables that the program reads. -/
def readEnvironment : IO (List (String × String)) := do
  let mut found := []
  for name in ["API_LINT_CONFIG", "API_LINT_CONFIG_DIR", "HOME"] do
    if let some value ← IO.getEnv name then
      found := found ++ [(name, value)]
  return found

/-- The picture of the files that an invocation can look at. -/
def surroundings (args : List String) : IO Surroundings := do
  let cwd := (Text.fieldsOf '/' (← IO.currentDir).toString).drop 1
  let environment ← readEnvironment
  let mut files : FileSystem := { workingDirectory := cwd, files := ← fileAt cwd starterPath }
  match invocation? (environment.lookup "API_LINT_CONFIG") args with
  | some { command := .check request, config, .. } =>
    files ← filesAround cwd request.path
    for candidate in config.toList ++ configCandidates { files, environment } request.path do
      files := { files with files := files.files ++ (← fileAt cwd candidate) }
  | _ => pure ()
  return { files, environment }

/-- Writes the files that are in one picture and were not in the other. -/
def writeNew (before after : FileSystem) : IO Unit := do
  for (place, text) in after.files do
    if !before.files.contains (place, text) then
      IO.FS.writeFile ("/" ++ Path.ofNames place) (text.getD "")

end CommandLine
end ApiConventions

open ApiConventions CommandLine in
def main (args : List String) : IO UInt32 := do
  let s ← surroundings args
  let outcome := run s args
  writeNew s.files outcome.files
  IO.print outcome.output
  if let some message := outcome.error then
    IO.eprintln s!"Error: {message}"
  if outcome.exitCode = 2 then
    IO.eprintln "Usage: api-lint [--verbose] [--config FILE] check|list-rules|init [OPTIONS] [PATH]"
  return outcome.exitCode
