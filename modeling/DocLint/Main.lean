/-
The program.

It takes up what stands on the disk under the paths of its arguments, asks what to do,
and does it: it prints, it writes the one file that there may be to write, and it ends
with an exit code.  It decides nothing.  Here the runs get their arguments, their readers and
their console.
-/
import DocLint.CommandLine.Arguments
import DocLint.CommandLine.Run
import DocLint.Config.Formats
import DocLint.Report.Markup

namespace DocLint.Program

/-! ### Taking up -/

/-- The tree with what stands at a place on the disk, and with what is below it if that is asked
for. -/
partial def take (withBelow : Bool) (tree : FileTree) (place : List Text) : IO FileTree := do
  let name := String.ofList (Path.text ⟨1, place⟩)
  let onDisk := (← IO.currentDir) / name
  match ← onDisk.readDir.toBaseIO with
  | .ok entries =>
    let tree := if place.isEmpty then tree else tree.insert place .directory
    if withBelow then
      entries.foldlM (fun tree entry => take true tree (place ++ [entry.fileName.toList])) tree
    else return tree
  | .error _ =>
    match ← onDisk.metadata.toBaseIO with
    | .error _ => return tree
    | .ok data =>
      if data.type == .file then
        match ← (IO.FS.readBinFile name).toBaseIO with
        | .ok bytes => return tree.insert place (.file bytes)
        | .error _ => return tree
      else return tree.insert place .device

/-- The place that is reached with one more name. -/
def next (place : List Text) (name : Text) : List Text :=
  if name = ['.', '.'] then place.dropLast else place ++ [name]

/-- The tree with all that a path passes, and with what it leads to. -/
def takePath (tree : FileTree) (path : Path) : IO FileTree := do
  let start := tree.start path
  let passed := (List.range path.parts.length).map fun n => (path.parts.take n).foldl next start
  let tree ← passed.foldlM (take false) tree
  take true tree (path.parts.foldl next start)

def pathsOf : Request → List Path
  | .lint options => options.paths ++ options.config.toList ++ options.output.toList
  | .rules config => config.toList
  | .help => []

/-- The variables of the environment, in order. -/
def environment : IO (List (Text × Text)) := do
  match ← (IO.FS.readBinFile "/proc/self/environ").toBaseIO with
  | .error _ => return []
  | .ok bytes =>
    let entries := Text.splitChar '\x00' ((Text.ofUtf8? bytes).getD [])
    return entries.map fun v => (Text.beforeChar '=' v, (v.dropWhile (· != '=')).drop 1)

/-- The files that a run may need. -/
def files (arguments : List Text) : IO FileTree := do
  let here := (Path.ofText (← IO.currentDir).toString.toList).parts
  let usual := Configuration.fileNames.map fun name => (⟨0, [name]⟩ : Path)
  let named := match Request.ofArguments arguments with
    | .ok request => pathsOf request
    | .error _ => []
  (usual ++ named).foldlM takePath (FileTree.insert ⟨[], here⟩ here .directory)

/-! ### Doing -/

/-- Prints and writes what a run says, and gives its exit code. -/
def perform (r : RunResult) : IO UInt32 := do
  if let some (place, text) := r.written then
    IO.FS.writeFile (String.ofList (Path.text ⟨1, place⟩)) (String.ofList text)
  IO.eprint (String.ofList r.messages)
  IO.print (String.ofList r.output)
  match r.ending with
  | .misused => IO.eprint (String.ofList (Report.printed CommandLine.usage))
  | .failed failure => IO.eprint (String.ofList (Report.printed [failure.message]))
  | _ => pure ()
  return UInt32.ofNat r.ending.exitCode

end DocLint.Program

/-- Runs the program with the arguments of its command line. -/
def main (arguments : List String) : IO UInt32 := do
  let arguments := arguments.map String.toList
  let tree ← DocLint.Program.files arguments
  DocLint.Program.perform
    (DocLint.CommandLine.run DocLint.Content.readers DocLint.Markup.renderer tree
      (← DocLint.Program.environment) (DocLint.Request.ofArguments arguments))
