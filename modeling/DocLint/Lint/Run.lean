/-
Linting files.

Each file is examined by itself.  The report is made of what came out, in whatever order
the files were done: it sorts the findings by path and place, and the files that could
not be read by path.
-/
import DocLint.Lint.Discovery
import DocLint.Report.Basic
import DocLint.Rule.Registry

namespace DocLint

/-! ### One file -/

def FileTree.readSource (t : FileTree) (path : Path) : Except FileError SourceFile :=
  (t.readText path).map fun contents => ⟨contents, some path.text⟩

/-- The findings of rules about a file. -/
def SourceFile.lint (f : SourceFile) (rules : List Rule) : List Violation :=
  rules.flatMap fun rule => rule.check f

/-- What came out for a file: its findings, or why it could not be read. -/
structure Examined where
  path : Path
  result : Except FileError (List Violation)

namespace Examined

/-- The findings about the file; there is none about a file that could not be read. -/
def violations (e : Examined) : List Violation :=
  match e.result with
  | .ok violations => violations
  | .error _ => []

/-- Could the file not be read? -/
def isSkipped (e : Examined) : Bool :=
  match e.result with
  | .ok _ => false
  | .error _ => true

end Examined

def FileTree.examine (t : FileTree) (rules : List Rule) (path : Path) : Examined :=
  ⟨path, (t.readSource path).map fun f => f.lint rules⟩

/-! ### All files -/

/-- Order by path, and by offset within a file. -/
def Violation.atMost (a b : Violation) : Bool :=
  if a.location.sortPath = b.location.sortPath then
    a.location.byteOffset ≤ b.location.byteOffset
  else Text.atMost a.location.sortPath b.location.sortPath

/-- The report on files that have been examined. -/
def Report.ofExamined (files : List Examined) : Report :=
  let skipped := files.filter Examined.isSkipped
  { violations := (files.flatMap Examined.violations).mergeSort Violation.atMost
    filesChecked := files.length - skipped.length
    skippedFiles := (skipped.map fun e => e.path.text).mergeSort Text.atMost }

/-- The report on the files that paths stand for. -/
def lintPaths (t : FileTree) (rules : List Rule) (paths : List Path) : Report :=
  .ofExamined ((t.swiftFilesOf paths).map (t.examine rules))

/-- Why the files that paths stand for cannot be gathered or examined. -/
def lintFailure? (t : FileTree) (paths : List Path) : Option (Path × FileError) :=
  let lookup := paths.findSome? fun p => (t.lookupFailure? p).map (p, ·)
  lookup.or <| ((t.swiftFilesOf paths).find? Path.hasNull).map (·, .nullCharacter)

/-! ### The log -/

/-- What there is to say about a file. -/
def fileLog (t : FileTree) (rules : List Rule) (path : Path) : List LogEntry :=
  match t.readSource path with
  | .ok f => f.log ++ rules.flatMap fun rule => rule.log f
  | .error _ => [⟨.warning, .linter, "Cannot read ".toList ++ path.text⟩]

/-- What there is to say about a run. -/
def lintLog (t : FileTree) (rules : List Rule) (paths : List Path) : List LogEntry :=
  let files := t.swiftFilesOf paths
  Discovery.log t paths ++ files.flatMap (fileLog t rules)
    ++ [⟨.debug, .linter, "Linted ".toList ++ Text.ofNat files.length ++ " files, ".toList
      ++ Text.ofNat (lintPaths t rules paths).violations.length ++ " violations".toList⟩]

end DocLint
