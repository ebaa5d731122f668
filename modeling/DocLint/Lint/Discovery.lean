/-
Which files are checked.

A directory stands for the Swift files below it, less those in directories that hold
what others wrote or what a build left behind.  Any other path stands for itself if it
has the ending of a Swift file, whether there is such a file or not.

A system that lists directories has limits of its own, on the names, on the whole path and on
how deep a search goes.  They are left out here: all that is below a directory is found.
-/
import DocLint.Files.Tree
import DocLint.Log

namespace DocLint

namespace Discovery

/-- The ending of the names of Swift files. -/
def swiftSuffix : Text := ".swift".toList

/-- The names of the directories that are left out. -/
def excludedNames : List Text :=
  [".build".toList, ".git".toList, "Pods".toList, "Carthage".toList, "DerivedData".toList]

/-- Is there no excluded name among these? -/
def isIncluded (names : List Text) : Bool := !names.any excludedNames.contains

/-- Does the last of the names end as that of a Swift file? -/
def isSwiftName (names : List Text) : Bool := swiftSuffix.isSuffixOf (names.getLast?.getD [])

/-- Order by names, as in a dictionary of dictionaries. -/
def namesAtMost (a b : List Text) : Bool := !decide (b < a)

end Discovery

namespace FileTree

/-- The names that lead from a place to the Swift files below it, in ascending order. -/
def swiftFilesBelow (t : FileTree) (place : List Text) : List (List Text) :=
  ((t.filesBelow place).filter fun names =>
    Discovery.isSwiftName names && Discovery.isIncluded names).mergeSort Discovery.namesAtMost

/-- The files to check that a path stands for. -/
def swiftFiles (t : FileTree) (path : Path) : List Path :=
  match t.find path with
  | .ok (place, .directory) => (t.swiftFilesBelow place).map path.below
  | _ => if path.suffix = Discovery.swiftSuffix then [path] else []

/-- The files to check that paths stand for. -/
def swiftFilesOf (t : FileTree) (paths : List Path) : List Path := paths.flatMap t.swiftFiles

/-- Does the path stand for nothing that is checked? -/
def isIgnored (t : FileTree) (path : Path) : Bool :=
  !t.isDirectory path && path.suffix != Discovery.swiftSuffix

end FileTree

/-- What there is to say about paths that stand for nothing. -/
def Discovery.log (t : FileTree) (paths : List Path) : List LogEntry :=
  (paths.filter t.isIgnored).map fun path =>
    ⟨.debug, .linter, "Ignoring non-Swift path ".toList ++ path.text⟩

end DocLint
