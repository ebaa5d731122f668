/-
A tree of files: what there is under which names.

A path is followed name by name, and every name but the last has to be that of a
directory; two points lead back to the directory above.  Files hold bytes.  Read as
text, they have to be UTF-8, and a line feed stands for every kind of line break.  Beside
files there are devices, which take what is written and give nothing back.
-/
import DocLint.Files.Path
import DocLint.Text.Quoted

namespace DocLint

/-- What can stand under a name. -/
inductive FileEntry where
  | file (bytes : ByteArray)
  | directory
  | device

/-- Files and directories, each with the names that lead to it from the top.  How long names and
paths can be counts where a path is followed, and not where a directory is searched: what is below
it is all there, however long the way to it and however deep the directories. -/
structure FileTree where
  entries : List (List Text × FileEntry)
  /-- The names of the directory that relative paths start from. -/
  workingDirectory : List Text := []

/-- Why a file cannot be read or written. -/
inductive FileError where
  | notFound
  | isADirectory
  | notADirectory
  /-- A name or the whole path is longer than those of files can be. -/
  | nameTooLong
  /-- There is a null character in the path, which ends it for the system. -/
  | nullCharacter
  | badEncoding
  deriving Repr, DecidableEq

def FileError.message (path : Path) : FileError → Text
  | .notFound => "[Errno 2] No such file or directory: ".toList ++ Text.quoted path.text
  | .isADirectory => "[Errno 21] Is a directory: ".toList ++ Text.quoted path.text
  | .notADirectory => "[Errno 20] Not a directory: ".toList ++ Text.quoted path.text
  | .nameTooLong => "[Errno 36] File name too long: ".toList ++ Text.quoted path.text
  | .nullCharacter => "embedded null byte".toList
  | .badEncoding => path.text ++ " is not UTF-8".toList

namespace FileTree

/-! ### Following a path -/

/-- What stands at a place; the top is a directory. -/
def entryAt? (t : FileTree) : List Text → Option FileEntry
  | [] => some .directory
  | place => (t.entries.find? fun e => e.1 == place).map (·.2)

/-- The most bytes of a name. -/
def maxNameSize : Nat := 255

/-- The most bytes of a path. -/
def maxPathSize : Nat := 4095

/-- The place that names lead to from another place. -/
def follow (t : FileTree) (place : List Text) : List Text → Except FileError (List Text)
  | [] => .ok place
  | name :: more =>
    match t.entryAt? place with
    | none => .error .notFound
    | some .directory =>
      if maxNameSize < Text.byteSize name then .error .nameTooLong
      else if name = ['.', '.'] then t.follow place.dropLast more
      else t.follow (place ++ [name]) more
    | some _ => .error .notADirectory

def start (t : FileTree) (p : Path) : List Text := if p.slashes = 0 then t.workingDirectory else []

/-- The place that a path leads to, where there need be nothing yet. -/
def place (t : FileTree) (p : Path) : Except FileError (List Text) :=
  if p.hasNull then .error .nullCharacter
  else if maxPathSize < Text.byteSize p.text then .error .nameTooLong
  else t.follow (t.start p) p.parts

/-- What stands at the end of a path. -/
def find (t : FileTree) (p : Path) : Except FileError (List Text × FileEntry) := do
  let place ← t.place p
  match t.entryAt? place with
  | none => throw .notFound
  | some entry => return (place, entry)

/-- Why it cannot even be told whether a path leads to something. -/
def lookupFailure? (t : FileTree) (p : Path) : Option FileError :=
  match t.find p with
  | .error .nameTooLong => some .nameTooLong
  | _ => none

def leadsSomewhere (t : FileTree) (p : Path) : Bool :=
  match t.find p with
  | .ok _ => true
  | .error _ => false

/-- Does the path lead to a directory? -/
def isDirectory (t : FileTree) (p : Path) : Bool :=
  match t.find p with
  | .ok (_, .directory) => true
  | _ => false

/-- Does the path lead to a file? -/
def isFile (t : FileTree) (p : Path) : Bool :=
  match t.find p with
  | .ok (_, .file _) => true
  | _ => false

/-- The names that lead from a place to the files below it, of any length. -/
def filesBelow (t : FileTree) (place : List Text) : List (List Text) :=
  t.entries.filterMap fun
    | (names, .file _) => if place.isPrefixOf names then some (names.drop place.length) else none
    | _ => none

/-! ### Reading and writing -/

/-- A line feed for every line break. -/
def lineFeeds : Text → Text
  | '\r' :: '\n' :: r => '\n' :: lineFeeds r
  | c :: r => (if c = '\r' then '\n' else c) :: lineFeeds r
  | [] => []

def readBytes (t : FileTree) (p : Path) : Except FileError ByteArray := do
  match ← t.find p with
  | (_, .file bytes) => return bytes
  | (_, .directory) => throw .isADirectory
  | (_, .device) => return .empty

def readText (t : FileTree) (p : Path) : Except FileError Text := do
  match Text.ofUtf8? (← t.readBytes p) with
  | some text => return lineFeeds text
  | none => throw .badEncoding

/-- The place of the file that a text can be written to under a path.  The file need not be there
yet, but its directory has to. -/
def writablePlace (t : FileTree) (p : Path) : Except FileError (List Text) := do
  let place ← t.place p
  match t.entryAt? place with
  | some .directory => throw .isADirectory
  | _ => return place

/-! ### Building -/

/-- The entries with another one, in the place of an earlier one of the same names. -/
def put (names : List Text) (entry : FileEntry) :
    List (List Text × FileEntry) → List (List Text × FileEntry)
  | [] => [(names, entry)]
  | e :: more => if e.1 = names then (names, entry) :: more else e :: put names entry more

/-- The tree with another entry, and with the directories above it. -/
def insert (t : FileTree) (names : List Text) (entry : FileEntry) : FileTree :=
  let above := ((List.range names.length).drop 1).map names.take
  let missing := above.filter fun names => (t.entryAt? names).isNone
  { t with entries := put names entry (t.entries ++ missing.map fun names => (names, .directory)) }

end FileTree

end DocLint
