/-
Swift source files and the declarations in them.

The scan is no parser.  It looks for the heads of functions and initializers in the mask
of the text, reads the names of their parameters and finds the comment above each.
-/
import DocLint.Swift.DocRange
import DocLint.Swift.Head
import DocLint.Swift.Mask
import DocLint.Swift.Parameters

namespace DocLint

/-- A function or an initializer. -/
structure Declaration where
  signature : Swift.Signature
  /-- The byte offset of the keyword. -/
  offset : Nat
  parameterNames : List Text
  /-- The range of the comment that documents it, if there is one. -/
  docRange : Option ByteRange
  deriving Repr, DecidableEq

/-- Is there a comment? -/
def Declaration.isDocumented (d : Declaration) : Bool := d.docRange.isSome

/-- The text of a file, and its path if it has one. -/
structure SourceFile where
  contents : Text
  path : Option Text := none
  deriving Repr, DecidableEq

namespace SourceFile

def table (f : SourceFile) : LineTable := .ofText f.contents

/-- The heads of the declarations of the file. -/
def heads (f : SourceFile) : List Swift.Head := Swift.heads (Swift.mask f.contents)

/-- The lines above the line of a byte offset, nearest first. -/
def linesAbove (lines : List Swift.MaskedLine) (offset : Nat) : List Swift.MaskedLine :=
  (lines.takeWhile fun l => l.line.offset ≤ offset).reverse.drop 1

/-- The declaration of a head, unless its parentheses are not balanced.  The head is looked up in
the table by its first character, which always has a place there. -/
def declaration? (table : LineTable) (lines : List Swift.MaskedLine) (head : Swift.Head) :
    Option Declaration := do
  let clause ← head.clause
  let offset ← (table.characterOffset head.start).toOption
  return ⟨head.signature, offset, Swift.parameterNames clause,
    Swift.docRange? (linesAbove lines offset)⟩

/-- The declarations of the file, in order. -/
def declarations (f : SourceFile) : List Declaration :=
  let table := f.table
  let lines := Swift.maskedLines table (Swift.mask f.contents)
  f.heads.filterMap (declaration? table lines)

end SourceFile

end DocLint
