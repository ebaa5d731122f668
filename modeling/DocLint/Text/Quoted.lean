/-
Quoted text, as error messages show it.

The quote is an apostrophe, unless the text holds an apostrophe and no quotation mark.
The quote in use, the backslash and the characters that cannot be printed are written
with a backslash, so that no line break or control character gets out and the quote
that closes the text is the only bare one.
-/
import DocLint.Text.Printable

namespace DocLint.Text

def quoteFor (t : Text) : Char := if t.contains '\'' && !t.contains '\"' then '\"' else '\''

def quoteChar (quote c : Char) : Text :=
  if c = quote ∨ c = '\\' then ['\\', c]
  else if c = '\n' then ['\\', 'n']
  else if c = '\r' then ['\\', 'r']
  else if c = '\t' then ['\\', 't']
  else if isPrintable c then [c]
  else if c.toNat < 0x100 then ['\\', 'x'] ++ ofHex 2 c.toNat
  else if c.toNat < 0x10000 then ['\\', 'u'] ++ ofHex 4 c.toNat
  else ['\\', 'U'] ++ ofHex 8 c.toNat

def quoted (t : Text) : Text :=
  let quote := quoteFor t
  quote :: t.flatMap (quoteChar quote) ++ [quote]

/-- The text between quotes, cut off after so many characters. -/
def clipped (width : Nat) (t : Text) : Text := (quoted t).take width

/-- Code points between quotes.  They need not be characters: halves of surrogate pairs are
escaped. -/
def quotedCodes (codes : List Nat) : Text :=
  let quote := quoteFor (codes.map Char.ofNat)
  let quoteCode := fun (n : Nat) =>
    if n.isValidChar then quoteChar quote (Char.ofNat n) else ['\\', 'u'] ++ ofHex 4 n
  quote :: codes.flatMap quoteCode ++ [quote]

/-- Bytes between quotes: those of ASCII characters as characters, all others escaped. -/
def quotedBytes (bytes : List UInt8) : Text :=
  let quote := quoteFor (bytes.map fun b => Char.ofNat b.toNat)
  let quoteByte := fun (b : UInt8) =>
    if b < 0x80 then quoteChar quote (Char.ofNat b.toNat) else ['\\', 'x'] ++ ofHex 2 b.toNat
  ['b', quote] ++ bytes.flatMap quoteByte ++ [quote]

end DocLint.Text
