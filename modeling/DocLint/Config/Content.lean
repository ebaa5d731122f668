/-
What a settings file holds, as the readers of the formats give it.

The formats have values of their own, which may share parts and stand within themselves.
What a reader makes of a text is not said here.  `Readers` says what can be seen of it: data
have a value and may count as none, and those of a map have entries with data of their own.
-/
import DocLint.Text.LowerCase
import DocLint.Value.Fault

namespace DocLint

/-! ### Formats -/

/-- The formats of settings files. -/
inductive ConfigFormat where
  | yaml
  | json
  deriving Repr, DecidableEq

/-- The format that the ending of a file name stands for, in upper or lower case. -/
def ConfigFormat.ofSuffix? (suffix : Text) : Option ConfigFormat :=
  let suffix := Text.lower suffix
  if suffix = ".yaml".toList ∨ suffix = ".yml".toList then some .yaml
  else if suffix = ".json".toList then some .json
  else none

/-! ### Readers -/

/-- Readers of the formats, which give data of a kind, and what can be seen of these. -/
structure Readers (δ : Type) where
  read : ConfigFormat → Text → Reading δ
  value : δ → Value
  /-- Nothing, false, zero and what is empty count as no data at all. -/
  isVoid : δ → Bool
  /-- The entries of a map. -/
  entries? : δ → Option (List (Value × δ))
  /-- How many values may stand one within another in a value that a message shows. -/
  shownDepth : Nat
  isVoid_iff : ∀ {data entries}, entries? data = some entries → (isVoid data = true ↔ entries = [])

namespace Readers

variable {δ : Type} (readers : Readers δ)

/-- The entries at the top of a text in a format, if there is a map.  A text in which there is
nothing has none, and in one of the formats this is so for all that counts as nothing. -/
def top? (format : ConfigFormat) (t : Text) : Reading (Option (List (Value × δ))) :=
  match format with
  | .yaml => (readers.read .yaml t).map fun data =>
    if readers.isVoid data then some [] else readers.entries? data
  | .json => if Text.allBlank t then .ok (some []) else (readers.read .json t).map readers.entries?

/-- Entries with the values of their data. -/
def values (entries : List (Value × δ)) : List (Value × Value) :=
  entries.map fun e => (e.1, readers.value e.2)

/-- Data as settings: those of a map, and none where there is nothing of note. -/
def settings (data : δ) : Value :=
  if readers.isVoid data then .map []
  else match readers.entries? data with
    | some entries => .map (readers.values entries)
    | none => readers.value data

end Readers

end DocLint
