/-
The readers of the two formats of settings files.

The data of one format are trees, those of the other are nodes that may share parts and
stand within themselves.  Content is either, seen from some place in the file.
-/
import DocLint.Config.Content
import DocLint.Json.Reader
import DocLint.Yaml.Reader

namespace DocLint

/-- The content of a settings file, or of a part of it. -/
inductive Content where
  | tree (v : Value)
  | node (document : Yaml.Document) (number : Nat)

namespace Content

def read (format : ConfigFormat) (t : Text) : Reading Content :=
  match format with
  | .yaml => (Yaml.Document.read t).map fun d => .node d d.root
  | .json => (Json.read t).map .tree

/-- The value as a tree. -/
def value : Content → Value
  | tree v => v
  | node document number => document.value number

def isVoid : Content → Bool
  | tree v => v.isVoid
  | node document number => document.isVoid number

def entries? : Content → Option (List (Value × Content))
  | tree v => v.entries?.map fun entries => entries.map fun e => (e.1, .tree e.2)
  | node document number =>
    (document.entries? number).map fun entries => entries.map fun e => (e.1, .node document e.2)

theorem isVoid_iff {content : Content} {entries : List (Value × Content)}
    (h : content.entries? = some entries) : content.isVoid = true ↔ entries = [] := by
  cases content with
  | tree v =>
      obtain ⟨pairs, hpairs, rfl⟩ := Option.map_eq_some_iff.mp h
      rw [List.map_eq_nil_iff]
      exact Value.isVoid_iff hpairs
  | node document number =>
      obtain ⟨pairs, hpairs, rfl⟩ := Option.map_eq_some_iff.mp h
      rw [List.map_eq_nil_iff]
      unfold Yaml.Document.entries? at hpairs
      simp only [isVoid, Yaml.Document.isVoid]
      cases hcell : document.cell number with
      | map entries =>
          rw [hcell] at hpairs
          obtain rfl := Option.some.inj hpairs
          exact List.isEmpty_iff
      | _ => simp [hcell] at hpairs

/-- The readers of both formats. -/
def readers : Readers Content where
  read := read
  value := value
  isVoid := isVoid
  entries? := entries?
  shownDepth := 989
  isVoid_iff := isVoid_iff

end Content

end DocLint
