/-
The mask of a text: its code, with comments and string literals blanked out.

A mask has the length of its text and the line breaks in the same places, so a place in
the one is the same place in the other.
-/
import DocLint.Swift.Lexeme

namespace DocLint.Swift

/-- A space for every character that is no line break. -/
def blanked (c : Char) : Char := if c = '\r' ∨ c = '\n' then c else ' '

/-- A lexeme in the mask: code stays, all else is blanked. -/
def Lexeme.masked (l : Lexeme) : Text :=
  match l.kind with
  | .code => l.text
  | _ => l.text.map blanked

def mask (t : Text) : Text := (lexemes t).flatMap Lexeme.masked

/-- A lexeme keeps its length in the mask. -/
theorem Lexeme.length_masked (l : Lexeme) : l.masked.length = l.text.length := by
  unfold masked
  split <;> simp

/-- A mask is as long as its text. -/
theorem length_mask (t : Text) : (mask t).length = t.length := by
  have h : ∀ ls : List Lexeme,
      (ls.flatMap Lexeme.masked).length = (ls.flatMap Lexeme.text).length := by
    intro ls
    induction ls with
    | nil => rfl
    | cons l more ih => simp only [List.flatMap_cons, List.length_append, ih, l.length_masked]
  rw [mask, h, lexemes_flatMap_text]

end DocLint.Swift
