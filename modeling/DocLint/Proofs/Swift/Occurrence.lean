/-
Lexemes in their places.

An `Occurrence` is a lexeme of a text with the lexemes before it and those after it.  The
scan never looks back, so from an occurrence on the lexemes are those of the text from
there on (`lexemes_of_append`), and what the mask shows at a place is decided by the one
lexeme that holds the place (`Occurrence.getElem?_mask`).
-/
import DocLint.Proofs.Swift.Mask

namespace DocLint

namespace Swift

/-! ### The scan from a lexeme on -/

/-- Behind some of its lexemes a text is scanned as if it began there. -/
theorem lexemes_of_append {t : Text} {before after : List Lexeme}
    (h : lexemes t = before ++ after) : lexemes (after.flatMap Lexeme.text) = after := by
  induction before generalizing t with
  | nil =>
      have ht := lexemes_flatMap_text t
      rw [List.nil_append] at h
      rw [h] at ht
      rw [ht, h]
  | cons x before ih =>
      cases t with
      | nil => simp [lexemes] at h
      | cons c r =>
          rw [lexemes, List.cons_append] at h
          exact ih (List.cons.inj h).2

/-- A lexeme of a text, with those before it and those after it. -/
structure Occurrence (t : Text) where
  before : List Lexeme
  lexeme : Lexeme
  after : List Lexeme
  scan_eq : lexemes t = before ++ lexeme :: after

namespace Occurrence

variable {t : Text} (o : Occurrence t)

/-- The text in front of the lexeme. -/
def front : Text := o.before.flatMap Lexeme.text

/-- The text behind the lexeme. -/
def back : Text := o.after.flatMap Lexeme.text

/-- The byte at which the lexeme begins. -/
def start : Nat := o.front.byteSize

/-- The byte at which the text behind the lexeme begins. -/
def stop : Nat := o.start + o.lexeme.text.byteSize

/-- Does the byte belong to the lexeme? -/
def Holds (n : Int) : Prop := (o.start : Int) ≤ n ∧ n < o.stop

theorem text_eq : t = o.front ++ o.lexeme.text ++ o.back := by
  have h := lexemes_flatMap_text t
  rw [o.scan_eq, List.flatMap_append, List.flatMap_cons, ← List.append_assoc] at h
  exact h.symm

theorem stop_eq : o.stop = (o.front ++ o.lexeme.text).byteSize := by
  rw [Text.byteSize_append]
  rfl

theorem stop_le : o.stop ≤ t.byteSize := by
  have htext := congrArg Text.byteSize o.text_eq
  rw [Text.byteSize_append, ← o.stop_eq] at htext
  omega

/-- The lexeme is what the scanner reads from its place on. -/
theorem nextLexeme_eq {c : Char} {r : Text} (h : o.lexeme.text ++ o.back = c :: r) :
    nextLexeme c r = (o.lexeme, o.back) := by
  have hscan := lexemes_of_append o.scan_eq
  have htext : (o.lexeme :: o.after).flatMap Lexeme.text = c :: r := by
    rw [List.flatMap_cons]
    exact h
  rw [htext, lexemes] at hscan
  obtain ⟨hfirst, hrest⟩ := List.cons.inj hscan
  have hback : (nextLexeme c r).2 = o.back := by
    rw [back, ← hrest, lexemes_flatMap_text]
  rw [← hfirst, ← hback]

/-- The mask, cut as the text is. -/
theorem mask_eq :
    ∃ masked, mask t = masked ++ o.lexeme.masked ++ mask o.back ∧
      masked.length = o.front.length := by
  refine ⟨o.before.flatMap Lexeme.masked, ?_, ?_⟩
  · have hsplit : lexemes t = (o.before ++ [o.lexeme]) ++ o.after := by
      rw [o.scan_eq]
      simp
    have hafter : lexemes o.back = o.after := lexemes_of_append hsplit
    unfold mask
    rw [hafter, o.scan_eq, List.flatMap_append, List.flatMap_cons, List.append_assoc]
  · unfold front
    induction o.before with
    | nil => rfl
    | cons x more ih =>
        rw [List.flatMap_cons, List.flatMap_cons, List.length_append, List.length_append, ih,
          x.length_masked]

/-- **A character of a comment or a literal is blanked.** -/
theorem getElem?_mask (hkind : o.lexeme.kind ≠ .code) {i : Nat} {c : Char} (hi : t[i]? = some c)
    (hheld : o.Holds (t.bytesBefore i)) : (mask t)[i]? = some (blanked c) := by
  have hhigh := hheld.2
  rw [stop_eq] at hhigh
  obtain ⟨j, rfl, hj⟩ := Text.exists_place o.text_eq hi (by exact_mod_cast hheld.1)
    (by exact_mod_cast hhigh)
  obtain ⟨masked, hmask, hlength⟩ := o.mask_eq
  have hblanked : o.lexeme.masked = o.lexeme.text.map blanked := by
    unfold Lexeme.masked
    split
    · exact absurd ‹_› hkind
    · rfl
  have hblank : (o.lexeme.text.map blanked)[j]? = some (blanked c) := by
    rw [List.getElem?_map, hj]
    rfl
  rw [hblanked] at hmask
  have hplace := (Text.getElem?_of_part hmask hblank).1
  rwa [hlength] at hplace

end Occurrence

/-- Every byte of a text belongs to a lexeme. -/
theorem exists_occurrence {t : Text} {n : Int} (hlow : 0 ≤ n) (hhigh : n < t.byteSize) :
    ∃ o : Occurrence t, o.Holds n := by
  have key : ∀ ls : List Lexeme, ∀ m : Nat, m < Text.byteSize (ls.flatMap Lexeme.text) →
      ∃ before x after, ls = before ++ x :: after ∧
        Text.byteSize (before.flatMap Lexeme.text) ≤ m ∧
        m < Text.byteSize (before.flatMap Lexeme.text) + x.text.byteSize := by
    intro ls
    induction ls with
    | nil =>
        intro m hm
        simp at hm
    | cons x ls ih =>
        intro m hm
        rw [List.flatMap_cons, Text.byteSize_append] at hm
        by_cases hx : m < x.text.byteSize
        · exact ⟨[], x, ls, rfl, by simp, by simpa using hx⟩
        · obtain ⟨before, y, after, rfl, hle, hlt⟩ := ih (m - x.text.byteSize) (by omega)
          refine ⟨x :: before, y, after, rfl, ?_, ?_⟩
          · rw [List.flatMap_cons, Text.byteSize_append]
            omega
          · rw [List.flatMap_cons, Text.byteSize_append]
            omega
  have htext := lexemes_flatMap_text t
  obtain ⟨before, x, after, hscan, hle, hlt⟩ := key (lexemes t) n.toNat (by rw [htext]; omega)
  refine ⟨⟨before, x, after, hscan⟩, ?_, ?_⟩
  · show ((Text.byteSize (before.flatMap Lexeme.text) : Nat) : Int) ≤ n
    omega
  · show n < ((Text.byteSize (before.flatMap Lexeme.text) + x.text.byteSize : Nat) : Int)
    omega

end Swift

end DocLint
