/-
A mask beside its text.

The mask is the text with some characters blanked, so it has its lines where the text
has them.  `Masks` relates a character to what stands for it, `mask_forall₂` says that of
a whole text, and `maskedLines_map_line` is the consequence the search for comments rests
on: pairing the lines of a text with those of its mask drops none.
-/
import Mathlib.Data.List.Forall2
import DocLint.Proofs.Source.LineTable
import DocLint.Swift.DocRange
import DocLint.Swift.Mask

namespace DocLint.Swift

/-- What can stand in a mask for a character: the character or its blank. -/
def Masks (c m : Char) : Prop := m = c ∨ m = blanked c

theorem Masks.refl (c : Char) : Masks c c := Or.inl rfl

/-- A blank is a space or the line break that was there. -/
theorem blanked_cases (c : Char) :
    (blanked c = c ∧ (c = '\r' ∨ c = '\n')) ∨ (blanked c = ' ' ∧ c ≠ '\r' ∧ c ≠ '\n') := by
  unfold blanked
  by_cases h : c = '\r' ∨ c = '\n'
  · exact Or.inl ⟨if_pos h, h⟩
  · exact Or.inr ⟨if_neg h, fun hc => h (Or.inl hc), fun hc => h (Or.inr hc)⟩

/-- A space stands for each character of a line. -/
theorem blanked_of_unbroken {l : Text} (h : l.Unbroken) {c : Char} (hc : c ∈ l) :
    blanked c = ' ' := by
  obtain ⟨hcr, hlf⟩ := h c hc
  unfold blanked
  rw [if_neg (by simp [hcr, hlf])]

theorem isBlank_blanked (c : Char) : Text.isBlank (blanked c) = true := by
  rcases blanked_cases c with ⟨hc, rfl | rfl⟩ | ⟨hc, -, -⟩
  · rw [hc]
    rfl
  · rw [hc]
    rfl
  · rw [hc]
    rfl

/-- A blank stands for a blank. -/
theorem Masks.isBlank {c m : Char} (h : Masks c m) (hc : Text.isBlank c = true) :
    Text.isBlank m = true := by
  rcases h with rfl | rfl
  · exact hc
  · exact isBlank_blanked c

/-- A line break stands for itself and for nothing else. -/
theorem Masks.break_iff {c m b : Char} (h : Masks c m) (hb : b = '\r' ∨ b = '\n') :
    m = b ↔ c = b := by
  rcases h with rfl | rfl
  · exact Iff.rfl
  · rcases blanked_cases c with ⟨hc, -⟩ | ⟨hc, hcr, hlf⟩
    · rw [hc]
    · rw [hc]
      constructor
      · rintro rfl
        exact absurd hb (by decide)
      · rintro rfl
        rcases hb with hb | hb
        · exact absurd hb hcr
        · exact absurd hb hlf

theorem Masks.eq_some_break_iff {x y : Option Char} (h : Option.Rel Masks x y) {b : Char}
    (hb : b = '\r' ∨ b = '\n') : y = some b ↔ x = some b := by
  cases h with
  | none => exact Iff.rfl
  | some h =>
      rw [Option.some_inj, Option.some_inj]
      exact h.break_iff hb

theorem Lexeme.masked_forall₂ (l : Lexeme) : List.Forall₂ Masks l.text l.masked := by
  unfold Lexeme.masked
  split
  · exact List.forall₂_same.mpr fun c _ => Masks.refl c
  · exact List.forall₂_map_right_iff.mpr (List.forall₂_same.mpr fun c _ => Or.inr rfl)

/-- **A mask is its text with some characters blanked.** -/
theorem mask_forall₂ (t : Text) : List.Forall₂ Masks t (mask t) := by
  have key : ∀ ls : List Lexeme,
      List.Forall₂ Masks (ls.flatMap Lexeme.text) (ls.flatMap Lexeme.masked) := by
    intro ls
    induction ls with
    | nil => exact List.Forall₂.nil
    | cons l more ih =>
        rw [List.flatMap_cons, List.flatMap_cons]
        exact List.rel_append l.masked_forall₂ ih
  have h := key (lexemes t)
  rwa [lexemes_flatMap_text] at h

theorem mask_nil : mask [] = [] := by
  rw [mask, lexemes]
  rfl

/-- The mask of a text begins with the mask of its first lexeme. -/
theorem mask_cons (c : Char) (r : Text) :
    mask (c :: r) = (nextLexeme c r).1.masked ++ mask (nextLexeme c r).2 := by
  unfold mask
  rw [lexemes, List.flatMap_cons]

/-! ### Lines of a mask -/

/-- A line of a text and the line that stands for it. -/
def LineMasks (l m : RawLine) : Prop :=
  l.ending = m.ending ∧ List.Forall₂ Masks l.content m.content

/-- Blanking moves no line break. -/
theorem splitLines_forall₂ {t m : Text} (h : List.Forall₂ Masks t m) :
    List.Forall₂ LineMasks (splitLines t) (splitLines m) := by
  fun_induction splitLines t generalizing m with
  | case1 =>
      cases h
      exact List.Forall₂.nil
  | case2 r ih =>
      obtain ⟨c, _, hc, htail, rfl⟩ := List.forall₂_cons_left_iff.mp h
      obtain ⟨d, m, hd, hm, rfl⟩ := List.forall₂_cons_left_iff.mp htail
      obtain rfl := (hc.break_iff (Or.inl rfl)).mpr rfl
      obtain rfl := (hd.break_iff (Or.inr rfl)).mpr rfl
      exact List.Forall₂.cons ⟨rfl, List.Forall₂.nil⟩ (ih hm)
  | case3 r hnot ih =>
      obtain ⟨c, m, hc, hm, rfl⟩ := List.forall₂_cons_left_iff.mp h
      obtain rfl := (hc.break_iff (Or.inl rfl)).mpr rfl
      have hsplit : splitLines ('\r' :: m) = ⟨[], some .cr⟩ :: splitLines m := by
        rw [splitLines]
        rintro s rfl
        obtain ⟨d, u, hd, -, rfl⟩ := List.forall₂_cons_right_iff.mp hm
        exact hnot u (by rw [(hd.break_iff (Or.inr rfl)).mp rfl])
      rw [hsplit]
      exact List.Forall₂.cons ⟨rfl, List.Forall₂.nil⟩ (ih hm)
  | case4 r ih =>
      obtain ⟨c, m, hc, hm, rfl⟩ := List.forall₂_cons_left_iff.mp h
      obtain rfl := (hc.break_iff (Or.inr rfl)).mpr rfl
      exact List.Forall₂.cons ⟨rfl, List.Forall₂.nil⟩ (ih hm)
  | case5 c r _ hcr hlf hnil ih =>
      obtain ⟨d, m, hd, hm, rfl⟩ := List.forall₂_cons_left_iff.mp h
      have hrest := ih hm
      rw [hnil] at hrest
      rw [splitLines_cons_of_not (fun hc => hcr ((hd.break_iff (Or.inl rfl)).mp hc))
        (fun hc => hlf ((hd.break_iff (Or.inr rfl)).mp hc)), List.forall₂_nil_left_iff.mp hrest]
      exact List.Forall₂.cons ⟨rfl, List.Forall₂.cons hd List.Forall₂.nil⟩ List.Forall₂.nil
  | case6 c r _ hcr hlf l more hcons ih =>
      obtain ⟨d, m, hd, hm, rfl⟩ := List.forall₂_cons_left_iff.mp h
      have hrest := ih hm
      rw [hcons] at hrest
      obtain ⟨l', more', hl, hmore, hsplit⟩ := List.forall₂_cons_left_iff.mp hrest
      rw [splitLines_cons_of_not (fun hc => hcr ((hd.break_iff (Or.inl rfl)).mp hc))
        (fun hc => hlf ((hd.break_iff (Or.inr rfl)).mp hc)), hsplit]
      exact List.Forall₂.cons ⟨hl.1, List.Forall₂.cons hd hl.2⟩ hmore

variable {t : Text}

theorem maskedLines_forall₂ (t : Text) :
    List.Forall₂ (fun l m : Line => LineMasks l.raw m.raw)
      (LineTable.ofText t).lines (LineTable.ofText (mask t)).lines := by
  have h := splitLines_forall₂ (mask_forall₂ t)
  rw [← LineTable.map_raw_ofText, ← LineTable.map_raw_ofText, List.forall₂_map_left_iff,
    List.forall₂_map_right_iff] at h
  exact h

/-- Each line of a text has its line in the mask. -/
theorem maskedLines_map_line (t : Text) :
    (maskedLines (LineTable.ofText t) (mask t)).map MaskedLine.line
      = (LineTable.ofText t).lines := by
  have hlen := (maskedLines_forall₂ t).length_eq
  unfold maskedLines
  generalize (LineTable.ofText t).lines = ls at hlen
  generalize (LineTable.ofText (mask t)).lines = ms at hlen
  induction ls generalizing ms with
  | nil => rfl
  | cons l more ih =>
      cases ms with
      | nil => simp at hlen
      | cons m ms => simp [ih ms (by simpa using hlen)]

/-- Their masks are the lines of the mask. -/
theorem maskedLines_map_masked (t : Text) :
    (maskedLines (LineTable.ofText t) (mask t)).map MaskedLine.masked
      = (splitLines (mask t)).map RawLine.content := by
  have hlen := (maskedLines_forall₂ t).length_eq
  rw [← LineTable.map_raw_ofText, List.map_map]
  unfold maskedLines
  generalize (LineTable.ofText t).lines = ls at hlen
  generalize (LineTable.ofText (mask t)).lines = ms at hlen
  induction ms generalizing ls with
  | nil =>
      obtain rfl : ls = [] := List.length_eq_zero_iff.mp hlen
      rfl
  | cons m ms ih =>
      cases ls with
      | nil => simp at hlen
      | cons l more =>
          rw [List.zipWith_cons_cons, List.map_cons, List.map_cons, ih more (by simpa using hlen)]
          rfl

/-- What stands in the mask for a line and its ending. -/
def MaskedLine.text (l : MaskedLine) : Text := l.masked ++ l.line.raw.endingText

/-- Put together, the lines of a mask are the mask. -/
theorem maskedLines_flatMap_text (t : Text) :
    (maskedLines (LineTable.ofText t) (mask t)).flatMap MaskedLine.text = mask t := by
  have hmask := LineTable.text_ofText (mask t)
  have h := maskedLines_forall₂ t
  unfold LineTable.text at hmask
  refine Eq.trans ?_ hmask
  unfold maskedLines
  generalize (LineTable.ofText t).lines = ls at h
  generalize (LineTable.ofText (mask t)).lines = ms at h
  induction h with
  | nil => rfl
  | @cons l m _ _ hlm _ ih =>
      rw [List.zipWith_cons_cons, List.flatMap_cons, List.flatMap_cons, ih]
      have hending : l.raw.endingText = m.raw.endingText := by
        unfold RawLine.endingText
        rw [hlm.1]
      show (m.content ++ l.raw.endingText) ++ _ = m.content ++ m.raw.endingText ++ _
      rw [hending]

theorem masks_of_mem_maskedLines {l : MaskedLine}
    (hl : l ∈ maskedLines (LineTable.ofText t) (mask t)) :
    List.Forall₂ Masks l.line.content l.masked := by
  unfold maskedLines at hl
  have h := maskedLines_forall₂ t
  generalize (LineTable.ofText t).lines = ls at h hl
  generalize (LineTable.ofText (mask t)).lines = ms at h hl
  induction h with
  | nil => simp at hl
  | cons hlm _ ih =>
      rcases List.mem_cons.mp hl with rfl | hl
      · exact hlm.2
      · exact ih hl

/-- Lines of a mask are as long as those they stand for. -/
theorem length_flatMap_text {lines : List MaskedLine}
    (h : ∀ l ∈ lines, List.Forall₂ Masks l.line.content l.masked) :
    (lines.flatMap MaskedLine.text).length
      = ((lines.map MaskedLine.line).flatMap fun l => l.raw.text).length := by
  induction lines with
  | nil => rfl
  | cons l more ih =>
      have hl := (h l (by simp)).length_eq
      have hmore := ih fun x hx => h x (by simp [hx])
      rw [List.flatMap_cons, List.map_cons, List.flatMap_cons, List.length_append,
        List.length_append, hmore, MaskedLine.text, RawLine.text, List.length_append,
        List.length_append, ← hl]
      rfl

end DocLint.Swift
