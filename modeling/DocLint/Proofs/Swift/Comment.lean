/-
Comments in a mask.

Code stands in the mask as it does in the text.  A line comment is blanked up to its line
feed, and a block comment as a whole, provided that no other mark of a block comment
stands inside.  So lines that make up a comment are blanked and what follows them is
masked as if it stood alone.
-/
import DocLint.Doc.Marker
import DocLint.Proofs.Swift.Mask

namespace DocLint

/-! ### Texts without marks -/

/-- A part of a text is one of a longer text. -/
theorem Text.hasPart_append {part t : Text} (h : part <+: t) (u : Text) :
    Text.hasPart part (u ++ t) = true := by
  induction u with
  | nil =>
      cases t with
      | nil =>
          obtain rfl := List.prefix_nil.mp h
          rfl
      | cons c r =>
          rw [List.nil_append, Text.hasPart, List.isPrefixOf_iff_prefix.mpr h, Bool.true_or]
  | cons c u ih => rw [List.cons_append, Text.hasPart, ih, Bool.or_true]

theorem Text.sublist_of_hasPart {part s : Text} (h : Text.hasPart part s = true) :
    List.Sublist part s := by
  induction s with
  | nil =>
      obtain rfl := List.isEmpty_iff.mp h
      exact List.Sublist.refl _
  | cons c r ih =>
      rw [Text.hasPart, Bool.or_eq_true] at h
      rcases h with h | h
      · exact (List.isPrefixOf_iff_prefix.mp h).sublist
      · exact (ih h).cons c

/-- The text opens no block comment and closes none. -/
structure Text.Unmarked (t : Text) : Prop where
  noOpening : Text.hasPart Doc.commentOpen t = false
  noClosing : Text.hasPart Doc.blockClose t = false

instance (t : Text) : Decidable t.Unmarked :=
  decidable_of_iff
    (Text.hasPart Doc.commentOpen t = false ∧ Text.hasPart Doc.blockClose t = false)
    ⟨fun h => ⟨h.1, h.2⟩, fun h => ⟨h.noOpening, h.noClosing⟩⟩

theorem Text.unmarked_nil : Text.Unmarked [] := ⟨rfl, rfl⟩

/-- A character that begins no mark can be put in front. -/
theorem Text.Unmarked.cons {c : Char} {t : Text} (h : t.Unmarked) (hslash : c ≠ '/')
    (hstar : c ≠ '*') : Text.Unmarked (c :: t) := by
  refine ⟨?_, ?_⟩
  · rw [Text.hasPart, h.noOpening, Bool.or_false]
    show ('/' == c && _) = false
    rw [beq_false_of_ne (Ne.symm hslash), Bool.false_and]
  · rw [Text.hasPart, h.noClosing, Bool.or_false]
    show ('*' == c && _) = false
    rw [beq_false_of_ne (Ne.symm hstar), Bool.false_and]

theorem Text.Unmarked.append {u t : Text} (h : t.Unmarked) (hu : ∀ c ∈ u, c ≠ '/' ∧ c ≠ '*') :
    Text.Unmarked (u ++ t) := by
  induction u with
  | nil => exact h
  | cons c u ih =>
      obtain ⟨hslash, hstar⟩ := hu c (by simp)
      exact (ih fun x hx => hu x (by simp [hx])).cons hslash hstar

/-- A star can be put in front of a blank. -/
theorem Text.Unmarked.star {t : Text} (h : Text.Unmarked (' ' :: t)) :
    Text.Unmarked ('*' :: ' ' :: t) := by
  obtain ⟨hopen, hclose⟩ := h
  refine ⟨?_, ?_⟩
  · rw [Text.hasPart, hopen]
    rfl
  · rw [Text.hasPart, hclose]
    rfl

/-- A text without marks does not begin with one. -/
theorem Text.Unmarked.tail {c : Char} {t : Text} (h : Text.Unmarked (c :: t)) :
    t.Unmarked ∧ (∀ r, c = '/' → t ≠ '*' :: r) ∧ ∀ r, c = '*' → t ≠ '/' :: r := by
  obtain ⟨hopen, hclose⟩ := h
  rw [Text.hasPart, Bool.or_eq_false_iff] at hopen hclose
  refine ⟨⟨hopen.2, hclose.2⟩, ?_, ?_⟩
  · rintro r rfl rfl
    simp [Doc.commentOpen] at hopen
  · rintro r rfl rfl
    simp [Doc.blockClose] at hclose

namespace Swift

/-! ### Code -/

/-- A character that opens neither a comment nor a literal is code. -/
theorem mask_cons_of_code {c : Char} (hslash : c ≠ '/') (hquote : c ≠ '\"') (r : Text) :
    mask (c :: r) = c :: mask r := by
  have hnext : nextLexeme c r = (⟨.code, [c], true⟩, r) := by
    unfold nextLexeme
    split
    · exact absurd rfl hslash
    · exact absurd rfl hslash
    · exact absurd rfl hquote
    · exact absurd rfl hquote
    · rfl
  rw [mask_cons, hnext]
  rfl

theorem mask_append_of_code {s : Text} (h : ∀ c ∈ s, c ≠ '/' ∧ c ≠ '\"') (t : Text) :
    mask (s ++ t) = s ++ mask t := by
  induction s with
  | nil => rfl
  | cons c s ih =>
      obtain ⟨hslash, hquote⟩ := h c (by simp)
      rw [List.cons_append, mask_cons_of_code hslash hquote, ih fun x hx => h x (by simp [hx])]
      rfl

/-! ### Line comments -/

theorem lineTail_append_lf {s : Text} (h : '\n' ∉ s) (t : Text) :
    lineTail (s ++ '\n' :: t) = ⟨s, '\n' :: t, true⟩ := by
  induction s with
  | nil => rfl
  | cons c s ih =>
      have hc : c ≠ '\n' := fun hc => h (by simp [hc])
      rw [List.cons_append, lineTail, if_neg hc, ih fun hs => h (by simp [hs])]
      rfl

theorem mask_lineComment {s : Text} (h : '\n' ∉ s) (t : Text) :
    mask ('/' :: '/' :: s ++ '\n' :: t) = ('/' :: '/' :: s).map blanked ++ '\n' :: mask t := by
  rw [show '/' :: '/' :: s ++ '\n' :: t = '/' :: ('/' :: (s ++ '\n' :: t)) from rfl, mask_cons]
  have hnext : nextLexeme '/' ('/' :: (s ++ '\n' :: t)) =
      (⟨.lineComment, '/' :: '/' :: s, true⟩, '\n' :: t) := by
    unfold nextLexeme
    simp [Lexeme.ofSpan, lineTail_append_lf h]
  rw [hnext, mask_cons_of_code (by decide) (by decide)]
  rfl

/-! ### Block comments -/

/-- What is no mark belongs to the comment. -/
theorem blockTail_append_of_unmarked {s : Text} (hs : s.Unmarked) {c : Char} (hslash : c ≠ '/')
    (hstar : c ≠ '*') (t : Text) :
    blockTail 1 (s ++ c :: t) =
      ⟨s ++ c :: (blockTail 1 t).taken, (blockTail 1 t).rest, (blockTail 1 t).closed⟩ := by
  induction s with
  | nil =>
      rw [List.nil_append, blockTail]
      · rfl
      · exact fun _ h _ => hslash h
      · exact fun _ h _ => hstar h
  | cons d s ih =>
      obtain ⟨hs, hopen, hclose⟩ := hs.tail
      rw [List.cons_append, blockTail]
      · rw [ih hs]
        rfl
      · intro r hd hr
        cases s with
        | nil => exact hstar (List.cons.inj hr).1
        | cons e s =>
            obtain ⟨rfl, -⟩ := List.cons.inj hr
            exact hopen s hd rfl
      · intro r hd hr
        cases s with
        | nil => exact hslash (List.cons.inj hr).1
        | cons e s =>
            obtain ⟨rfl, -⟩ := List.cons.inj hr
            exact hclose s hd rfl

theorem blockTail_unlines_append {lines : List Text} (h : ∀ l ∈ lines, Text.Unmarked l) (t : Text) :
    blockTail 1 (Text.unlines lines ++ t) =
      ⟨Text.unlines lines ++ (blockTail 1 t).taken, (blockTail 1 t).rest, (blockTail 1 t).closed⟩ := by
  induction lines with
  | nil => rfl
  | cons l more ih =>
      rw [Text.unlines_cons, List.append_assoc, List.cons_append,
        blockTail_append_of_unmarked (h l (by simp)) (by decide) (by decide),
        ih fun x hx => h x (by simp [hx])]
      simp

theorem blockTail_spaces_append (n : Nat) (t : Text) :
    blockTail 1 (List.replicate n ' ' ++ '*' :: '/' :: t) =
      ⟨List.replicate n ' ' ++ ['*', '/'], t, true⟩ := by
  induction n with
  | zero => simp [blockTail, Span.push]
  | succ n ih =>
      have hblank := blockTail_append_of_unmarked Text.unmarked_nil (c := ' ') (by decide)
        (by decide) (List.replicate n ' ' ++ '*' :: '/' :: t)
      rw [List.nil_append, ih] at hblank
      exact hblank

/-- A block comment is blanked up to where it closes. -/
theorem mask_of_blockTail {s u t : Text} (h : blockTail 1 s = ⟨u, t, true⟩) :
    mask ('/' :: '*' :: s) = ('/' :: '*' :: u).map blanked ++ mask t := by
  have hnext : nextLexeme '/' ('*' :: s) = Lexeme.ofSpan .blockComment ['/', '*'] (blockTail 1 s) :=
    rfl
  rw [mask_cons, hnext, h]
  rfl

/-! ### Lines of a comment -/

theorem map_blanked_replicate (n : Nat) :
    (List.replicate n ' ').map blanked = List.replicate n ' ' := by
  rw [List.map_replicate]
  rfl

theorem mask_spaces_append (n : Nat) (t : Text) :
    mask (List.replicate n ' ' ++ t) = List.replicate n ' ' ++ mask t := by
  refine mask_append_of_code ?_ t
  intro c hc
  rw [(List.mem_replicate.mp hc).2]
  decide

/-- **Lines of a line comment are blanked**, and what follows is masked on its own. -/
theorem mask_lineComments {lines : List Text}
    (h : ∀ l ∈ lines, ∃ n s, l = List.replicate n ' ' ++ '/' :: '/' :: s ∧ '\n' ∉ s) (t : Text) :
    mask (Text.unlines lines ++ t) = (Text.unlines lines).map blanked ++ mask t := by
  induction lines with
  | nil => rfl
  | cons l more ih =>
      obtain ⟨n, s, rfl, hs⟩ := h l (by simp)
      have hmore := ih fun x hx => h x (by simp [hx])
      have hline := mask_lineComment hs (Text.unlines more ++ t)
      rw [Text.unlines_cons]
      simp only [List.append_assoc, List.cons_append, List.map_append, List.map_cons,
        map_blanked_replicate] at hline ⊢
      rw [mask_spaces_append, hline, hmore]
      rfl

/-- **The lines of a block comment are blanked**, and what follows is masked on its own. -/
theorem mask_blockComment {lines : List Text} (h : ∀ l ∈ lines, Text.Unmarked l) (n m : Nat)
    (t : Text) :
    mask (Text.unlines ((List.replicate n ' ' ++ Doc.blockOpen) :: lines
        ++ [List.replicate m ' ' ++ Doc.blockClose]) ++ t) =
      (Text.unlines ((List.replicate n ' ' ++ Doc.blockOpen) :: lines
        ++ [List.replicate m ' ' ++ Doc.blockClose])).map blanked ++ mask t := by
  have hstar : Text.Unmarked ['*'] := ⟨rfl, rfl⟩
  -- The second star of the opening stands before the rest of the comment.
  have hinside := blockTail_append_of_unmarked hstar (c := '\n') (by decide) (by decide)
    (Text.unlines lines ++ (List.replicate m ' ' ++ '*' :: '/' :: '\n' :: t))
  rw [blockTail_unlines_append h, blockTail_spaces_append] at hinside
  have hblock := mask_of_blockTail hinside
  have htext : Text.unlines ((List.replicate n ' ' ++ Doc.blockOpen) :: lines
        ++ [List.replicate m ' ' ++ Doc.blockClose]) =
      List.replicate n ' ' ++ '/' :: '*' :: (['*'] ++ '\n' :: (Text.unlines lines
        ++ (List.replicate m ' ' ++ ['*', '/']))) ++ ['\n'] := by
    rw [List.cons_append, Text.unlines_cons, Text.unlines_append, Text.unlines_cons]
    simp [Doc.blockOpen, Doc.blockClose, Text.unlines]
  rw [htext]
  simp only [List.append_assoc, List.cons_append, List.nil_append] at hblock ⊢
  rw [mask_spaces_append, hblock, mask_cons_of_code (by decide) (by decide)]
  simp only [List.map_append, List.map_cons, map_blanked_replicate, List.append_assoc,
    List.cons_append]
  rfl

end Swift

end DocLint
