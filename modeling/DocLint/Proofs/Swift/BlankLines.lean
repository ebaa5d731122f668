/-
Blank lines above a file.

Lines with nothing on them open neither a comment nor a literal, so the text below them is masked
and cut into lines as if it stood alone, and it has the same heads, further on.  What is left to
see is that the search for a comment, which goes up from a declaration to the top of the file, does
not take blank lines for anything: no attribute begins on one, and no comment
(`docRange?_append_blank`).  So a file has the same declarations below blank lines, each as many
bytes further on as these have (`declarations_append_blank`).
-/
import DocLint.Proofs.Swift.Alike
import DocLint.Proofs.Swift.Function
import DocLint.Proofs.Swift.HeadsApart
import DocLint.Proofs.Swift.Joined

namespace DocLint

/-- Lines with nothing on them. -/
structure Text.BlankLines (p : Text) : Prop where
  blank : p.allBlank = true
  endsLine : p.EndsLine

namespace Swift

variable {p t : Text}

/-! ### Scanning and cutting -/

theorem lexemes_of_code (h : ∀ c ∈ t, c ≠ '/' ∧ c ≠ '\"') :
    lexemes t = t.map fun c => ⟨.code, [c], true⟩ := by
  induction t with
  | nil => rw [lexemes, List.map_nil]
  | cons c r ih =>
      obtain ⟨hslash, hquote⟩ := h c (by simp)
      rw [lexemes, nextLexeme_eq_code hquote fun hc => absurd hc hslash,
        ih fun x hx => h x (by simp [hx]), List.map_cons]

/-- Blank lines are code. -/
theorem ne_of_blankLines (hp : p.BlankLines) : ∀ c ∈ p, c ≠ '/' ∧ c ≠ '\"' := by
  intro c hc
  have hblank := Text.allBlank_iff.mp hp.blank c hc
  constructor
  · rintro rfl
    cases hblank
  · rintro rfl
    cases hblank

theorem complete_of_blankLines (hp : p.BlankLines) : Complete p := by
  refine ⟨fun c hc => Or.inr (hp.endsLine c hc), ?_⟩
  intro l hl
  rw [lexemes_of_code (ne_of_blankLines hp), List.getLast?_map] at hl
  obtain ⟨c, -, rfl⟩ := Option.map_eq_some_iff.mp hl
  rfl

theorem mask_of_blankLines (hp : p.BlankLines) : mask p = p := by
  have hmask := mask_append_of_code (ne_of_blankLines hp) []
  rwa [mask_nil, List.append_nil] at hmask

/-- **Below blank lines are the same heads**, further on. -/
theorem heads_append_blank (hp : p.BlankLines) (t : Text) :
    heads (mask (p ++ t)) = (heads (mask t)).map (Head.shift p.length) := by
  have hcomplete := complete_of_blankLines hp
  have hprevious : mayPrecede (p.getLast?.or none) = mayPrecede none := by
    have hbefore := hcomplete.mayPrecede
    rw [mask_of_blankLines hp] at hbefore
    rw [Option.or_none, hbefore]
    rfl
  rw [mask_append hcomplete, mask_of_blankLines hp, heads, headsFrom_append_of_allBlank hp.blank,
    headsFrom_of_mayPrecede hprevious, headsFrom_shift]
  rfl

theorem allBlank_content_of_blankLines (hp : p.BlankLines) :
    ∀ r ∈ splitLines p, Text.allBlank r.content = true := by
  intro r hr
  refine Text.allBlank_iff.mpr ?_
  intro c hc
  refine Text.allBlank_iff.mp hp.blank c ?_
  rw [← splitLines_flatMap_text p]
  exact List.mem_flatMap.mpr ⟨r, hr, List.mem_append_left _ hc⟩

/-! ### Masked lines -/

/-- The line of the file below as many lines more, behind as many bytes more, with its mask. -/
def MaskedLine.shift (lines bytes : Nat) (l : MaskedLine) : MaskedLine :=
  { l with line := l.line.shift lines bytes }

/-- Nothing is on the line. -/
structure MaskedLine.Blank (l : MaskedLine) : Prop where
  content : Text.allBlank l.line.content = true
  masked : Text.allBlank l.masked = true

theorem maskedLinesFrom_shift (index offset lines bytes : Nat) (t : Text) :
    maskedLinesFrom (index + lines) (offset + bytes) t =
      (maskedLinesFrom index offset t).map (MaskedLine.shift lines bytes) := by
  unfold maskedLinesFrom
  rw [LineTable.layOut_shift, List.zipWith_map_left, List.map_zipWith]
  rfl

theorem blank_of_mem_maskedLinesFrom (hp : p.BlankLines) (index offset : Nat) :
    ∀ l ∈ maskedLinesFrom index offset p, l.Blank := by
  have hall := allBlank_content_of_blankLines hp
  have hcontent : ∀ x ∈ LineTable.layOut index offset (splitLines p),
      Text.allBlank x.content = true := by
    intro x hx
    refine hall x.raw ?_
    rw [← LineTable.map_raw_layOut (splitLines p) index offset]
    exact List.mem_map_of_mem hx
  unfold maskedLinesFrom
  rw [mask_of_blankLines hp]
  intro l hl
  obtain ⟨i, hi, rfl⟩ := List.getElem_of_mem hl
  rw [List.getElem_zipWith]
  exact ⟨hcontent _ (List.getElem_mem _), hall _ (List.getElem_mem _)⟩

/-- The masked lines of a file below blank lines are the blank lines and its own, further on. -/
theorem exists_blank_maskedLines (hp : p.BlankLines) (t : Text) :
    ∃ blanks, maskedLinesFrom 0 0 (p ++ t) =
        blanks ++ (maskedLinesFrom 0 0 t).map (MaskedLine.shift (splitLines p).length p.byteSize) ∧
      ∀ l ∈ blanks, l.Blank ∧ l.line.offset ≤ p.byteSize := by
  refine ⟨maskedLinesFrom 0 0 p, ?_, ?_⟩
  · rw [maskedLinesFrom_append (complete_of_blankLines hp) (hp.endsLine.breakBetween t),
      maskedLinesFrom_shift]
  · intro l hl
    refine ⟨blank_of_mem_maskedLinesFrom hp 0 0 l hl, ?_⟩
    have hline : l.line ∈ (LineTable.ofText p).lines := by
      rw [← maskedLines_map_line, maskedLines_ofText]
      exact List.mem_map_of_mem hl
    have hlt := LineTable.offset_lt_stop hline
    have hstop := LineTable.stop_le_size hline
    rw [LineTable.size_ofText] at hstop
    omega

/-! ### The search for a comment, further on -/

section Shift

variable (lines bytes : Nat)

theorem rangeOfLines_shift (first last : Line) :
    rangeOfLines (first.shift lines bytes) (last.shift lines bytes) =
      (rangeOfLines first last).shift bytes := by
  unfold rangeOfLines ByteRange.shift
  rw [(LineTable.movedBy_shift first lines bytes).textOffset_eq, Line.contentEnd_shift]
  simp only [ByteRange.mk.injEq]
  omega

/-- **Further on the comment is found further on.** -/
theorem docRange?_shift (above : List MaskedLine) :
    docRange? (above.map (MaskedLine.shift lines bytes)) =
      (docRange? above).map (ByteRange.shift · bytes) := by
  have halike : List.Forall₂ (MaskedLine.Alike fun l m => l.shift lines bytes = m) above
      (above.map (MaskedLine.shift lines bytes)) := by
    rw [List.forall₂_map_right_iff]
    exact List.forall₂_same.mpr fun l _ => ⟨rfl, rfl⟩
  have hcontent : ∀ l m : Line, l.shift lines bytes = m → l.content = m.content := by
    rintro l _ rfl
    rfl
  have hdoc := docRange?_alike hcontent halike
  generalize docRange? above = x at hdoc ⊢
  generalize docRange? (above.map (MaskedLine.shift lines bytes)) = y at hdoc ⊢
  cases hdoc with
  | none => rfl
  | some hsame =>
      obtain ⟨run, -, run', -, ⟨-, -, first, last, hfirst, hlast, rfl⟩, ⟨-, -, hrange⟩, hruns⟩ :=
        hsame.runs
      rw [← List.forall₂_map_left_iff, List.forall₂_eq_eq_eq] at hruns
      obtain rfl := hruns
      refine congrArg some (hrange.eq ⟨first.shift lines bytes, last.shift lines bytes, ?_, ?_, ?_⟩)
      · rw [List.getLast?_map, hfirst]
        rfl
      · rw [List.head?_map, hlast]
        rfl
      · exact (rangeOfLines_shift lines bytes first last).symm

end Shift

/-! ### The search for a comment below blank lines -/

section Blank

variable {blanks : List MaskedLine} (hblanks : ∀ l ∈ blanks, l.Blank)

include hblanks

/-- No attribute begins on a blank line. -/
theorem aboveAttribute?_blank (balance : Int) : aboveAttribute? balance blanks = none := by
  induction blanks generalizing balance with
  | nil => rfl
  | cons l blanks ih =>
      have hmore := fun balance => ih (fun x hx => hblanks x (by simp [hx])) balance
      rw [aboveAttribute?, Text.trimLeft_eq_nil_iff.mpr (hblanks l (by simp)).masked, hmore]
      split
      · rfl
      · rfl

theorem aboveAttribute?_append_blank (balance : Int) (ls : List MaskedLine) :
    aboveAttribute? balance (ls ++ blanks) = (aboveAttribute? balance ls).map (· ++ blanks) := by
  induction ls generalizing balance with
  | nil => exact aboveAttribute?_blank hblanks balance
  | cons l above ih =>
      rw [List.cons_append, aboveAttribute?, aboveAttribute?]
      split
      · split
        · rfl
        · rfl
      · exact ih _

theorem dropAttributes_append_blank (ls : List MaskedLine) :
    dropAttributes (ls ++ blanks) = dropAttributes ls ++ blanks := by
  fun_induction dropAttributes ls with
  | case1 ls above hfound ih =>
      have hblank := aboveAttribute?_append_blank hblanks 0 ls
      rw [hfound] at hblank
      rw [dropAttributes_of_some hblank, ih]
  | case2 ls hnone =>
      have hblank := aboveAttribute?_append_blank hblanks 0 ls
      rw [hnone] at hblank
      exact dropAttributes_of_none hblank

theorem isLineDoc_blank : ∀ l ∈ blanks, Doc.isLineDoc l.line.content = false := by
  intro l hl
  by_contra hdoc
  rw [Bool.not_eq_false] at hdoc
  have hcode := allBlank_of_isLineDoc hdoc
  rw [(hblanks l hl).content] at hcode
  cases hcode

theorem lineDocRange_append_blank (last : Line) (above : List MaskedLine) :
    lineDocRange last (above ++ blanks) = lineDocRange last above := by
  have hrun : ((above ++ blanks).map MaskedLine.line).takeWhile (fun l => Doc.isLineDoc l.content) =
      (above.map MaskedLine.line).takeWhile fun l => Doc.isLineDoc l.content := by
    have hnone : (blanks.map MaskedLine.line).takeWhile (fun l => Doc.isLineDoc l.content) = [] := by
      cases blanks with
      | nil => rfl
      | cons l blanks =>
          rw [List.map_cons, List.takeWhile_cons, isLineDoc_blank hblanks l (by simp)]
          rfl
    rw [List.map_append, List.takeWhile_append, hnone, List.append_nil]
    split
    · rename_i hall
      exact ((List.takeWhile_prefix _).eq_of_length hall).symm
    · rfl
  unfold lineDocRange
  rw [hrun]

theorem blockDocRange?_append_blank (last : Line) (above : List MaskedLine) :
    blockDocRange? last (above ++ blanks) = blockDocRange? last above := by
  have hnone : (blanks.map MaskedLine.line).find?
      (fun l => Text.hasPart Doc.commentOpen l.content) = none := by
    refine List.find?_eq_none.mpr ?_
    intro x hx hpart
    obtain ⟨l, hl, rfl⟩ := List.mem_map.mp hx
    have hopen := Text.allBlank_of_sublist (Text.sublist_of_hasPart hpart) (hblanks l hl).content
    exact absurd hopen (by decide)
  unfold blockDocRange?
  rw [List.map_append, ← List.cons_append, List.find?_append, hnone, Option.or_none]

/-- **Blank lines at the top make no difference to the search.** -/
theorem docRange?_append_blank (above : List MaskedLine) :
    docRange? (above ++ blanks) = docRange? above := by
  unfold docRange?
  rw [dropAttributes_append_blank hblanks]
  cases dropAttributes above with
  | nil =>
      cases blanks with
      | nil => rfl
      | cons l blanks =>
          have hdoc := isLineDoc_blank hblanks l (by simp)
          have htrim := Text.trim_eq_nil_iff.mpr (hblanks l (by simp)).content
          simp only [List.nil_append, hdoc, htrim]
          rfl
  | cons l more =>
      simp only [List.cons_append, lineDocRange_append_blank hblanks,
        blockDocRange?_append_blank hblanks]

end Blank

end Swift

/-! ### Declarations below blank lines -/

/-- The declaration as many bytes further on, with its comment. -/
def Declaration.shift (bytes : Nat) (d : Declaration) : Declaration :=
  { d with offset := d.offset + bytes, docRange := d.docRange.map (ByteRange.shift · bytes) }

namespace SourceFile

open Swift

/-- Above a place further on are the lines above the place, and above these blank ones. -/
theorem exists_linesAbove_blank {blanks : List MaskedLine} {bytes : Nat}
    (hblanks : ∀ l ∈ blanks, l.Blank ∧ l.line.offset ≤ bytes) (ls : List MaskedLine) (lines x : Nat) :
    ∃ top, linesAbove (blanks ++ ls.map (MaskedLine.shift lines bytes)) (x + bytes) =
        (linesAbove ls x).map (MaskedLine.shift lines bytes) ++ top ∧ ∀ l ∈ top, l.Blank := by
  have hoffset : ∀ l : MaskedLine, decide ((l.shift lines bytes).line.offset ≤ x + bytes) =
      decide (l.line.offset ≤ x) :=
    fun l => decide_eq_decide.mpr (Nat.add_le_add_iff_right (m := l.line.offset))
  have htake : (blanks ++ ls.map (MaskedLine.shift lines bytes)).takeWhile
        (fun l => l.line.offset ≤ x + bytes) =
      blanks ++ (ls.takeWhile fun l => l.line.offset ≤ x).map (MaskedLine.shift lines bytes) := by
    have hbefore : ∀ l ∈ blanks, decide (l.line.offset ≤ x + bytes) = true := by
      intro l hl
      have hle := (hblanks l hl).2
      simp
      omega
    rw [List.takeWhile_append_of_pos hbefore, List.takeWhile_map]
    simp only [Function.comp_def, hoffset]
  unfold linesAbove
  rw [htake, List.reverse_append, ← List.map_reverse]
  cases (ls.takeWhile fun l => l.line.offset ≤ x).reverse with
  | nil =>
      -- With no line of the file in front of the place a blank one is taken for its line.
      refine ⟨blanks.reverse.drop 1, rfl, ?_⟩
      intro l hl
      exact (hblanks l (List.mem_reverse.mp (List.mem_of_mem_drop hl))).1
  | cons l above =>
      refine ⟨blanks.reverse, rfl, ?_⟩
      intro l hl
      exact (hblanks l (List.mem_reverse.mp hl)).1

variable {p : Text} (hp : p.BlankLines) (t : Text) (path : Option Text)

include hp

theorem declaration?_append_blank {head : Head} (h : head ∈ SourceFile.heads ⟨t, path⟩)
    (h' : head.shift p.length ∈ SourceFile.heads ⟨p ++ t, path⟩) :
    declaration? (SourceFile.table ⟨p ++ t, path⟩) (SourceFile.maskedLines ⟨p ++ t, path⟩)
        (head.shift p.length) =
      (declaration? (SourceFile.table ⟨t, path⟩) (SourceFile.maskedLines ⟨t, path⟩) head).map
        (Declaration.shift p.byteSize) := by
  obtain ⟨blanks, hlines, hblanks⟩ := exists_blank_maskedLines hp t
  have hoffset : Text.byteSize ((p ++ t).take (head.shift p.length).start) =
      Text.byteSize (t.take head.start) + p.byteSize := by
    have hbytes := Text.bytesBefore_append p t head.start
    rwa [Nat.add_comm p.length, Nat.add_comm p.byteSize] at hbytes
  obtain ⟨top, habove, htop⟩ := exists_linesAbove_blank hblanks (maskedLinesFrom 0 0 t)
    (splitLines p).length (Text.byteSize (t.take head.start))
  have hdoc : docRange? (linesAbove (maskedLinesFrom 0 0 (p ++ t))
        (Text.byteSize (t.take head.start) + p.byteSize)) =
      (docRange? (linesAbove (maskedLinesFrom 0 0 t) (Text.byteSize (t.take head.start)))).map
        (ByteRange.shift · p.byteSize) := by
    rw [hlines, habove, docRange?_append_blank htop, docRange?_shift]
  have hmasked : ∀ u : Text, SourceFile.maskedLines ⟨u, path⟩ = maskedLinesFrom 0 0 u :=
    maskedLines_ofText
  have hclause : (head.shift p.length).clause = head.clause := rfl
  rw [declaration?_eq h, declaration?_eq h', hmasked, hmasked]
  simp only [hoffset, hdoc, hclause, Option.map_map]
  rfl

/-- **A file has the same declarations below blank lines**, further on. -/
theorem declarations_append_blank :
    (SourceFile.mk (p ++ t) path).declarations =
      (SourceFile.mk t path).declarations.map (Declaration.shift p.byteSize) := by
  have hheads : SourceFile.heads ⟨p ++ t, path⟩ =
      (SourceFile.heads ⟨t, path⟩).map (Head.shift p.length) := heads_append_blank hp t
  unfold declarations
  rw [hheads, List.filterMap_map, List.map_filterMap]
  refine List.filterMap_congr fun head hhead => declaration?_append_blank hp t path hhead ?_
  rw [hheads]
  exact List.mem_map_of_mem hhead

end SourceFile

end DocLint
