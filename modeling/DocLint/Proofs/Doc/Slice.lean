/-
When the lines of a comment can be sliced.

A range that begins at the first text of one line, or in the blanks before it, and ends
with the content of another or with its terminator covers whole lines (`Covers`).
`linesInRange_of_covers` says that it is refused in one case only: when a blank that it
leaves out is not ASCII.  The other refusals are about marks, and `bodyOf_isOk` says that
lines which carry the marks of a comment are never refused for them.
-/
import DocLint.Proofs.Doc.Unmarked
import DocLint.Proofs.Source.LineTable
import DocLint.Proofs.Swift.Attachment

namespace DocLint

open Swift

/-! ### The lines of a comment -/

variable {t : Text} {before run after : List Line} {first last : Line}

/-- A range over whole lines: it begins with the first text of the first line or in the blanks
before it, and ends with the content of the last line or with its terminator. -/
structure Covers (range : ByteRange) (first last : Line) : Prop where
  offset_le : (first.offset : Int) ≤ range.location
  location_le : range.location ≤ first.textOffset
  stop_eq : range.stop = last.contentEnd ∨ range.stop = last.stop

theorem covers_rangeOfLines (first last : Line) : Covers (rangeOfLines first last) first last := by
  have hlow := first.offset_le_textOffset
  exact ⟨Int.ofNat_le.mpr hlow, Int.le_refl _, Or.inl (stop_rangeOfLines first last)⟩

/-- The first bytes of a line are bytes of its blanks. -/
theorem take_utf8_of_le {l : Line} (h : Text.allBlank l.content = false) {n : Nat}
    (hn : l.offset + n ≤ l.textOffset) :
    l.content.utf8.take n = (Text.leadingBlanks l.content).utf8.take n := by
  have hoffset : l.textOffset = l.offset + (Text.leadingBlanks l.content).byteSize := by
    unfold Line.textOffset
    rw [h, if_neg (by simp)]
  have hsplit : l.content.utf8
      = (Text.leadingBlanks l.content).utf8 ++ (Text.trimLeft l.content).utf8 := by
    conv_lhs => rw [← Text.leadingBlanks_append_trimLeft l.content]
    simp [Text.utf8]
  rw [hsplit, List.take_append_of_le_length]
  rw [Text.length_utf8]
  omega

/-- A range over whole lines is refused only for what stands before it on the first. -/
theorem linesInRange_of_covers {range : ByteRange}
    (hlines : (LineTable.ofText t).lines = before ++ run ++ after)
    (hfirst : run.head? = some first) (hlast : run.getLast? = some last)
    (hf : Text.allBlank first.content = false) (hl : Text.allBlank last.content = false)
    (hcovers : Covers range first last) :
    (LineTable.ofText t).linesInRange range =
      if ((Text.leadingBlanks first.content).utf8.take (range.location - first.offset).toNat).all
          Text.isBlankByte then .ok run
      else .error ⟨range, .startsInsideLine⟩ := by
  have hfirstMem : first ∈ (LineTable.ofText t).lines := by
    rw [hlines]
    have hmem := List.mem_of_head? hfirst
    simp [hmem]
  have hlastMem : last ∈ (LineTable.ofText t).lines := by
    rw [hlines]
    have hmem := List.mem_of_getLast? hlast
    simp [hmem]
  have hlow := hcovers.offset_le
  have hhigh := hcovers.location_le
  have hstop : (last.contentEnd : Int) ≤ range.stop ∧ range.stop ≤ last.stop := by
    have hends := last.contentEnd_le_stop
    rcases hcovers.stop_eq with h | h <;> omega
  have horder := LineTable.textOffset_lt_contentEnd hlines hfirst hlast hf hl
  have hfirstLt := Line.textOffset_lt hf
  have hfirstStop := first.contentEnd_le_stop
  have hlastLt := Line.textOffset_lt hl
  have hlastLow := last.offset_le_textOffset
  have hsize := LineTable.stop_le_size hlastMem
  have hlength : range.stop = range.location + range.length := rfl
  have hfirstAt : (LineTable.ofText t).lineAt range.location = .ok first :=
    LineTable.lineAt_eq_ok hfirstMem hlow (by omega)
  have hlastAt : (LineTable.ofText t).lineAt (range.stop - 1) = .ok last :=
    LineTable.lineAt_eq_ok hlastMem (by omega) (by omega)
  have hends : ¬(range.stop ≠ last.contentEnd ∧ range.stop ≠ last.stop) := by
    rcases hcovers.stop_eq with h | h <;> simp [h]
  rw [LineTable.linesInRange_of_lineAt (by omega) (by omega) (by omega) hfirstAt hlastAt,
    LineTable.take_drop_index hlines hfirst hlast, take_utf8_of_le hf (by omega), if_neg hends]
  cases ((Text.leadingBlanks first.content).utf8.take
    (range.location - first.offset).toNat).all Text.isBlankByte with
  | true => simp
  | false => simp

/-- **A range of whole lines is refused only for what stands before its first text.** -/
theorem linesInRange_rangeOfLines
    (hlines : (LineTable.ofText t).lines = before ++ run ++ after)
    (hfirst : run.head? = some first) (hlast : run.getLast? = some last)
    (hf : Text.allBlank first.content = false) (hl : Text.allBlank last.content = false) :
    (LineTable.ofText t).linesInRange (rangeOfLines first last) =
      if (Text.leadingBlanks first.content).all Text.isAsciiBlank then .ok run
      else .error ⟨rangeOfLines first last, .startsInsideLine⟩ := by
  have hcount : (Text.leadingBlanks first.content).utf8.length ≤
      ((rangeOfLines first last).location - first.offset).toNat := by
    have hoffset : first.textOffset =
        first.offset + (Text.leadingBlanks first.content).byteSize := by
      unfold Line.textOffset
      rw [hf, if_neg (by simp)]
    have hlocation : (rangeOfLines first last).location = first.textOffset := rfl
    rw [Text.length_utf8]
    omega
  rw [linesInRange_of_covers hlines hfirst hlast hf hl (covers_rangeOfLines first last),
    List.take_of_length_le hcount, Text.utf8_all_isBlankByte]

/-- Over whole lines that begin with ASCII blanks no range is refused. -/
theorem linesInRange_eq_ok {range : ByteRange}
    (hlines : (LineTable.ofText t).lines = before ++ run ++ after)
    (hfirst : run.head? = some first) (hlast : run.getLast? = some last)
    (hf : Text.allBlank first.content = false) (hl : Text.allBlank last.content = false)
    (hcovers : Covers range first last)
    (hascii : (Text.leadingBlanks first.content).all Text.isAsciiBlank = true) :
    (LineTable.ofText t).linesInRange range = .ok run := by
  rw [linesInRange_of_covers hlines hfirst hlast hf hl hcovers, if_pos]
  rw [← Text.utf8_all_isBlankByte, List.all_eq_true] at hascii
  rw [List.all_eq_true]
  exact fun b hb => hascii b (List.mem_of_mem_take hb)

namespace Doc

/-! ### The marks of a comment -/

/-- A closing at the end of a line is one at the end of the text behind the opening, when the
opening does not share a star with it. -/
theorem blockClose_suffix_drop {t : Text} (hopen : blockOpen.isPrefixOf (Text.trimLeft t) = true)
    (hempty : (blockOpen ++ ['/']).isPrefixOf (Text.trimLeft t) = false)
    (hclose : blockClose.isSuffixOf (Text.trim t) = true) :
    blockClose.isSuffixOf (Text.trimRight ((Text.trimLeft t).drop blockOpen.length)) = true := by
  obtain ⟨r, hr⟩ := List.isPrefixOf_iff_prefix.mp hopen
  have htrim : Text.trim t = '/' :: '*' :: '*' :: Text.trimRight r := by
    unfold Text.trim
    rw [← hr]
    exact Text.trimRight_append_of_not ['/', '*'] r (by decide)
  have hdrop : (Text.trimLeft t).drop blockOpen.length = r := by
    rw [← hr]
    rfl
  have hsuffix : blockClose <:+ '/' :: '*' :: '*' :: Text.trimRight r := by
    rw [← htrim]
    exact List.isSuffixOf_iff_suffix.mp hclose
  rw [hdrop]
  refine List.isSuffixOf_iff_suffix.mpr ?_
  obtain ⟨rest, hrest, -, -⟩ := Text.dropEndWhile_append_rest Text.isBlank r
  change r = Text.trimRight r ++ rest at hrest
  match hw : Text.trimRight r with
  | [] =>
      rw [hw] at hsuffix
      exact absurd (List.isSuffixOf_iff_suffix.mpr hsuffix) (by decide)
  | [c] =>
      -- The star of the opening would be that of the closing.
      rw [hw] at hsuffix hrest
      have hlast : c = '/' := by
        have h := hsuffix.getLast (by simp [blockClose])
        simpa [blockClose] using h.symm
      rw [← hr, hrest, hlast] at hempty
      simp [blockOpen] at hempty
  | c :: d :: w =>
      rw [hw] at hsuffix
      have hlen : blockClose.length = 2 := rfl
      rcases List.suffix_cons_iff.mp hsuffix with h | h
      · rw [h] at hlen
        simp at hlen
      rcases List.suffix_cons_iff.mp h with h | h
      · rw [h] at hlen
        simp at hlen
      rcases List.suffix_cons_iff.mp h with h | h
      · rw [h] at hlen
        simp at hlen
      exact h

/-- A closing at the end of a line is one at the end of its text, blanks at the front or not. -/
theorem blockClose_suffix_trimRight {t : Text}
    (hclose : blockClose.isSuffixOf (Text.trim t) = true) :
    blockClose.isSuffixOf (Text.trimRight t) = true := by
  cases hblank : Text.allBlank t with
  | true =>
      unfold Text.trim at hclose
      rw [Text.trimLeft_eq_nil_iff.mpr hblank] at hclose
      exact absurd hclose (by decide)
  | false =>
      rw [Text.trimRight_eq_append_trim hblank]
      exact List.isSuffixOf_iff_suffix.mpr
        ((List.isSuffixOf_iff_suffix.mp hclose).trans (List.suffix_append _ _))

/-- **Lines that were taken for a comment carry its marks.** -/
theorem bodyOf_isOk {run rest more : List Line} {head : Line} (range : ByteRange)
    (h : CommentRun run rest) (hlines : run.reverse = head :: more) :
    ∃ body, bodyOf range head more = .ok body := by
  simp only [bodyOf_eq_ok_iff]
  cases h with
  | @lines last run _ hlast hrun _ =>
      have hdoc : ∀ l ∈ last :: run, isLineDoc l.content = true :=
        List.forall_mem_cons.mpr ⟨hlast, hrun⟩
      have hall : ∀ l ∈ head :: more, ∃ s : Stripped, s.line = l ∧ BehindMarker l.content s.text := by
        intro l hl
        rw [← hlines, List.mem_reverse] at hl
        obtain ⟨text, htext⟩ := isLineDoc_iff.mp (hdoc l hl)
        exact ⟨⟨l, text⟩, rfl, htext⟩
      obtain ⟨rest, hrest⟩ := exists_forall₂ hall
      exact ⟨⟨none, rest⟩, .lines hrest⟩
  | @block last first below _ hhead _ hclose _ _ hopen hempty =>
      obtain ⟨rfl, rfl⟩ : first = head ∧ below.reverse = more := by simpa using hlines
      obtain ⟨opening, hopening⟩ := blockOpen_prefix_iff.mp hopen
      cases below with
      | nil =>
          obtain rfl : first = last := by simpa using hhead
          have hclosing := blockClose_suffix_drop hopen hempty hclose
          rw [behindOpening_iff.mp hopening, List.drop_left] at hclosing
          obtain ⟨text, htext⟩ := blockClose_suffix_iff.mp hclosing
          exact ⟨_, .single hopening htext⟩
      | cons x below =>
          obtain rfl : x = last := by simpa using hhead
          obtain ⟨closing, hclosing⟩ :=
            blockClose_suffix_iff.mp (blockClose_suffix_trimRight hclose)
          rw [List.reverse_cons]
          exact ⟨_, .block hopening hclosing (forall₂_behindGutter_iff.mpr rfl)⟩

theorem slice_eq_ok {range : ByteRange} {table : LineTable} {head : Line} {more : List Line}
    {body : Body} (hlines : table.linesInRange range = .ok (head :: more))
    (hbody : bodyOf range head more = .ok body) : slice range table = .ok body.docLines := by
  unfold slice
  rw [hlines]
  simp only [bind, Except.bind]
  rw [hbody]
  rfl

/-- **The lines of a comment are sliced unless a blank before the first is not ASCII.** -/
theorem slice_isRangeOf {t : Text} {run rest before after : List Line} {range : ByteRange}
    (hlines : (LineTable.ofText t).lines = before ++ run.reverse ++ after)
    (hrun : CommentRun run rest) (hrange : IsRangeOf range run) :
    ∃ first, run.getLast? = some first ∧
      ((Text.leadingBlanks first.content).all Text.isAsciiBlank = true →
        ∃ lines, slice range (LineTable.ofText t) = .ok lines) ∧
      ((Text.leadingBlanks first.content).all Text.isAsciiBlank = false →
        slice range (LineTable.ofText t) = .error ⟨range, .startsInsideLine⟩) := by
  obtain ⟨first, last, hfirst, hlast, rfl⟩ := hrange
  have hinRange := linesInRange_rangeOfLines hlines (by simpa using hfirst) (by simpa using hlast)
    (hrun.first_not_blank first hfirst) (hrun.last_not_blank last hlast)
  refine ⟨first, hfirst, ?_, ?_⟩
  · intro hascii
    rw [if_pos hascii] at hinRange
    obtain ⟨more, hmore⟩ := List.head?_eq_some_iff.mp (by simpa using hfirst : run.reverse.head? = some first)
    obtain ⟨body, hbody⟩ := bodyOf_isOk (rangeOfLines first last) hrun hmore
    rw [hmore] at hinRange
    exact ⟨body.docLines, slice_eq_ok hinRange hbody⟩
  · intro hascii
    rw [if_neg (by simp [hascii])] at hinRange
    unfold slice
    rw [hinRange]
    rfl

end Doc

end DocLint
