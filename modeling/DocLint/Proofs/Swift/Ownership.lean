/-
To which declaration a comment belongs.

The search for a comment passes over attributes, and a line is an attribute when its code
begins with the sign of attributes, whatever follows on that line.  So two declarations
can share a comment: the search from the lower one passes over the whole of the upper one
when that is an attribute and a declaration on one line.  A comment of one declaration can
also run over another, when a closing that is not a comment's is taken for one.
`docRanges_overlap_iff` says that there is no third way.

`Attachment` holds what is known of a declaration and its comment, and `code_below` is the
fact behind the theorem: right below every comment there is a line of code.
-/
import Mathlib
import DocLint.Proofs.Swift.Declaration

namespace DocLint

/-- The ranges have a byte in common. -/
def ByteRange.Overlaps (r s : ByteRange) : Prop := r.location < s.stop ∧ s.location < r.stop

namespace SourceFile

open Swift

variable {f : SourceFile} {d e : Declaration} {r s : ByteRange}

/-! ### The order of the lines -/

theorem pairwise_maskedLines (f : SourceFile) :
    f.maskedLines.Pairwise fun a b => a.line.stop ≤ b.line.offset := by
  have h := (LineTable.laidOut_ofText f.contents).pairwise
  change f.table.lines.Pairwise _ at h
  rw [← map_line_maskedLines, List.pairwise_map] at h
  exact h.imp fun hab => hab.2

/-- Two lines of a file are the same or one lies above the other. -/
theorem eq_or_stop_le_offset {x y : MaskedLine} (hx : x ∈ f.maskedLines) (hy : y ∈ f.maskedLines) :
    x = y ∨ x.line.stop ≤ y.line.offset ∨ y.line.stop ≤ x.line.offset := by
  obtain ⟨above, below, hlines⟩ := List.append_of_mem hx
  have h := pairwise_maskedLines f
  rw [hlines] at h hy
  obtain ⟨-, hbelow, hcross⟩ := List.pairwise_append.mp h
  rcases List.mem_append.mp hy with hy | hy
  · exact Or.inr (Or.inr (hcross y hy x (by simp)))
  rcases List.mem_cons.mp hy with rfl | hy
  · exact Or.inl rfl
  · exact Or.inr (Or.inl ((List.pairwise_cons.mp hbelow).1 y hy))

/-- A line of the file is found by its offsets. -/
theorem lineAt_eq_ok {l : MaskedLine} {x : Int} (hl : l ∈ f.maskedLines)
    (hlow : (l.line.offset : Int) ≤ x) (hhigh : x < l.line.stop) :
    f.table.lineAt x = .ok l.line := by
  refine LineTable.lineAt_eq_ok ?_ hlow hhigh
  change l.line ∈ f.table.lines
  rw [← map_line_maskedLines]
  exact List.mem_map_of_mem hl

/-! ### Below a comment -/

namespace Attachment

/-- The range ends with the line the search came upon. -/
theorem exists_last (a : Attachment f d r) :
    ∃ last above, a.upward = last :: above ∧ last.line.offset < last.line.contentEnd ∧
      r.stop = last.line.contentEnd ∧ r.location < r.stop := by
  obtain ⟨first, last, hfirst, hlast, hrange⟩ := a.isRangeOf
  obtain ⟨more, hrun⟩ := List.head?_eq_some_iff.mp hlast
  have hupward := a.upward_line
  rw [hrun, List.cons_append] at hupward
  obtain ⟨x, above, hx, rfl, -⟩ := List.map_eq_cons_iff.mp hupward
  have hfirstText := a.commentRun.first_not_blank first hfirst
  have hlastText := a.commentRun.last_not_blank x.line hlast
  have horder := LineTable.textOffset_lt_contentEnd a.table_lines (by simpa using hfirst)
    (by simpa using hlast) hfirstText hlastText
  have hlow := x.line.offset_le_textOffset
  have hhigh := Line.textOffset_lt hlastText
  have hstop : r.stop = x.line.contentEnd := by rw [hrange, stop_rangeOfLines]
  refine ⟨x, above, hx, by omega, hstop, ?_⟩
  rw [hstop, hrange]
  simp only [rangeOfLines]
  omega

/-- **Right below a comment there is a line of code**, an attribute or the declaration. -/
theorem code_below (a : Attachment f d r) :
    ∃ x ∈ f.maskedLines, Text.allBlank x.masked = false ∧ r.stop ≤ x.line.offset ∧
      ∀ y ∈ f.maskedLines, r.stop ≤ y.line.offset → x.line.offset ≤ y.line.offset := by
  obtain ⟨last, above, hupward, hlast, hstop, -⟩ := a.exists_last
  obtain ⟨x, more, hmore, hcode⟩ : ∃ x more,
      a.attributes.reverse ++ a.keyword :: a.below = x :: more ∧
        Text.allBlank x.masked = false := by
    cases hattributes : a.attributes.reverse with
    | nil => exact ⟨a.keyword, a.below, rfl, a.keyword_code⟩
    | cons x more =>
        refine ⟨x, _, rfl, a.attributeLines.top_code x ?_⟩
        rw [← List.head?_reverse, hattributes]
        rfl
  have hlines : f.maskedLines = above.reverse ++ last :: x :: more := by
    rw [a.lines_eq, hupward, ← hmore]
    simp
  have hpair := pairwise_maskedLines f
  rw [hlines] at hpair
  obtain ⟨-, hbehind, hcross⟩ := List.pairwise_append.mp hpair
  obtain ⟨hlastLe, hmoreLe⟩ := List.pairwise_cons.mp hbehind
  have hlastStop := last.line.contentEnd_le_stop
  have hxLe := hlastLe x (by simp)
  refine ⟨x, by rw [hlines]; simp, hcode, by omega, ?_⟩
  intro y hy hle
  rw [hlines] at hy
  simp only [List.mem_append, List.mem_cons] at hy
  rcases hy with hy | rfl | rfl | hy
  · have hyLe := hcross y hy last (by simp)
    have hyStop : y.line.stop = y.line.offset + y.line.length := rfl
    omega
  · omega
  · exact Nat.le_refl _
  · have hyLe := (List.pairwise_cons.mp hmoreLe).1 y hy
    have hxStop : x.line.stop = x.line.offset + x.line.length := rfl
    omega

/-- The lines behind a comment are told by where they begin. -/
theorem takeWhile_append_upward (a : Attachment f d r) {lines after : List MaskedLine}
    (h : f.maskedLines = (lines ++ a.upward).reverse ++ after) :
    ((lines ++ a.upward).takeWhile fun l => r.stop ≤ l.line.offset) = lines := by
  obtain ⟨last, above, hupward, hlast, hstop, -⟩ := a.exists_last
  have hpair := pairwise_maskedLines f
  rw [h, hupward] at hpair
  have hcross := (List.pairwise_append.mp hpair).1
  rw [List.pairwise_reverse] at hcross
  rw [hupward, takeWhile_append_of_stop]
  · intro l hl
    have hle := (List.pairwise_append.mp hcross).2.2 l hl last (by simp)
    have hlastStop := last.line.contentEnd_le_stop
    simp
    omega
  · intro l hl
    obtain rfl : last = l := by simpa using hl
    simp
    omega

end Attachment

/-! ### Two declarations -/

/-- The lines above a declaration that begin behind a range, nearest first. -/
def linesBetween (f : SourceFile) (r : ByteRange) (d : Declaration) : List MaskedLine :=
  (linesAbove f.maskedLines d.offset).takeWhile fun l => r.stop ≤ l.line.offset

/-- The range `s` begins before `r` ends and runs on over code: a line with code lies behind `r`
and in front of the end of `s`. -/
def RunsOn (f : SourceFile) (r s : ByteRange) : Prop :=
  s.location < r.stop ∧ ∃ l ∈ f.maskedLines, Text.allBlank l.masked = false ∧
    r.stop ≤ l.line.offset ∧ l.line.contentEnd ≤ s.stop

/-- Of two comments that overlap the one that ends later runs over code. -/
theorem runsOn_of_overlaps (a : Attachment f d r) (b : Attachment f e s) (h : r.Overlaps s)
    (hlt : r.stop < s.stop) : f.RunsOn r s := by
  obtain ⟨last, above, hlast, hlastLt, hstop, -⟩ := a.exists_last
  obtain ⟨last', above', hlast', hlastLt', hstop', -⟩ := b.exists_last
  have hmem : last ∈ f.maskedLines := by
    rw [a.lines_eq, hlast]
    simp
  have hmem' : last' ∈ f.maskedLines := by
    rw [b.lines_eq, hlast']
    simp
  have hend' := last'.line.contentEnd_le_stop
  obtain ⟨x, hx, hcode, hbehind, hfirst⟩ := a.code_below
  have hlow : r.stop ≤ last'.line.offset := by
    have hend := last.line.contentEnd_le_stop
    rcases eq_or_stop_le_offset hmem hmem' with rfl | hle | hle
    · omega
    · omega
    · omega
  have hxle := hfirst last' hmem' hlow
  refine ⟨h.2, x, hx, hcode, hbehind, ?_⟩
  have hend := x.line.contentEnd_le_stop
  rcases eq_or_stop_le_offset hx hmem' with rfl | hle | hle
  · omega
  · omega
  · omega

/-- The search for the comment of a lower declaration comes upon that of an upper one. -/
theorem search_eq_linesBetween (a : Attachment f d r) (b : Attachment f e s)
    (h : a.keyword.line.offset < b.keyword.line.offset) :
    linesAbove f.maskedLines e.offset = f.linesBetween r e ++ a.upward := by
  have hcut := a.lines_eq.symm.trans b.lines_eq
  rw [List.reverse_append, List.append_assoc] at hcut
  obtain ⟨w, hw⟩ : ∃ w, (b.attributes ++ b.upward).reverse = a.upward.reverse ++ w := by
    rcases List.append_eq_append_iff.mp hcut with ⟨w, hw, -⟩ | ⟨w, hw, hrest⟩
    · exact ⟨w, hw⟩
    cases w with
    | nil => exact ⟨[], by rw [hw]; simp⟩
    | cons x w =>
        -- The lower declaration would stand above the comment of the upper one.
        obtain ⟨rfl, -⟩ := List.cons.inj hrest
        have hpair := pairwise_maskedLines f
        rw [a.lines_eq] at hpair
        have hle := (List.pairwise_append.mp hpair).2.2 b.keyword
          (by rw [List.reverse_append, hw]; simp) a.keyword (by simp)
        have hstop : b.keyword.line.stop = b.keyword.line.offset + b.keyword.line.length := rfl
        omega
  have hlines : b.attributes ++ b.upward = w.reverse ++ a.upward := by
    rw [← List.reverse_inj, hw]
    simp
  have hfile := b.lines_eq
  rw [hlines] at hfile
  unfold linesBetween
  rw [b.search_eq, hlines, a.takeWhile_append_upward hfile]

theorem keyword_lt (a : Attachment f d r) (b : Attachment f e s) (habove : d.offset ≤ e.offset)
    (hline : f.table.lineAt d.offset ≠ f.table.lineAt e.offset) :
    a.keyword.line.offset < b.keyword.line.offset := by
  have hmem : a.keyword ∈ f.maskedLines := by
    rw [a.lines_eq]
    simp
  have hmem' : b.keyword ∈ f.maskedLines := by
    rw [b.lines_eq]
    simp
  have hlow := a.offset_le
  have hhigh := a.offset_lt
  have hlow' := b.offset_le
  have hhigh' := b.offset_lt
  have hend := a.keyword.line.contentEnd_le_stop
  have hend' := b.keyword.line.contentEnd_le_stop
  rcases eq_or_stop_le_offset hmem hmem' with heq | hle | hle
  · refine absurd ?_ hline
    have hat := lineAt_eq_ok hmem (x := d.offset) (by omega) (by omega)
    have hat' := lineAt_eq_ok hmem' (x := e.offset) (by omega) (by omega)
    rw [hat, hat', heq]
  · omega
  · omega

/-- With attributes only in between both searches come upon the same comment. -/
theorem overlaps_of_attributeLines (a : Attachment f d r) (b : Attachment f e s)
    (hkeyword : a.keyword.line.offset < b.keyword.line.offset)
    (h : AttributeLines (f.linesBetween r e)) : r.Overlaps s := by
  obtain ⟨last, above, hlast, hlastLt, hstop, hnonempty⟩ := a.exists_last
  obtain ⟨last', above', hlast', hlastLt', hstop', hnonempty'⟩ := b.exists_last
  have hsearch := search_eq_linesBetween a b hkeyword
  have hdrop : a.upward = b.upward := by
    have hd := dropAttributes_append h a.upward
    have he := dropAttributes_append b.attributeLines b.upward
    rw [← hsearch, dropAttributes_of_none a.upward_eq] at hd
    rw [← b.search_eq, dropAttributes_of_none b.upward_eq] at he
    exact hd.symm.trans he
  rw [hlast, hlast'] at hdrop
  obtain ⟨rfl, -⟩ := List.cons.inj hdrop
  exact ⟨by omega, by omega⟩

theorem RunsOn.overlaps (h : f.RunsOn r s) (hnonempty : r.location < r.stop) : r.Overlaps s := by
  obtain ⟨hlt, l, -, -, hlow, hhigh⟩ := h
  have hend : l.line.contentEnd = l.line.offset + l.line.contentLength := rfl
  exact ⟨by omega, hlt⟩

/-- **Two comments overlap in two cases only.**  Either all lines between the comment of the upper
declaration and the lower declaration are read as attributes, the line of the upper declaration
among them, or one comment begins before the other ends and runs on over code. -/
theorem docRanges_overlap_iff (hd : d ∈ f.declarations) (he : e ∈ f.declarations)
    (habove : d.offset ≤ e.offset) (hline : f.table.lineAt d.offset ≠ f.table.lineAt e.offset)
    (hr : d.docRange = some r) (hs : e.docRange = some s) :
    r.Overlaps s ↔ AttributeLines (f.linesBetween r e) ∨ f.RunsOn r s ∨ f.RunsOn s r := by
  obtain ⟨a⟩ := exists_attachment hd hr
  obtain ⟨b⟩ := exists_attachment he hs
  constructor
  · intro hoverlap
    rcases Int.lt_trichotomy r.stop s.stop with hlt | heq | hlt
    · exact Or.inr (Or.inl (runsOn_of_overlaps a b hoverlap hlt))
    · refine Or.inl ?_
      unfold linesBetween
      rw [heq, b.search_eq, b.takeWhile_append_upward b.lines_eq]
      exact b.attributeLines
    · exact Or.inr (Or.inr (runsOn_of_overlaps b a ⟨hoverlap.2, hoverlap.1⟩ hlt))
  · obtain ⟨-, -, -, -, -, hnonempty⟩ := a.exists_last
    obtain ⟨-, -, -, -, -, hnonempty'⟩ := b.exists_last
    rintro (hattributes | hruns | hruns)
    · exact overlaps_of_attributeLines a b (keyword_lt a b habove hline) hattributes
    · exact hruns.overlaps hnonempty
    · have hoverlap := hruns.overlaps hnonempty'
      exact ⟨hoverlap.2, hoverlap.1⟩

/-- Two functions, each below its comment. -/
def eachDocumented : SourceFile := ⟨"/// A\nfunc a()\n/// B\nfunc b()".toList, none⟩

/-- Their comments lie apart, hence neither case applies. -/
theorem docRanges_apart :
    ¬(AttributeLines (eachDocumented.linesBetween ⟨0, 5⟩ ⟨⟨.function, "b".toList⟩, 21, [], some ⟨15, 5⟩⟩)
      ∨ eachDocumented.RunsOn ⟨0, 5⟩ ⟨15, 5⟩ ∨ eachDocumented.RunsOn ⟨15, 5⟩ ⟨0, 5⟩) := by
  have hdeclarations : eachDocumented.declarations =
      [⟨⟨.function, "a".toList⟩, 6, [], some ⟨0, 5⟩⟩,
        ⟨⟨.function, "b".toList⟩, 21, [], some ⟨15, 5⟩⟩] := by cbv
  have hline : eachDocumented.table.lineAt 6 ≠ eachDocumented.table.lineAt 21 := by
    decide
  rw [← docRanges_overlap_iff (d := ⟨⟨.function, "a".toList⟩, 6, [], some ⟨0, 5⟩⟩)
    (by rw [hdeclarations]; simp) (by rw [hdeclarations]; simp) (by decide) hline rfl rfl]
  simp [ByteRange.Overlaps, ByteRange.stop]

/-- A function with an attribute on its line, and one below without a comment. -/
def attributeOnLine : SourceFile := ⟨"/// Doc A.\n@objc func a() \x7b\x7d\nfunc b() \x7b\x7d\n".toList, none⟩

/-- The comment of the upper function is taken for that of the lower one as well. -/
theorem docRanges_shared :
    attributeOnLine.declarations =
        [⟨⟨.function, "a".toList⟩, 17, [], some ⟨0, 10⟩⟩,
          ⟨⟨.function, "b".toList⟩, 29, [], some ⟨0, 10⟩⟩] ∧
      attributeOnLine.table.lineAt 17 ≠ attributeOnLine.table.lineAt 29 ∧
      ByteRange.Overlaps ⟨0, 10⟩ ⟨0, 10⟩ := by
  refine ⟨by cbv, ?_, by simp [ByteRange.Overlaps, ByteRange.stop]⟩
  decide

end SourceFile

end DocLint
