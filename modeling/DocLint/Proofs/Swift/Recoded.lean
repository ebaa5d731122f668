/-
The declarations of a file with CR LF for every LF.

The lines of both files correspond, with their masks, so the search for a comment passes
over corresponding attributes and stops at corresponding lines (`docRange?_recoded`).  A
head stands on corresponding lines too, because its place is given by the text in front of
it.  What is left to tell the declarations apart are the byte offsets.
-/
import DocLint.Proofs.Doc.Slice
import DocLint.Proofs.Swift.Alike
import DocLint.Proofs.Swift.CarriageReturn
import DocLint.Proofs.Swift.Declaration

namespace DocLint

namespace Swift

variable {t : Text}

/-! ### Lines of a mask -/

/-- The same line of a file with CR LF for every LF, and the same mask of it. -/
structure MaskedLine.Recoded (l m : MaskedLine) : Prop where
  line : l.line.Recoded m.line
  masked : l.masked = m.masked
  unbroken : l.masked.Unbroken

theorem cr_not_mem_mask (h : '\r' ∉ t) : '\r' ∉ mask t := by
  intro hmem
  obtain ⟨c, hc, hmasks⟩ := exists_left_of_mem (mask_forall₂ t) hmem
  obtain rfl := (hmasks.break_iff (Or.inl rfl)).mp rfl
  exact h hc

/-- **The lines of both masks correspond.** -/
theorem maskedLines_recoded (hcr : '\r' ∉ t) (hrun : ∀ l ∈ lexemes t, ¬l.RunsOn) :
    List.Forall₂ MaskedLine.Recoded (maskedLines (.ofText t) (mask t))
      (maskedLines (.ofText (Text.crlf t)) (mask (Text.crlf t))) := by
  have hlines := LineTable.ofText_crlf hcr
  have hmasked := LineTable.ofText_crlf (cr_not_mem_mask hcr)
  rw [mask_crlf hrun]
  unfold maskedLines
  generalize (LineTable.ofText t).lines = ls at hlines
  generalize (LineTable.ofText (Text.crlf t)).lines = ms at hlines
  generalize (LineTable.ofText (mask t)).lines = ls' at hmasked
  generalize (LineTable.ofText (Text.crlf (mask t))).lines = ms' at hmasked
  induction hlines generalizing ls' ms' with
  | nil => exact List.Forall₂.nil
  | cons hline _ ih =>
      cases hmasked with
      | nil => exact List.Forall₂.nil
      | cons hmask hmore =>
          exact List.Forall₂.cons ⟨hline, hmask.content, hmask.unbroken⟩ (ih _ _ hmore)

variable {above above' ls ms : List MaskedLine}

theorem flatMap_text_recoded (h : List.Forall₂ MaskedLine.Recoded ls ms) :
    ms.flatMap MaskedLine.text = Text.crlf (ls.flatMap MaskedLine.text) := by
  induction h with
  | nil => rfl
  | @cons l m _ _ hlm _ ih =>
      have htext : m.text = Text.crlf l.text := by
        unfold MaskedLine.text
        rw [Text.crlf_append, Text.crlf_of_unbroken hlm.unbroken, ← hlm.masked, hlm.line.ending]
      rw [List.flatMap_cons, List.flatMap_cons, ih, htext, Text.crlf_append]

/-- **The search for a comment finds corresponding comments**, or none in either file. -/
theorem docRange?_recoded (h : List.Forall₂ MaskedLine.Recoded ls ms) :
    Option.Rel (SameComment Line.Recoded ((dropAttributes ls).map MaskedLine.line)
      ((dropAttributes ms).map MaskedLine.line)) (docRange? ls) (docRange? ms) :=
  docRange?_alike (fun _ _ hlm => hlm.content) (h.imp fun _ _ hlm => ⟨hlm.line, hlm.masked⟩)

end Swift

/-! ### Ranges of corresponding lines -/

/-- The same line of both tables. -/
structure LineTable.SameLine (table table' : LineTable) (l m : Line) : Prop where
  recoded : l.Recoded m
  left : l ∈ table.lines
  right : m ∈ table'.lines

/-- Ranges that cover the same lines of both tables, and begin on the same one. -/
structure ByteRange.Recoded (table table' : LineTable) (r r' : ByteRange) : Prop where
  lines : Agree (fun _ _ => True) (List.Forall₂ (table.SameLine table')) (table.linesInRange r)
    (table'.linesInRange r')
  start : ∃ x y, table.SameLine table' x y ∧ r.location = x.textOffset ∧ r'.location = y.textOffset

namespace Swift

/-- Comments on corresponding lines are cut out of the tables as such, or refused in both. -/
theorem SameComment.range {t u : Text} {lines lines' after after' : List Line}
    {range range' : ByteRange} (h : SameComment Line.Recoded lines lines' range range')
    (hl : (LineTable.ofText t).lines = lines.reverse ++ after)
    (hm : (LineTable.ofText u).lines = lines'.reverse ++ after') :
    range.Recoded (.ofText t) (.ofText u) range' := by
  obtain ⟨run, rest, run', rest', ⟨rfl, hcomment, first, last, hfirst, hlast, rfl⟩,
    ⟨rfl, hcomment', first', last', hfirst', hlast', rfl⟩, hruns⟩ := h.runs
  rw [List.reverse_append] at hl hm
  have hsame : List.Forall₂ ((LineTable.ofText t).SameLine (.ofText u)) run run' := by
    have hmem : ∀ l ∈ run, l ∈ (LineTable.ofText t).lines := by
      intro l hrun
      rw [hl]
      simp [hrun]
    have hmem' : ∀ m ∈ run', m ∈ (LineTable.ofText u).lines := by
      intro m hrun
      rw [hm]
      simp [hrun]
    have hleft := (List.forall₂_and_left _ _).mpr ⟨hmem, hruns⟩
    have hboth := (List.forall₂_and_left _ _).mpr ⟨hmem', List.Forall₂.flip hleft⟩
    exact (List.Forall₂.flip hboth).imp fun _ _ hlm => ⟨hlm.2.2, hlm.2.1, hlm.1⟩
  have hends : (LineTable.ofText t).SameLine (.ofText u) first first' := by
    have hrel := optionRel_getLast? hsame
    rw [hfirst, hfirst'] at hrel
    cases hrel with
    | some hlm => exact hlm
  refine ⟨?_, first, first', hends, rfl, rfl⟩
  rw [linesInRange_rangeOfLines hl (by simpa using hfirst) (by simpa using hlast)
      (hcomment.first_not_blank first hfirst) (hcomment.last_not_blank last hlast),
    linesInRange_rangeOfLines hm (by simpa using hfirst') (by simpa using hlast')
      (hcomment'.first_not_blank first' hfirst') (hcomment'.last_not_blank last' hlast'),
    hends.recoded.content]
  split
  · exact Agree.ok (List.rel_reverse hsame)
  · exact Agree.error trivial

end Swift

/-! ### Declarations -/

/-- The same declaration: the same names of parameters, below the same comment. -/
structure Declaration.Recoded (table table' : LineTable) (d e : Declaration) : Prop where
  parameterNames : d.parameterNames = e.parameterNames
  docRange : Option.Rel (ByteRange.Recoded table table') d.docRange e.docRange

namespace SourceFile

open Swift

/-- The file with CR LF for every LF. -/
def crlf (f : SourceFile) : SourceFile := { f with contents := Text.crlf f.contents }

variable {f : SourceFile} (hcr : '\r' ∉ f.contents) (hrun : ∀ l ∈ lexemes f.contents, ¬l.RunsOn)

include hcr hrun

/-- Above the keyword of a head both searches are given corresponding lines. -/
theorem linesAbove_recoded {before rest : Text} {c : Char} (hmask : mask f.contents = before ++ c :: rest)
    (hbreak : c ≠ '\r' ∧ c ≠ '\n') :
    ∃ above above' after after', List.Forall₂ MaskedLine.Recoded above above' ∧
      f.maskedLines = above.reverse ++ after ∧ f.crlf.maskedLines = above'.reverse ++ after' ∧
      linesAbove f.maskedLines (Text.byteSize (f.contents.take before.length)) = above ∧
      linesAbove f.crlf.maskedLines
        (Text.byteSize (f.crlf.contents.take (Text.crlf before).length)) = above' := by
  have hlines : List.Forall₂ MaskedLine.Recoded f.maskedLines f.crlf.maskedLines :=
    maskedLines_recoded hcr hrun
  have htext : f.maskedLines.flatMap MaskedLine.text = before ++ c :: rest := by
    rw [← hmask]
    exact maskedLines_flatMap_text f.contents
  obtain ⟨above, l, below, inner, more, hsplit, hl, rfl⟩ :=
    exists_line_of_flatMap_text hbreak.1 hbreak.2 htext
  have hlines' := hlines
  rw [hsplit] at hlines'
  obtain ⟨above', back, hsplit', habove, hback⟩ := exists_append_of_forall₂ hlines'
  obtain ⟨l', below', hline, -, rfl⟩ := List.forall₂_cons_left_iff.mp hback
  have hl' : l'.masked = inner ++ c :: more := by rw [← hline.masked, hl]
  have hinner : Text.Unbroken inner := fun d hd => hline.unbroken d (by rw [hl]; simp [hd])
  have hbefore : Text.crlf (above.flatMap MaskedLine.text ++ inner) =
      above'.flatMap MaskedLine.text ++ inner := by
    rw [Text.crlf_append, Text.crlf_of_unbroken hinner, flatMap_text_recoded habove]
  obtain ⟨hlow, hhigh⟩ := byteSize_take_mem_content hsplit hl
  obtain ⟨hlow', hhigh'⟩ := byteSize_take_mem_content hsplit' hl'
  have hstop := l.line.contentEnd_le_stop
  have hstop' := l'.line.contentEnd_le_stop
  refine ⟨above.reverse, above'.reverse, l :: below, l' :: below', List.rel_reverse habove,
    by rw [List.reverse_reverse, hsplit], by rw [List.reverse_reverse, hsplit'],
    linesAbove_eq hsplit hlow (by omega), ?_⟩
  rw [hbefore]
  exact linesAbove_eq hsplit' hlow' (by omega)

omit hcr hrun in
/-- The lines from the last one of a comment up stand in the table above the attributes. -/
theorem exists_table_lines {above after : List MaskedLine} (h : f.maskedLines = above.reverse ++ after) :
    ∃ below, f.table.lines = ((dropAttributes above).map MaskedLine.line).reverse ++ below := by
  obtain ⟨attributes, hattributes, -, -⟩ := exists_attributeLines above
  refine ⟨(attributes.map MaskedLine.line).reverse ++ after.map MaskedLine.line, ?_⟩
  rw [← map_line_maskedLines, h]
  conv_lhs => rw [hattributes]
  simp

/-- **Both files have the same declarations in the same order.** -/
theorem declarations_recoded :
    List.Forall₂ (Declaration.Recoded f.table f.crlf.table) f.declarations f.crlf.declarations := by
  have hheads := heads_crlf (mask f.contents)
  rw [← mask_crlf hrun] at hheads
  rw [declarations_eq, declarations_eq]
  refine List.rel_filterMap ?_ hheads
  intro h k hhead
  obtain ⟨before, c, rest, hmask, hbreak, hstart, hstart'⟩ := hhead.place
  obtain ⟨above, above', after, after', habove, hlines, hlines', hsearch, hsearch'⟩ :=
    linesAbove_recoded hcr hrun hmask hbreak
  obtain ⟨below, htable⟩ := exists_table_lines hlines
  obtain ⟨below', htable'⟩ := exists_table_lines hlines'
  have hdoc := docRange?_recoded habove
  beta_reduce
  rw [hhead.clause, hstart, hstart', hsearch, hsearch']
  cases h.clause with
  | none => exact Option.Rel.none
  | some clause =>
      refine Option.Rel.some ⟨(parameterNames_crlf clause).symm, ?_⟩
      show Option.Rel _ (docRange? above) (docRange? above')
      generalize docRange? above = x at hdoc ⊢
      generalize docRange? above' = y at hdoc ⊢
      cases hdoc with
      | none => exact Option.Rel.none
      | some hsame => exact Option.Rel.some (hsame.range htable htable')

end SourceFile

end DocLint
