/-
Characters by line and column.

Lines have byte offsets, but a search in the text counts characters.  `lineAndColumn` finds the
line of a character by where the lines start in characters.  Its column there leads on to a byte
offset, which is the size of everything in front of the character (`characterOffset_eq`).
Line breaks are left out, because columns end where contents do.
-/
import DocLint.Proofs.Source.LineTable

namespace DocLint

/-- Terminators are ASCII. -/
theorem RawLine.byteSize_endingText (l : RawLine) : l.endingText.byteSize = l.endingText.length := by
  obtain ⟨content, ending⟩ := l
  rcases ending with _ | _ | _ | _
  · rfl
  · rfl
  · rfl
  · rfl

namespace LineTable

theorem length_text_eq (l : Line) :
    l.content.length + (l.length - l.contentLength) = l.raw.text.length := by
  have hbytes : l.length = l.contentLength + l.raw.endingText.length := by
    rw [← RawLine.byteSize_endingText]
    exact Text.byteSize_append _ _
  have hlength : l.raw.text.length = l.content.length + l.raw.endingText.length :=
    List.length_append
  omega

theorem text_cons (l : Line) (lines : List Line) : text ⟨l :: lines⟩ = l.raw.text ++ text ⟨lines⟩ :=
  List.flatMap_cons

theorem length_lineStarts (place : Nat) (lines : List Line) :
    (lineStarts place lines).length = lines.length := by
  induction lines generalizing place with
  | nil => rfl
  | cons l lines ih => rw [lineStarts, List.length_cons, ih, List.length_cons]

theorem lineStarts_append (place : Nat) (lines more : List Line) :
    lineStarts place (lines ++ more) =
      lineStarts place lines ++ lineStarts (place + (text ⟨lines⟩).length) more := by
  induction lines generalizing place with
  | nil => rfl
  | cons l lines ih =>
      rw [List.cons_append, lineStarts, lineStarts, ih, length_text_eq, text_cons,
        List.length_append, Nat.add_assoc, List.cons_append]

theorem le_of_mem_lineStarts {place x : Nat} {lines : List Line} (h : x ∈ lineStarts place lines) :
    x ≤ place + (text ⟨lines⟩).length := by
  induction lines generalizing place with
  | nil => simp [lineStarts] at h
  | cons l lines ih =>
      rw [lineStarts, length_text_eq] at h
      rw [text_cons, List.length_append]
      rcases List.mem_cons.mp h with rfl | h
      · exact Nat.le_add_right _ _
      · have hle := ih h
        omega

variable {t : Text}

/-- **A character is looked up in its line.** -/
theorem lineAndColumn_eq {table : LineTable} {above below : List Line} {l : Line}
    (hlines : table.lines = above ++ l :: below) {column : Nat}
    (hcolumn : column < l.raw.text.length) :
    table.lineAndColumn ((text ⟨above⟩).length + column) = (above.length, column) := by
  have htake : (lineStarts 0 table.lines).takeWhile (· ≤ (text ⟨above⟩).length + column) =
      lineStarts 0 above ++ [(text ⟨above⟩).length] := by
    rw [hlines, lineStarts_append, lineStarts, length_text_eq, List.append_cons, Nat.zero_add]
    refine takeWhile_append_of_stop ?_ ?_
    · intro x hx
      rcases List.mem_append.mp hx with hx | hx
      · have hle := le_of_mem_lineStarts hx
        simp
        omega
      · obtain rfl := List.mem_singleton.mp hx
        simp
    · intro x hx
      cases below with
      | nil => cases hx
      | cons next below =>
          obtain rfl := Option.some.inj hx
          simp
          omega
  unfold lineAndColumn
  rw [htake]
  simp [length_lineStarts]

/-- A character that is no line break stands in the content of a line. -/
theorem exists_column {i : Nat} {c : Char} (hi : t[i]? = some c) (hbreak : c ≠ '\r' ∧ c ≠ '\n') :
    ∃ above l below column, (ofText t).lines = above ++ l :: below ∧
      i = (text ⟨above⟩).length + column ∧ column < l.content.length ∧
      t.bytesBefore i = l.offset + l.content.bytesBefore column := by
  obtain ⟨hlt, -⟩ := List.getElem?_eq_some_iff.mp hi
  have hsize : t.bytesBefore i < t.byteSize := by
    have hall : t.bytesBefore t.length = t.byteSize := congrArg Text.byteSize List.take_length
    exact hall ▸ Text.bytesBefore_lt hlt hlt
  rw [← size_ofText] at hsize
  obtain ⟨l, hl, hlow, hhigh⟩ := exists_line (Int.natCast_nonneg _) (Int.ofNat_lt.mpr hsize)
  obtain ⟨above, below, hlines⟩ := List.append_of_mem hl
  obtain ⟨htext, habove⟩ := eq_append_of_lines hlines
  have hcut : t = text ⟨above⟩ ++ l.raw.text ++ text ⟨below⟩ := by
    rw [htext, RawLine.text]
    simp [Line.raw]
  have hstop : l.stop = l.offset + l.raw.text.byteSize := rfl
  obtain ⟨column, rfl, hcolumn⟩ := Text.exists_place hcut hi (by omega)
    (by rw [Text.byteSize_append]; omega)
  have hchar : (l.content ++ l.raw.endingText)[column]? = some c := hcolumn
  rcases Nat.lt_or_ge column l.content.length with hin | hout
  · rw [List.getElem?_append_left hin] at hchar
    exact ⟨above, l, below, column, hlines, rfl, hin,
      habove ▸ (Text.getElem?_of_part htext hchar).2⟩
  · rw [List.getElem?_append_right hout] at hchar
    rcases RawLine.eq_of_mem_endingText (List.mem_of_getElem? hchar) with rfl | rfl
    · exact absurd rfl hbreak.1
    · exact absurd rfl hbreak.2

/-- **The line and the column of a character lead to its byte offset.** -/
theorem characterOffset_eq {i : Nat} {c : Char} (hi : t[i]? = some c)
    (hbreak : c ≠ '\r' ∧ c ≠ '\n') : (ofText t).characterOffset i = .ok (t.bytesBefore i) := by
  obtain ⟨above, l, below, column, hlines, rfl, hcolumn, hbytes⟩ := exists_column hi hbreak
  have hinside : column < l.raw.text.length := by
    rw [← length_text_eq]
    omega
  have hlaid : LaidOut 0 0 (above ++ l :: below) := hlines ▸ laidOut_ofText t
  have hindex : above.length = l.index := by rw [hlaid.eq_of_append.1, Nat.zero_add]
  have hl : l ∈ (ofText t).lines := by
    rw [hlines]
    simp
  rw [characterOffset, lineAndColumn_eq hlines hinside, hbytes, hindex]
  exact byteOffset_index hl column

end LineTable

end DocLint
