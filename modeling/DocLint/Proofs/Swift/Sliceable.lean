/-
Can the comment of a declaration always be sliced?

It is found by one component and cut into lines by another, and a declaration whose
comment cannot be cut is passed over by every rule.  The two agree on the marks of a
comment, on banners, on what may follow a closing and on the ends of lines.  They do not
agree on blanks: the search looks at the characters before a mark, the slicing at their
bytes, and only ASCII white space is blank in both readings.
-/
import Mathlib
import DocLint.Proofs.Doc.Slice
import DocLint.Proofs.Swift.Declaration

namespace DocLint.SourceFile

open Swift

variable {f : SourceFile} {d : Declaration} {range : ByteRange}

/-- **The comment of a declaration is sliced exactly when all blanks before its first mark are
ASCII**, and a comment that is not sliced is refused for those blanks. -/
theorem slice_docRange (hd : d ∈ f.declarations) (hrange : d.docRange = some range) :
    ∃ first, f.table.lineAt range.location = .ok first ∧ range.location = first.textOffset ∧
      ((∃ lines, Doc.slice range f.table = .ok lines) ↔
        ∀ c ∈ Text.leadingBlanks first.content, Text.isAsciiBlank c = true) ∧
      ∀ e, Doc.slice range f.table = .error e → e = ⟨range, .startsInsideLine⟩ := by
  obtain ⟨a⟩ := exists_attachment hd hrange
  have hlines := a.table_lines
  obtain ⟨first, hfirst, hascii, hother⟩ :=
    Doc.slice_isRangeOf hlines a.commentRun a.isRangeOf
  obtain ⟨first', last, hfirst', -, rfl⟩ := a.isRangeOf
  obtain rfl : first = first' := by
    rw [hfirst] at hfirst'
    exact Option.some.inj hfirst'
  have hmem : first ∈ f.table.lines := by
    rw [hlines]
    simp [List.mem_of_getLast? hfirst]
  have hlow := first.offset_le_textOffset
  have htext := Line.textOffset_lt (a.commentRun.first_not_blank first hfirst)
  have hstop := first.contentEnd_le_stop
  have hat : f.table.lineAt (first.textOffset : Int) = .ok first :=
    LineTable.lineAt_eq_ok hmem (by omega) (by omega)
  refine ⟨first, hat, rfl, ?_, ?_⟩
  · rw [← List.all_eq_true]
    constructor
    · rintro ⟨lines, hslice⟩
      by_contra hall
      have herror := hother (by simpa using hall)
      change Doc.slice (rangeOfLines first last) f.table = _ at herror
      rw [hslice] at herror
      simp at herror
    · exact hascii
  · intro e he
    by_cases hall : (Text.leadingBlanks first.content).all Text.isAsciiBlank = true
    · obtain ⟨lines, hslice⟩ := hascii hall
      change Doc.slice (rangeOfLines first last) f.table = _ at hslice
      rw [he] at hslice
      simp at hslice
    · have herror := hother (by simpa using hall)
      change Doc.slice (rangeOfLines first last) f.table = _ at herror
      rw [he] at herror
      exact Except.error.inj herror

/-- A function below a comment with a blank before its mark. -/
def indentedBy (blank : Char) : SourceFile :=
  ⟨blank :: "/// Doc.\nfunc f(a: Int) \x7b\x7d\n".toList, none⟩

/-- Behind an ASCII space the comment is sliced. -/
theorem slice_docRange_space : ∃ lines, Doc.slice ⟨1, 8⟩ (indentedBy ' ').table = .ok lines := by
  have hdeclarations : (indentedBy ' ').declarations =
      [⟨⟨.function, "f".toList⟩, 10, ["a".toList], some ⟨1, 8⟩⟩] := by cbv
  obtain ⟨first, hat, -, hiff, -⟩ :=
    slice_docRange (f := indentedBy ' ') (d := ⟨⟨.function, "f".toList⟩, 10, ["a".toList], some ⟨1, 8⟩⟩)
      (by rw [hdeclarations]; simp) rfl
  have hfirst : (indentedBy ' ').table.lineAt 1 = .ok ⟨0, 0, " /// Doc.".toList, some .lf⟩ := by
    refine LineTable.lineAt_eq_ok ?_ (by decide) (by decide)
    decide
  obtain rfl := Except.ok.inj (hfirst.symm.trans hat)
  exact hiff.mpr (by decide)

/-- Behind a no-break space it is found, and refused. -/
theorem not_slice_docRange_noBreakSpace :
    (indentedBy '\u00a0').declarations =
        [⟨⟨.function, "f".toList⟩, 11, ["a".toList], some ⟨2, 8⟩⟩] ∧
      Doc.slice ⟨2, 8⟩ (indentedBy '\u00a0').table = .error ⟨⟨2, 8⟩, .startsInsideLine⟩ := by
  refine ⟨?_, ?_⟩
  · cbv
  · cbv

end DocLint.SourceFile
