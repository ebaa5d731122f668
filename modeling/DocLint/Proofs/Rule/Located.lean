/-
Where the findings of a rule stand.

A rule has something to say about every declaration of a file, and says it without ever
looking up a place that is not there: `Settled` has one case for each way it can end.  A
finding stands at the first text of a line, inside the comment of its declaration, and
its line and character lead back to its offset (`LocatedIn`).

The place of a verdict is traced back through the slicing by `Check.place_of_invalid`;
what is known of the lines of a comment does the rest.
-/
import DocLint.Proofs.Check.Decision
import DocLint.Proofs.Doc.Origin
import DocLint.Proofs.Swift.Coverage
import DocLint.Proofs.Swift.Keyword
import DocLint.Rule.Basic

namespace DocLint

/-! ### Verdicts -/

open Doc in
/-- **A verdict has the place of the comment or that of a line of its range with text on it.** -/
theorem Check.place_of_invalid {config : Configuration} {names : List Text} {table : LineTable}
    {range : ByteRange} {offset : Int} {defect : Defect}
    (h : Check.range config names table range = .ok (.invalid offset defect)) :
    ∃ lines, table.linesInRange range = .ok lines ∧ (offset = range.location ∨
      ∃ x ∈ lines, Text.allBlank x.content = false ∧ offset = x.textOffset) := by
  have hnames : config.minimalNumberOfParameters ≤ names.length := by
    by_contra hfew
    unfold Check.range at h
    rw [if_pos (by simpa [isExempt] using hfew)] at h
    simp at h
  rw [range_eq hnames] at h
  cases hslice : slice range table with
  | error e =>
      rw [hslice] at h
      simp [Except.map] at h
  | ok docLines =>
      rw [hslice] at h
      obtain ⟨lines, hlines, hplaced⟩ := slice_placedIn hslice
      refine ⟨lines, hlines, ?_⟩
      obtain ⟨hentry, hother⟩ := offset_of_comment_eq_invalid hnames (Except.ok.inj h)
      by_cases hcounted : ∃ entries, Counted config names docLines entries
      · obtain ⟨entries, hcounted⟩ := hcounted
        obtain ⟨e, p, hfirst, hoffset⟩ := hentry entries hcounted
        obtain ⟨summary, parameters, list, hparts, -, -, hlist, rfl⟩ := hcounted.parts
        have he : e ∈ list.entries := by
          obtain ⟨before, after, -, -, hsplit, -⟩ := hfirst
          rw [hsplit]
          simp
        obtain ⟨hmem, hblank⟩ := line_of_ofLines hlist e he
        obtain ⟨x, hx, hplace, htext⟩ := hplaced e.line (hparts.subset hmem)
        exact Or.inr ⟨x, hx, htext hblank, by rw [hoffset, hplace]⟩
      · exact Or.inl (hother hcounted)

/-- A range is refused only when it cannot be sliced. -/
theorem Check.slice_of_range_error {config : Configuration} {names : List Text} {table : LineTable}
    {range : ByteRange} {e : RangeError} (h : Check.range config names table range = .error e) :
    Doc.slice range table = .error e := by
  unfold Check.range at h
  split at h
  · simp at h
  · cases hslice : Doc.slice range table with
    | error e' =>
        rw [hslice] at h
        exact congrArg Except.error (Except.error.inj h)
    | ok lines =>
        rw [hslice] at h
        simp [Except.map] at h

/-! ### Places in a comment -/

namespace SourceFile

open Swift

variable {f : SourceFile} {d : Declaration} {range : ByteRange}

/-- The first text of every line of a comment lies in its range. -/
theorem Attachment.textOffset_mem (a : Attachment f d range) {l : Line} (hl : l ∈ a.run)
    (hblank : Text.allBlank l.content = false) :
    range.location ≤ l.textOffset ∧ (l.textOffset : Int) < range.stop := by
  obtain ⟨first, last, hfirst, hlast, rfl⟩ := a.isRangeOf
  refine ⟨?_, ?_⟩
  · obtain ⟨more, after, hmore, hlines⟩ := a.table_lines_first hfirst
    have hmem : l ∈ first :: more := by
      rw [← hmore]
      simpa using hl
    show (first.textOffset : Int) ≤ l.textOffset
    rcases List.mem_cons.mp hmem with rfl | hmem
    · exact Int.le_refl _
    · have hbelow := ((LineTable.order_of_append (t := f.contents) hlines).2 l (by simp [hmem])).2
      have hfirstText := Line.textOffset_lt (a.commentRun.first_not_blank first hfirst)
      have hfirstStop := first.contentEnd_le_stop
      have htext := l.offset_le_textOffset
      omega
  · obtain ⟨above, below, hsplit⟩ := List.append_of_mem (List.mem_reverse.mpr hl)
    have hend : (l :: below).getLast? = some last := by
      have hreverse : a.run.reverse.getLast? = some last := by simpa using hlast
      rwa [hsplit, List.getLast?_append_of_ne_nil _ (List.cons_ne_nil _ _)] at hreverse
    have hlines := a.table_lines
    rw [hsplit, ← List.append_assoc a.rest.reverse] at hlines
    have hlt := LineTable.textOffset_lt_contentEnd (t := f.contents) hlines rfl hend hblank
      (a.commentRun.last_not_blank last hlast)
    rw [stop_rangeOfLines]
    exact Int.ofNat_lt.mpr hlt

/-- A range that is not refused covers the lines of the comment. -/
theorem Attachment.linesInRange_eq (a : Attachment f d range) {lines : List Line}
    (h : f.table.linesInRange range = .ok lines) : lines = a.run.reverse := by
  obtain ⟨first, last, hfirst, hlast, rfl⟩ := a.isRangeOf
  have hrange := linesInRange_rangeOfLines (t := f.contents) a.table_lines (by simpa using hfirst)
    (by simpa using hlast) (a.commentRun.first_not_blank first hfirst)
    (a.commentRun.last_not_blank last hlast)
  change f.table.linesInRange _ = _ at hrange
  rw [h] at hrange
  split at hrange
  · exact Except.ok.inj hrange
  · simp at hrange

/-- **The place of a verdict is the first text of a line of the comment.** -/
theorem place_of_invalid (hd : d ∈ f.declarations) (hrange : d.docRange = some range)
    {config : Configuration} {names : List Text} {offset : Int} {defect : Defect}
    (h : Check.range config names f.table range = .ok (.invalid offset defect)) :
    ∃ l ∈ f.table.lines, Text.allBlank l.content = false ∧ offset = l.textOffset ∧
      range.location ≤ offset ∧ offset < range.stop := by
  obtain ⟨a⟩ := exists_attachment hd hrange
  obtain ⟨l, hl, hblank, rfl⟩ : ∃ l ∈ a.run, Text.allBlank l.content = false ∧
      offset = l.textOffset := by
    obtain ⟨lines, hlines, hstart | ⟨l, hl, hblank, hoffset⟩⟩ := Check.place_of_invalid h
    · obtain ⟨first, last, hfirst, -, hrangeOf⟩ := a.isRangeOf
      refine ⟨first, List.mem_of_getLast? hfirst, a.commentRun.first_not_blank first hfirst, ?_⟩
      rw [hstart, hrangeOf]
      rfl
    · rw [a.linesInRange_eq hlines] at hl
      exact ⟨l, List.mem_reverse.mp hl, hblank, hoffset⟩
  obtain ⟨hlow, hhigh⟩ := a.textOffset_mem hl hblank
  refine ⟨l, ?_, hblank, rfl, hlow, hhigh⟩
  rw [a.table_lines]
  simp [hl]

/-- A comment is refused for the blanks before its first mark only. -/
theorem eq_of_range_error (hd : d ∈ f.declarations) (hrange : d.docRange = some range)
    {config : Configuration} {names : List Text} {e : RangeError}
    (h : Check.range config names f.table range = .error e) : e = ⟨range, .startsInsideLine⟩ := by
  obtain ⟨a⟩ := exists_attachment hd hrange
  have herror : Doc.slice range (.ofText f.contents) = .error e := Check.slice_of_range_error h
  obtain ⟨first, -, hascii, hother⟩ := Doc.slice_isRangeOf (t := f.contents) a.table_lines
    a.commentRun a.isRangeOf
  cases hall : (Text.leadingBlanks first.content).all Text.isAsciiBlank with
  | true =>
      obtain ⟨lines, hslice⟩ := hascii hall
      rw [hslice] at herror
      simp at herror
  | false =>
      rw [hother hall] at herror
      exact (Except.error.inj herror).symm

end SourceFile

/-! ### Findings -/

/-- The finding stands at the first text of a line in the comment of the declaration, and its line
and character are those of its offset. -/
structure Violation.LocatedIn (f : SourceFile) (d : Declaration) (v : Violation) : Prop where
  path : v.location.path = f.path
  inside : ∃ range, d.docRange = some range ∧ range.location ≤ v.location.byteOffset ∧
    v.location.byteOffset < range.stop
  atText : ∃ l ∈ f.table.lines, Text.allBlank l.content = false ∧
    v.location.line = l.index + 1 ∧ v.location.byteOffset = l.textOffset
  found : ∃ n : Nat, f.table.byteOffset (v.location.line - 1) (v.location.character - 1) = .ok n ∧
    v.location.byteOffset = n

namespace Rule

/-- What a rule finds about a declaration.  There is a finding for every defect, and a comment is
refused for the blanks before its first mark only. -/
inductive Settled (rule : Rule) (f : SourceFile) (d : Declaration) : Prop
  | undocumented (hrange : d.docRange = none) (h : rule.checkDeclaration f.path f.table d = none)
  | refused {range : ByteRange} (hrange : d.docRange = some range)
      (hverdict : rule.verdict? f.table d = some (.error ⟨range, .startsInsideLine⟩))
      (h : rule.checkDeclaration f.path f.table d = none)
  | accepted (hverdict : rule.verdict? f.table d = some (.ok .valid))
      (h : rule.checkDeclaration f.path f.table d = none)
  | reported {offset : Int} {defect : Defect} {v : Violation}
      (hverdict : rule.verdict? f.table d = some (.ok (.invalid offset defect)))
      (h : rule.checkDeclaration f.path f.table d = some v)
      (hoffset : v.location.byteOffset = offset) (hplace : v.LocatedIn f d)

variable {rule : Rule} {f : SourceFile} {d : Declaration}

/-- A defect is never lost. -/
theorem exists_violation (hd : d ∈ f.declarations) {offset : Int} {defect : Defect}
    (h : rule.verdict? f.table d = some (.ok (.invalid offset defect))) :
    ∃ v, rule.checkDeclaration f.path f.table d = some v ∧ v.location.byteOffset = offset ∧
      v.LocatedIn f d := by
  have hverdict := h
  unfold verdict? at hverdict
  rw [Option.map_eq_some_iff] at hverdict
  obtain ⟨range, hrange, hcheck⟩ := hverdict
  obtain ⟨l, hl, hblank, rfl, hlow, hhigh⟩ := SourceFile.place_of_invalid hd hrange hcheck
  have hposition := LineTable.position_textOffset (t := f.contents) hl hblank
  have hlookup := LineTable.byteOffset_textOffset (t := f.contents) hl hblank
  change f.table.position _ = _ at hposition
  change f.table.byteOffset _ _ = _ at hlookup
  unfold checkDeclaration
  rw [h]
  simp only [violation?, Location.ofOffset, hposition, Except.map]
  refine ⟨_, rfl, rfl, rfl, ⟨range, hrange, hlow, hhigh⟩, ⟨l, hl, hblank, by simp, rfl⟩,
    l.textOffset, ?_, rfl⟩
  simpa using hlookup

/-- **Every declaration is settled**, and no lookup fails on the way. -/
theorem settled (rule : Rule) (hd : d ∈ f.declarations) : rule.Settled f d := by
  cases hrange : d.docRange with
  | none =>
      have hverdict : rule.verdict? f.table d = none := by
        unfold verdict?
        rw [hrange]
        rfl
      refine Settled.undocumented hrange ?_
      unfold checkDeclaration
      rw [hverdict]
  | some range =>
      have hverdict : rule.verdict? f.table d =
          some (Check.range rule.configuration d.parameterNames f.table range) := by
        unfold verdict?
        rw [hrange]
        rfl
      cases hcheck : Check.range rule.configuration d.parameterNames f.table range with
      | error e =>
          obtain rfl := SourceFile.eq_of_range_error hd hrange hcheck
          rw [hcheck] at hverdict
          refine Settled.refused hrange hverdict ?_
          unfold checkDeclaration
          rw [hverdict]
      | ok outcome =>
          rw [hcheck] at hverdict
          cases outcome with
          | valid =>
              refine Settled.accepted hverdict ?_
              unfold checkDeclaration
              rw [hverdict]
          | invalid offset defect =>
              obtain ⟨v, hv, hoffset, hlocated⟩ := exists_violation hd hverdict
              exact Settled.reported hverdict hv hoffset hlocated

/-- A finding about a declaration is well placed. -/
theorem locatedIn_of_checkDeclaration (hd : d ∈ f.declarations) {v : Violation}
    (h : rule.checkDeclaration f.path f.table d = some v) : v.LocatedIn f d := by
  cases rule.settled hd with
  | undocumented _ hnone => simp [h] at hnone
  | refused _ _ hnone => simp [h] at hnone
  | accepted _ hnone => simp [h] at hnone
  | reported _ hsome _ hplace =>
      rw [h] at hsome
      obtain rfl := Option.some.inj hsome
      exact hplace

end Rule

end DocLint
