/-
Which ranges cover whole lines.

A range is `Aligned` when it begins with the first text of a line, or among the ASCII blanks in
front of it, and ends where the content of a line ends or where its terminator does.  The lines
that it covers are those that share a byte with it (`IsRunOf`).  Any other range is refused, and
`Misaligned` says for what: of several things that are wrong with it the first is reported.

Both ends of a range that lies inside the file are looked up, and since every byte of the file is
on a line no lookup fails.  So each range is aligned or misaligned, one lemma says what becomes of
each of the two, and the main statement (`linesInRange_aligned`) needs nothing else.
-/
import DocLint.Proofs.Source.Partition

namespace DocLint

/-! ### Ranges and lines -/

namespace ByteRange

/-- Is the byte one of the range? -/
def Holds (r : ByteRange) (x : Int) : Prop := r.location ≤ x ∧ x < r.stop

/-- The range has a byte, and all of its bytes are those of a file of the size. -/
structure Inside (r : ByteRange) (size : Nat) : Prop where
  length_pos : 0 < r.length
  location_nonneg : 0 ≤ r.location
  stop_le : r.stop ≤ size

/-- All bytes of the content that stand in front of the range are ASCII white space. -/
def BeginsOn (r : ByteRange) (l : Line) : Prop :=
  ∀ (i : Nat) (b : UInt8), l.content.utf8[i]? = some b → (l.offset : Int) + i < r.location →
    Text.isBlankByte b = true

/-- The range ends with the content of the line or with its terminator. -/
def EndsOn (r : ByteRange) (l : Line) : Prop := r.stop = l.contentEnd ∨ r.stop = l.stop

end ByteRange

/-- The line and the range have a byte in common. -/
def Line.Meets (l : Line) (r : ByteRange) : Prop := ∃ x : Int, l.Holds x ∧ r.Holds x

variable {r : ByteRange} {l : Line}

/-- The bytes in front of the range are those that fit between the two beginnings. -/
theorem ByteRange.beginsOn_iff (h : (l.offset : Int) ≤ r.location) :
    r.BeginsOn l ↔
      (l.content.utf8.take (r.location - l.offset).toNat).all Text.isBlankByte = true := by
  rw [List.all_eq_true]
  constructor
  · intro hbegins b hb
    obtain ⟨i, hi⟩ := List.getElem?_of_mem hb
    rw [List.getElem?_take] at hi
    split at hi
    · exact hbegins i b hi (by omega)
    · simp at hi
  · intro hall i b hi hlt
    refine hall b (List.mem_of_getElem? (i := i) ?_)
    rw [List.getElem?_take, if_pos (by omega), hi]

theorem Line.meets_iff (hl : l.offset < l.stop) (hr : 0 < r.length) :
    l.Meets r ↔ (l.offset : Int) < r.stop ∧ r.location < l.stop := by
  have hstop : r.stop = r.location + r.length := rfl
  constructor
  · rintro ⟨x, ⟨hlow, hhigh⟩, hbegin, hend⟩
    exact ⟨by omega, by omega⟩
  · rintro ⟨hend, hbegin⟩
    rcases Int.le_total l.offset r.location with hle | hle
    · exact ⟨r.location, ⟨hle, hbegin⟩, ⟨Int.le_refl _, by omega⟩⟩
    · exact ⟨l.offset, ⟨Int.le_refl _, by omega⟩, ⟨hle, hend⟩⟩

namespace LineTable

/-- The range covers whole lines, but for ASCII blanks before the first and a terminator behind the
last. -/
structure Aligned (table : LineTable) (r : ByteRange) : Prop where
  inside : r.Inside table.size
  begins : ∃ first ∈ table.lines, first.Holds r.location ∧ r.BeginsOn first
  ends : ∃ last ∈ table.lines, last.Holds (r.stop - 1) ∧ r.EndsOn last

/-- What is wrong with a range first. -/
inductive Misaligned (table : LineTable) (r : ByteRange) : RangeError.Reason → Prop
  | empty (h : r.length ≤ 0) : Misaligned table r .empty
  | outsideFile (hlength : 0 < r.length) (h : r.location < 0 ∨ table.size < r.stop) :
      Misaligned table r (.outsideFile table.size)
  | startsInsideLine {first : Line} (h : r.Inside table.size) (hfirst : first ∈ table.lines)
      (hplace : first.Holds r.location) (hbegins : ¬r.BeginsOn first) :
      Misaligned table r .startsInsideLine
  | endsInsideLine {last : Line} (h : r.Inside table.size)
      (hbegins : ∃ first ∈ table.lines, first.Holds r.location ∧ r.BeginsOn first)
      (hlast : last ∈ table.lines) (hplace : last.Holds (r.stop - 1)) (hends : ¬r.EndsOn last) :
      Misaligned table r .endsInsideLine

/-- The lines are those that share a byte with the range, and stand together in the table. -/
structure IsRunOf (table : LineTable) (r : ByteRange) (lines : List Line) : Prop where
  place : ∃ before after, table.lines = before ++ lines ++ after ∧
    ∀ l ∈ before ++ after, ¬l.Meets r
  meets : ∀ l ∈ lines, l.Meets r

/-- The lines stand together in the table, from the one that the range begins on to the one that it
ends on. -/
structure Spans (table : LineTable) (r : ByteRange) (lines : List Line) : Prop where
  place : ∃ before after, table.lines = before ++ lines ++ after
  begins : ∃ first, lines.head? = some first ∧ first.Holds r.location ∧ r.BeginsOn first
  ends : ∃ last, lines.getLast? = some last ∧ last.Holds (r.stop - 1) ∧ r.EndsOn last

variable {t : Text} {first last : Line} {reason : RangeError.Reason}

/-! ### The ends of a range -/

/-- Both ends of a range inside the file are found. -/
theorem exists_ends (h : r.Inside (ofText t).size) :
    ∃ first ∈ (ofText t).lines, ∃ last ∈ (ofText t).lines,
      (first.Holds r.location ∧ (ofText t).lineAt r.location = .ok first) ∧
        last.Holds (r.stop - 1) ∧ (ofText t).lineAt (r.stop - 1) = .ok last := by
  have hlength := h.length_pos
  have hlow := h.location_nonneg
  have hhigh := h.stop_le
  have hstop : r.stop = r.location + r.length := rfl
  obtain ⟨first, hfirst, hfirstAt, hfirstPlace⟩ := exists_lineAt (t := t) hlow (by omega)
  obtain ⟨last, hlast, hlastAt, hlastPlace⟩ :=
    exists_lineAt (t := t) (show 0 ≤ r.stop - 1 by omega) (by omega)
  exact ⟨first, hfirst, last, hlast, ⟨hfirstPlace, hfirstAt⟩, hlastPlace, hlastAt⟩

open Classical in
/-- What is asked of a range inside the file, once it is known where it begins and ends. -/
theorem linesInRange_of_holds (h : r.Inside (ofText t).size) (hfirst : first ∈ (ofText t).lines)
    (hfirstPlace : first.Holds r.location) (hlast : last ∈ (ofText t).lines)
    (hlastPlace : last.Holds (r.stop - 1)) :
    (ofText t).linesInRange r =
      if ¬r.BeginsOn first then .error ⟨r, .startsInsideLine⟩
      else if ¬r.EndsOn last then .error ⟨r, .endsInsideLine⟩
      else .ok (((ofText t).lines.drop first.index).take (last.index + 1 - first.index)) := by
  have hfirstAt := lineAt_eq_ok hfirst hfirstPlace.1 hfirstPlace.2
  have hlastAt := lineAt_eq_ok hlast hlastPlace.1 hlastPlace.2
  have hbegins := ByteRange.beginsOn_iff (r := r) hfirstPlace.1
  have hends : (r.stop ≠ last.contentEnd ∧ r.stop ≠ last.stop) ↔ ¬r.EndsOn last := by
    unfold ByteRange.EndsOn
    rw [not_or]
  rw [linesInRange_of_lineAt h.length_pos h.location_nonneg h.stop_le hfirstAt hlastAt]
  simp only [hends, hbegins, Bool.not_eq_true]

/-- From one line to another that does not begin before it there is a run of lines. -/
theorem exists_run (hfirst : first ∈ (ofText t).lines) (hlast : last ∈ (ofText t).lines)
    (h : first.offset < last.stop) : ∃ before run after, (ofText t).lines = before ++ run ++ after ∧
      run.head? = some first ∧ run.getLast? = some last := by
  obtain ⟨above, below, hlines⟩ := List.append_of_mem hfirst
  rcases above_or_eq_or_below hlines hlast with ⟨-, -, hstop⟩ | rfl | ⟨hbelow, -, -⟩
  · omega
  · exact ⟨above, [last], below, by simpa using hlines, rfl, rfl⟩
  · obtain ⟨inner, after, rfl⟩ := List.append_of_mem hbelow
    refine ⟨above, first :: inner ++ [last], after, ?_, rfl, ?_⟩
    · simpa using hlines
    · rw [List.getLast?_append]
      rfl

/-- The lines of a range lie one behind the other. -/
theorem Spans.pairwise {lines : List Line} (h : (ofText t).Spans r lines) :
    lines.Pairwise fun a b => a.stop ≤ b.offset := by
  obtain ⟨before, after, hlines⟩ := h.place
  have hpair := (laidOut_ofText t).pairwise
  rw [hlines] at hpair
  have hrun := (List.pairwise_append.mp (List.pairwise_append.mp hpair).1).2.1
  exact hrun.imp fun hab => hab.2

/-- A line of a range is the first one or lies behind it. -/
theorem Spans.eq_or_stop_le_offset {lines : List Line} (h : (ofText t).Spans r lines)
    (hhead : lines.head? = some first) : ∀ l ∈ lines, l = first ∨ first.stop ≤ l.offset := by
  have hpair := h.pairwise
  obtain ⟨more, rfl⟩ := List.head?_eq_some_iff.mp hhead
  intro l hl
  exact (List.mem_cons.mp hl).imp_right ((List.pairwise_cons.mp hpair).1 l)

/-- A line of a range is the last one or lies in front of it. -/
theorem Spans.eq_or_stop_le_last {lines : List Line} (h : (ofText t).Spans r lines)
    (hend : lines.getLast? = some last) : ∀ l ∈ lines, l = last ∨ l.stop ≤ last.offset := by
  have hpair := h.pairwise
  obtain ⟨front, rfl⟩ := List.getLast?_eq_some_iff.mp hend
  intro l hl
  rcases List.mem_append.mp hl with habove | hsame
  · exact Or.inr ((List.pairwise_append.mp hpair).2.2 l habove last (by simp))
  · exact Or.inl (List.mem_singleton.mp hsame)

/-- The lines of a range are lines of the table. -/
theorem Spans.subset {table : LineTable} {lines : List Line} (h : table.Spans r lines) :
    lines ⊆ table.lines := by
  obtain ⟨before, after, hlines⟩ := h.place
  intro l hl
  rw [hlines]
  simp [hl]

/-- **The lines between the two ends are those that share a byte with the range.** -/
theorem Spans.isRunOf {lines : List Line} (h : (ofText t).Spans r lines) (hr : 0 < r.length) :
    (ofText t).IsRunOf r lines := by
  obtain ⟨before, after, hlines⟩ := h.place
  obtain ⟨first, hhead, ⟨hfirstLow, hfirstHigh⟩, -⟩ := h.begins
  obtain ⟨last, hend, ⟨hlastLow, hlastHigh⟩, -⟩ := h.ends
  have hpair := (laidOut_ofText t).pairwise
  rw [hlines] at hpair
  obtain ⟨hfront, -, hcross⟩ := List.pairwise_append.mp hpair
  have hbefore := (List.pairwise_append.mp hfront).2.2
  have hlong : ∀ l ∈ before ++ lines ++ after, l.offset < l.stop := by
    intro l hl
    rw [← hlines] at hl
    exact offset_lt_stop hl
  refine ⟨⟨before, after, hlines, ?_⟩, ?_⟩
  · intro l hl
    have hmem : l ∈ before ++ lines ++ after := by
      rcases List.mem_append.mp hl with hl | hl
      · simp [hl]
      · simp [hl]
    rw [Line.meets_iff (hlong l hmem) hr]
    rintro ⟨hstop, hlocation⟩
    rcases List.mem_append.mp hl with hl | hl
    · have hle := (hbefore l hl first (List.mem_of_head? hhead)).2
      omega
    · have hle := (hcross last (by simp [List.mem_of_getLast? hend]) l hl).2
      omega
  · -- A line of the run does not stop before the first one does, nor begin after the last one.
    intro l hl
    have hlt := hlong l (by simp [hl])
    have hlow : first.stop ≤ l.stop := by
      rcases h.eq_or_stop_le_offset hhead l hl with rfl | hle
      · exact Nat.le_refl _
      · omega
    have hhigh : l.offset ≤ last.offset := by
      rcases h.eq_or_stop_le_last hend l hl with rfl | hle
      · exact Nat.le_refl _
      · omega
    rw [Line.meets_iff hlt hr]
    exact ⟨by omega, by omega⟩

/-! ### What becomes of a range -/

/-- An aligned range is given the lines that it spans. -/
theorem Aligned.exists_lines (h : (ofText t).Aligned r) :
    ∃ lines, (ofText t).linesInRange r = .ok lines ∧ (ofText t).Spans r lines := by
  obtain ⟨hinside, ⟨first, hfirst, hfirstPlace, hbegins⟩, last, hlast, hlastPlace, hends⟩ := h
  have horder : first.offset < last.stop := by
    have hlength := hinside.length_pos
    have hstop : r.stop = r.location + r.length := rfl
    have hlow := hfirstPlace.1
    have hhigh := hlastPlace.2
    omega
  obtain ⟨before, lines, after, hlines, hhead, hend⟩ := exists_run hfirst hlast horder
  refine ⟨lines, ?_, ⟨before, after, hlines⟩, ⟨first, hhead, hfirstPlace, hbegins⟩,
    last, hend, hlastPlace, hends⟩
  rw [linesInRange_of_holds hinside hfirst hfirstPlace hlast hlastPlace, if_neg (not_not.mpr hbegins),
    if_neg (not_not.mpr hends), take_drop_index hlines hhead hend]

/-- A misaligned range is refused for what is wrong with it. -/
theorem Misaligned.linesInRange_eq (h : (ofText t).Misaligned r reason) :
    (ofText t).linesInRange r = .error ⟨r, reason⟩ := by
  cases h with
  | empty h =>
      unfold linesInRange
      rw [if_pos h]
  | outsideFile hlength h =>
      unfold linesInRange
      rw [if_neg (by omega), if_pos h]
  | startsInsideLine h hfirst hplace hbegins =>
      obtain ⟨-, -, last, hlast, -, hlastPlace, -⟩ := exists_ends h
      rw [linesInRange_of_holds h hfirst hplace hlast hlastPlace, if_pos hbegins]
  | endsInsideLine h hbegins hlast hplace hends =>
      obtain ⟨first, hfirst, hfirstPlace, hbegins⟩ := hbegins
      rw [linesInRange_of_holds h hfirst hfirstPlace hlast hplace, if_neg (not_not.mpr hbegins),
        if_pos hends]

/-- **A range is aligned, or something is wrong with it.** -/
theorem aligned_or_misaligned (t : Text) (r : ByteRange) :
    (ofText t).Aligned r ∨ ∃ reason, (ofText t).Misaligned r reason := by
  by_cases hlength : r.length ≤ 0
  · exact Or.inr ⟨_, .empty hlength⟩
  by_cases houtside : r.location < 0 ∨ (ofText t).size < r.stop
  · exact Or.inr ⟨_, .outsideFile (by omega) houtside⟩
  have hinside : r.Inside (ofText t).size := ⟨by omega, by omega, by omega⟩
  obtain ⟨first, hfirst, last, hlast, ⟨hfirstPlace, -⟩, hlastPlace, -⟩ := exists_ends hinside
  by_cases hbegins : r.BeginsOn first
  · by_cases hends : r.EndsOn last
    · exact Or.inl ⟨hinside, ⟨first, hfirst, hfirstPlace, hbegins⟩, last, hlast, hlastPlace, hends⟩
    · exact Or.inr ⟨_, .endsInsideLine hinside ⟨first, hfirst, hfirstPlace, hbegins⟩ hlast hlastPlace
        hends⟩
  · exact Or.inr ⟨_, .startsInsideLine hinside hfirst hfirstPlace hbegins⟩

/-- **A range that is accepted is aligned, and its lines are those that it spans.** -/
theorem of_linesInRange_eq_ok {lines : List Line} (h : (ofText t).linesInRange r = .ok lines) :
    (ofText t).Aligned r ∧ (ofText t).Spans r lines := by
  rcases aligned_or_misaligned t r with haligned | ⟨reason, hmisaligned⟩
  · obtain ⟨spanned, hok, hspans⟩ := haligned.exists_lines
    obtain rfl := Except.ok.inj (hok.symm.trans h)
    exact ⟨haligned, hspans⟩
  · simp [hmisaligned.linesInRange_eq] at h

/-- **A range is accepted exactly when it is aligned**, and is then given the lines that share a
byte with it.  Any other range is refused, for what is wrong with it first.  No lookup that this
takes fails: both ends of a range inside the file are on a line. -/
theorem linesInRange_aligned (t : Text) (r : ByteRange) :
    ((∃ lines, (ofText t).linesInRange r = .ok lines) ↔ (ofText t).Aligned r) ∧
      (∀ lines, (ofText t).linesInRange r = .ok lines → (ofText t).IsRunOf r lines) ∧
      (∀ e, (ofText t).linesInRange r = .error e ↔
        e.range = r ∧ (ofText t).Misaligned r e.reason) ∧
      (r.Inside (ofText t).size → ∃ first last, (ofText t).lineAt r.location = .ok first ∧
        (ofText t).lineAt (r.stop - 1) = .ok last) := by
  refine ⟨?_, ?_, ?_, ?_⟩
  · constructor
    · rintro ⟨lines, hlines⟩
      exact (of_linesInRange_eq_ok hlines).1
    · intro haligned
      obtain ⟨lines, hlines, -⟩ := haligned.exists_lines
      exact ⟨lines, hlines⟩
  · intro lines hlines
    obtain ⟨haligned, hspans⟩ := of_linesInRange_eq_ok hlines
    exact hspans.isRunOf haligned.inside.length_pos
  · rintro ⟨range, reason⟩
    constructor
    · intro herror
      rcases aligned_or_misaligned t r with haligned | ⟨reason', hmisaligned⟩
      · obtain ⟨lines, hok, -⟩ := haligned.exists_lines
        simp [hok] at herror
      · rw [hmisaligned.linesInRange_eq] at herror
        cases herror
        exact ⟨rfl, hmisaligned⟩
    · rintro ⟨rfl, hmisaligned⟩
      exact hmisaligned.linesInRange_eq
  · intro hinside
    obtain ⟨first, -, last, -, ⟨-, hfirst⟩, -, hlast⟩ := exists_ends hinside
    exact ⟨first, last, hfirst, hlast⟩

/-- Behind the content or behind the terminator a range may end, between CR and LF it may not. -/
example : (ofText "/// a\r\nb".toList).linesInRange ⟨0, 6⟩ = .error ⟨⟨0, 6⟩, .endsInsideLine⟩ ∧
    (ofText "/// a\r\nb".toList).linesInRange ⟨0, 5⟩ =
      (ofText "/// a\r\nb".toList).linesInRange ⟨0, 7⟩ := by decide

end LineTable

end DocLint
