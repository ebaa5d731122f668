/-
An excerpt of a text and its lines.

A text that ends with a line break leaves no line open, so what follows it is cut into lines
as if it stood alone, unless the break is a CR and the LF behind it belongs to it
(`Text.BreakBetween`).  A line feed is always the end of a line.  The lines of an excerpt that
begins and ends behind line feeds are found in the table of the whole, only numbered and
placed further on (`excerpt_lines`).

Wherever the lines of one table stand in another like that, its bytes are looked up there as
before (`lineAt_part`), and a range covers the same lines, or is refused for the same reason
(`linesInRange_part`).
-/
import DocLint.Proofs.Agree
import DocLint.Proofs.Source.LineTable

namespace DocLint

/-- The range as many bytes further on. -/
def ByteRange.shift (r : ByteRange) (bytes : Nat) : ByteRange := ⟨r.location + bytes, r.length⟩

/-- The line below as many lines more, behind as many bytes more. -/
def Line.shift (lines bytes : Nat) (l : Line) : Line :=
  { l with index := l.index + lines, offset := l.offset + bytes }

theorem Line.stop_shift (l : Line) (lines bytes : Nat) :
    (l.shift lines bytes).stop = l.stop + bytes := by
  show l.offset + bytes + l.length = l.offset + l.length + bytes
  omega

theorem Line.contentEnd_shift (l : Line) (lines bytes : Nat) :
    (l.shift lines bytes).contentEnd = l.contentEnd + bytes := by
  show l.offset + bytes + l.contentLength = l.offset + l.contentLength + bytes
  omega

/-! ### Cutting and numbering -/

/-- The text is empty or ends with a line break. -/
def Text.EndsInBreak (t : Text) : Prop := ∀ c, t.getLast? = some c → c = '\r' ∨ c = '\n'

/-- A line ends where the two texts meet: the first leaves none open, and they do not meet between
the CR and the LF of one terminator. -/
structure Text.BreakBetween (s t : Text) : Prop where
  endsInBreak : s.EndsInBreak
  apart : s.getLast? = some '\r' → t.head? ≠ some '\n'

theorem Text.getLast?_cons_of_some {c d : Char} {s : Text} (h : s.getLast? = some d) :
    (c :: s).getLast? = some d := by
  rw [List.getLast?_cons, h]
  rfl

theorem Text.BreakBetween.tail {c : Char} {s t : Text} (h : Text.BreakBetween (c :: s) t) :
    Text.BreakBetween s t :=
  ⟨fun _ hd => h.endsInBreak _ (getLast?_cons_of_some hd),
    fun hd => h.apart (getLast?_cons_of_some hd)⟩

/-- **Behind the end of a line the text is cut as if it stood alone.** -/
theorem splitLines_append_of_breakBetween {s t : Text} (h : Text.BreakBetween s t) :
    splitLines (s ++ t) = splitLines s ++ splitLines t := by
  fun_induction splitLines s with
  | case1 => rfl
  | case2 r ih =>
      show splitLines ('\r' :: '\n' :: (r ++ t)) = _
      rw [splitLines, ih h.tail.tail]
      rfl
  | case3 r hnot ih =>
      have hsplit : splitLines ('\r' :: (r ++ t)) = ⟨[], some .cr⟩ :: splitLines (r ++ t) := by
        rw [splitLines]
        intro u hu
        cases r with
        | nil => exact h.apart rfl (List.head?_eq_some_iff.mpr ⟨u, hu⟩)
        | cons d r =>
            obtain ⟨rfl, -⟩ := List.cons.inj hu
            exact hnot r rfl
      rw [List.cons_append, hsplit, ih h.tail]
      rfl
  | case4 r ih =>
      rw [List.cons_append, splitLines, ih h.tail]
      rfl
  | case5 c r _ hcr hlf hnil ih =>
      have hr := splitLines_flatMap_text r
      rw [hnil, List.flatMap_nil] at hr
      rw [← hr] at h
      rcases h.endsInBreak c rfl with rfl | rfl
      · exact absurd rfl hcr
      · exact absurd rfl hlf
  | case6 c r _ hcr hlf l more hcons ih =>
      rw [List.cons_append, splitLines_cons_of_not hcr hlf, ih h.tail, hcons]
      rfl

theorem Text.BreakBetween.cons {c : Char} {s t : Text} (h : Text.BreakBetween s t)
    (hc : s = [] → (c = '\r' ∨ c = '\n') ∧ (c = '\r' → t.head? ≠ some '\n')) :
    Text.BreakBetween (c :: s) t := by
  cases hlast : s.getLast? with
  | none =>
      obtain rfl := List.getLast?_eq_none_iff.mp hlast
      obtain ⟨hbreak, hapart⟩ := hc rfl
      refine ⟨?_, fun hcr => hapart (Option.some.inj hcr)⟩
      rintro d hd
      rwa [← Option.some.inj hd]
  | some d =>
      have hcons := Text.getLast?_cons_of_some (c := c) hlast
      refine ⟨?_, fun hcr => h.apart (hlast.trans (hcons.symm.trans hcr))⟩
      intro e he
      exact h.endsInBreak e (hlast.trans (hcons.symm.trans he))

/-- Where a line begins that is not the first, another one ends. -/
theorem breakBetween_of_splitLines {t : Text} {xs ys : List RawLine} (h : splitLines t = xs ++ ys)
    (hys : ys ≠ []) : Text.BreakBetween (xs.flatMap RawLine.text) (ys.flatMap RawLine.text) := by
  have hnil : ∀ u, Text.BreakBetween [] u := fun u => ⟨by simp [Text.EndsInBreak], by simp⟩
  fun_induction splitLines t generalizing xs with
  | case1 => exact absurd (List.append_eq_nil_iff.mp h.symm).2 hys
  | case2 r ih =>
      rcases List.cons_eq_append_iff.mp h with ⟨rfl, -⟩ | ⟨xs, rfl, hmore⟩
      · exact hnil _
      · exact ((ih hmore).cons fun _ => ⟨Or.inr rfl, by simp⟩).cons (by simp)
  | case3 r hnot ih =>
      rcases List.cons_eq_append_iff.mp h with ⟨rfl, -⟩ | ⟨xs, rfl, hmore⟩
      · exact hnil _
      · refine (ih hmore).cons fun hxs => ⟨Or.inl rfl, fun _ hhead => ?_⟩
        -- With no line between, what follows the CR is the rest of the text.
        have hr := splitLines_flatMap_text r
        rw [hmore, List.flatMap_append, hxs, List.nil_append] at hr
        obtain ⟨u, hu⟩ := List.head?_eq_some_iff.mp hhead
        exact hnot u (hr.symm.trans hu)
  | case4 r ih =>
      rcases List.cons_eq_append_iff.mp h with ⟨rfl, -⟩ | ⟨xs, rfl, hmore⟩
      · exact hnil _
      · exact (ih hmore).cons fun _ => ⟨Or.inr rfl, by simp⟩
  | case5 c r _ hcr hlf hnone ih =>
      rcases List.cons_eq_append_iff.mp h with ⟨rfl, -⟩ | ⟨xs, rfl, hmore⟩
      · exact hnil _
      · exact absurd (List.append_eq_nil_iff.mp hmore.symm).2 hys
  | case6 c r _ hcr hlf l more hcons ih =>
      rcases List.cons_eq_append_iff.mp h with ⟨rfl, -⟩ | ⟨xs, rfl, hmore⟩
      · exact hnil _
      · have hl : l.text ≠ [] := text_ne_nil_of_mem_splitLines l (by rw [hcons]; simp)
        have hlines : splitLines r = (l :: xs) ++ ys := by rw [hcons, hmore, List.cons_append]
        have hrest := ih hlines
        refine hrest.cons fun hempty => absurd hempty ?_
        rw [List.flatMap_cons]
        exact List.append_ne_nil_of_left_ne_nil hl _

/-- Nothing is left open: the text is empty or ends with a line feed. -/
def Text.EndsLine (t : Text) : Prop := ∀ c, t.getLast? = some c → c = '\n'

instance (t : Text) : Decidable t.EndsLine :=
  decidable_of_iff (t.getLast? = none ∨ t.getLast? = some '\n') <| by
    unfold Text.EndsLine
    cases t.getLast? with
    | none => simp
    | some c => simp

theorem Text.endsLine_unlines (lines : List Text) : (unlines lines).EndsLine := by
  intro c hc
  by_cases hlines : lines = []
  · rw [hlines] at hc
    cases hc
  · obtain ⟨p, hp⟩ := exists_unlines_eq hlines
    rw [hp] at hc
    simpa using hc.symm

theorem Text.EndsLine.breakBetween {s : Text} (h : s.EndsLine) (t : Text) :
    Text.BreakBetween s t :=
  ⟨fun c hc => Or.inr (h c hc), fun hcr => absurd (h _ hcr) (by decide)⟩

/-- Lines can be put in where a line ends. -/
theorem Text.BreakBetween.insert {s u t : Text} (h : Text.BreakBetween s t) (hu : u.EndsLine) :
    Text.BreakBetween (s ++ u) t := by
  cases hlast : u.getLast? with
  | none =>
      obtain rfl := List.getLast?_eq_none_iff.mp hlast
      rwa [List.append_nil]
  | some c =>
      have hwhole : Text.EndsLine (s ++ u) := by
        intro d hd
        rw [List.getLast?_append, hlast] at hd
        exact hu d (hlast.trans hd)
      exact hwhole.breakBetween t

namespace LineTable

theorem layOut_append (xs ys : List RawLine) (index offset : Nat) :
    layOut index offset (xs ++ ys) =
      layOut index offset xs ++
        layOut (index + xs.length) (offset + Text.byteSize (xs.flatMap RawLine.text)) ys := by
  induction xs generalizing index offset with
  | nil => rfl
  | cons x xs ih =>
      rw [List.cons_append, layOut, layOut, ih, List.length_cons, List.flatMap_cons,
        Text.byteSize_append, Nat.add_assoc, Nat.add_assoc, Nat.add_comm 1]
      rfl

theorem layOut_shift (xs : List RawLine) (index offset lines bytes : Nat) :
    layOut (index + lines) (offset + bytes) xs =
      (layOut index offset xs).map (Line.shift lines bytes) := by
  induction xs generalizing index offset with
  | nil => rfl
  | cons x xs ih =>
      have hindex : index + lines + 1 = index + 1 + lines := by omega
      have hoffset : offset + bytes + x.text.byteSize = offset + x.text.byteSize + bytes := by omega
      rw [layOut, hindex, hoffset, ih]
      rfl

theorem length_lines_ofText (t : Text) : (ofText t).lines.length = (splitLines t).length := by
  rw [← map_raw_ofText, List.length_map]

variable {a b c : Text}

/-- **Behind the end of a line the lines are those of what follows**, further on. -/
theorem lines_append (h : Text.BreakBetween a b) :
    (ofText (a ++ b)).lines =
      (ofText a).lines ++ (ofText b).lines.map (Line.shift (ofText a).lines.length a.byteSize) := by
  rw [length_lines_ofText]
  show layOut 0 0 (splitLines (a ++ b)) = _
  rw [splitLines_append_of_breakBetween h, layOut_append, splitLines_flatMap_text, layOut_shift]
  rfl

/-- Where a line of the table begins, a line ends in front. -/
theorem breakBetween_of_offset {l : Line} (hl : l ∈ (ofText (a ++ b)).lines)
    (hoffset : l.offset = a.byteSize) : Text.BreakBetween a b := by
  obtain ⟨above, below, hlines⟩ := List.append_of_mem hl
  have hlaid : LaidOut 0 0 (above ++ l :: below) := hlines ▸ laidOut_ofText (a ++ b)
  have htext : text ⟨above⟩ ++ text ⟨l :: below⟩ = a ++ b := by
    rw [← text_ofText (a ++ b), text, text, text, hlines, List.flatMap_append]
  have hbytes : (text ⟨above⟩).byteSize = a.byteSize := by
    rw [byteSize_text, ← hoffset, hlaid.eq_of_append.2, Nat.zero_add]
  have hfront : text ⟨above⟩ = a := by
    have htake := Text.takeBytes_append (text ⟨above⟩) (text ⟨l :: below⟩)
    rwa [hbytes, htext, Text.takeBytes_append, eq_comm] at htake
  rw [hfront, List.append_cancel_left_eq] at htext
  have hsplit : splitLines (a ++ b) = above.map Line.raw ++ (l :: below).map Line.raw := by
    rw [← map_raw_ofText, hlines, List.map_append]
  have hbreak := breakBetween_of_splitLines hsplit (by simp)
  rw [List.flatMap_map, List.flatMap_map] at hbreak
  rwa [← hfront, ← htext]

/-- The line that begins there is the first of what follows. -/
theorem exists_splitLines_of_offset {l : Line} (hl : l ∈ (ofText (a ++ b)).lines)
    (hoffset : l.offset = a.byteSize) : ∃ more, splitLines b = l.raw :: more := by
  have hlines := lines_append (breakBetween_of_offset hl hoffset)
  cases hsplit : (ofText b).lines with
  | nil =>
      have hmem := hl
      rw [hlines, hsplit, List.map_nil, List.append_nil] at hmem
      have hend := stop_le_size hmem
      have hstop := offset_lt_stop hl
      rw [size_ofText] at hend
      omega
  | cons x more =>
      have hfirst : x.shift (ofText a).lines.length a.byteSize ∈ (ofText (a ++ b)).lines := by
        rw [hlines, hsplit]
        simp
      have hx : LaidOut 0 0 ([] ++ x :: more) := hsplit ▸ laidOut_ofText b
      have hsame : l.offset = (x.shift (ofText a).lines.length a.byteSize).offset := by
        show l.offset = x.offset + a.byteSize
        rw [hoffset, hx.eq_of_append.2]
        exact (Nat.zero_add _).symm
      rw [eq_of_offset_eq hl hfirst hsame, ← map_raw_ofText, hsplit]
      exact ⟨more.map Line.raw, rfl⟩

/-! ### Parts of a table -/

/-- The lines of a part and those of the whole: the same content, further on. -/
def MovedBy (bytes : Nat) (l m : Line) : Prop :=
  l.content = m.content ∧ m.offset = l.offset + bytes

theorem movedBy_shift (l : Line) (lines bytes : Nat) : MovedBy bytes l (l.shift lines bytes) :=
  ⟨rfl, rfl⟩

/-- Lines that are moved have their first text moved as far. -/
theorem MovedBy.textOffset_eq {bytes : Nat} {l m : Line} (h : MovedBy bytes l m) :
    m.textOffset = l.textOffset + bytes := by
  obtain ⟨hcontent, hoffset⟩ := h
  unfold Line.textOffset
  rw [← hcontent, hoffset]
  split
  · rfl
  · exact Nat.add_right_comm _ _ _

theorem index_lt {l : Line} (hl : l ∈ (ofText c).lines) : l.index < (ofText c).lines.length := by
  obtain ⟨above, below, hlines⟩ := List.append_of_mem hl
  have hlaid : LaidOut 0 0 (above ++ l :: below) := hlines ▸ laidOut_ofText c
  have hindex := hlaid.eq_of_append.1
  rw [hlines, List.length_append, List.length_cons]
  omega

/-- Lines that are found by their numbers are found further on in the whole. -/
theorem take_drop_shift {lines : List Line} (before after : List Line) {first last : Line}
    (hlast : last.index < lines.length) (bytes : Nat) :
    ((before ++ lines.map (Line.shift before.length bytes) ++ after).drop
        (first.shift before.length bytes).index).take
          ((last.shift before.length bytes).index + 1 - (first.shift before.length bytes).index) =
      ((lines.drop first.index).take (last.index + 1 - first.index)).map
        (Line.shift before.length bytes) := by
  have hcount : last.index + before.length + 1 - (first.index + before.length) =
      last.index + 1 - first.index := by omega
  show List.take (last.index + before.length + 1 - (first.index + before.length))
    (List.drop (first.index + before.length) _) = _
  rw [hcount, List.append_assoc, Nat.add_comm first.index, ← List.drop_drop, List.drop_left,
    List.map_take, List.map_drop]
  by_cases hfirst : first.index ≤ lines.length
  · rw [List.drop_append_of_le_length (by simpa using hfirst), List.take_append_of_le_length]
    rw [List.length_drop, List.length_map]
    omega
  · have hnone : last.index + 1 - first.index = 0 := by omega
    rw [hnone, List.take_zero, List.take_zero]

section Part

variable {w : Text} {before after : List Line} {bytes : Nat}
  (hlines : (ofText w).lines =
    before ++ (ofText c).lines.map (Line.shift before.length bytes) ++ after)

include hlines

theorem shift_mem_part {l : Line} (hl : l ∈ (ofText c).lines) :
    l.shift before.length bytes ∈ (ofText w).lines := by
  rw [hlines]
  simp only [List.mem_append]
  exact Or.inl (Or.inr (List.mem_map_of_mem hl))

/-- A byte of the part is looked up in the whole as in the part. -/
theorem lineAt_part {x : Int} {l : Line} (h : (ofText c).lineAt x = .ok l) (hlow : 0 ≤ x)
    (hhigh : x < (ofText c).size) :
    (ofText w).lineAt (x + bytes) = .ok (l.shift before.length bytes) := by
  obtain ⟨hl, hbegin, hend⟩ := of_lineAt_eq_ok h hlow hhigh
  refine lineAt_eq_ok (shift_mem_part hlines hl) ?_ ?_
  · show ((l.offset + bytes : Nat) : Int) ≤ x + bytes
    omega
  · rw [Line.stop_shift]
    omega

/-- Its position is as many lines further down. -/
theorem position_part {x : Int} (hlow : 0 ≤ x) (hhigh : x < (ofText c).size) :
    ∃ p, (ofText c).position x = .ok p ∧
      (ofText w).position (x + bytes) = .ok ⟨p.line + before.length, p.character⟩ := by
  obtain ⟨l, -, hat, -, -⟩ := exists_lineAt hlow hhigh
  have hinside : x + bytes - ((l.shift before.length bytes).offset : Int) = x - l.offset := by
    show x + bytes - ((l.offset + bytes : Nat) : Int) = _
    omega
  have hindex : (l.shift before.length bytes).index + 1 = l.index + 1 + before.length :=
    Nat.add_right_comm _ _ _
  unfold position
  rw [lineAt_part hlines hat hlow hhigh, hat]
  simp only [bind, Except.bind]
  rw [hinside, hindex]
  exact ⟨_, rfl, rfl⟩

/-- **A range of a part covers the same lines in the whole**, or is refused in both. -/
theorem linesInRange_part {r : ByteRange} (hlow : 0 ≤ r.location)
    (hhigh : r.stop ≤ (ofText c).size) :
    Agree (fun _ _ => True) (List.Forall₂ (MovedBy bytes)) ((ofText c).linesInRange r)
      ((ofText w).linesInRange (r.shift bytes)) := by
  by_cases hlength : r.length ≤ 0
  · have hempty : ∀ (table : LineTable) (range : ByteRange), range.length = r.length →
        table.linesInRange range = .error ⟨range, .empty⟩ := by
      intro table range hrange
      unfold linesInRange
      rw [if_pos (by omega)]
    rw [hempty _ r rfl, hempty _ (r.shift bytes) rfl]
    exact Agree.error trivial
  have hstop : r.stop = r.location + r.length := rfl
  have hstopShift : (r.shift bytes).stop = r.stop + bytes := by
    show r.location + bytes + r.length = r.location + r.length + bytes
    omega
  obtain ⟨first, -, hfirst, -, -⟩ := exists_lineAt (t := c) hlow (by omega)
  obtain ⟨last, hlastMem, hlast, -, hlastEnd⟩ :=
    exists_lineAt (t := c) (show 0 ≤ r.stop - 1 by omega) (by omega)
  have hfirstAt := lineAt_part hlines hfirst hlow (by omega)
  have hlastAt := lineAt_part hlines hlast (by omega) (by omega)
  rw [show r.stop - 1 + (bytes : Int) = (r.shift bytes).stop - 1 by omega] at hlastAt
  have hsize := stop_le_size (shift_mem_part hlines hlastMem)
  rw [Line.stop_shift] at hsize
  have hwhole := @linesInRange_of_lineAt _ (r.shift bytes) _ _ (show 0 < r.length by omega)
    (show 0 ≤ r.location + bytes by omega) (by omega) hfirstAt hlastAt
  rw [linesInRange_of_lineAt (by omega) hlow hhigh hfirst hlast, hwhole]
  have hinside : (r.shift bytes).location - ((first.shift before.length bytes).offset : Int) =
      r.location - first.offset := by
    show r.location + bytes - ((first.offset + bytes : Nat) : Int) = _
    omega
  have hends : (r.shift bytes).stop ≠ (last.shift before.length bytes).contentEnd ∧
      (r.shift bytes).stop ≠ (last.shift before.length bytes).stop ↔
        r.stop ≠ last.contentEnd ∧ r.stop ≠ last.stop := by
    rw [Line.contentEnd_shift, Line.stop_shift, hstopShift]
    omega
  rw [hinside]
  show Agree _ _ _ (if (first.content.utf8.take _).all Text.isBlankByte = false then _ else _)
  by_cases hblank : (first.content.utf8.take (r.location - first.offset).toNat).all
      Text.isBlankByte = false
  · rw [if_pos hblank, if_pos hblank]
    exact Agree.error trivial
  rw [if_neg hblank, if_neg hblank]
  by_cases hend : r.stop ≠ last.contentEnd ∧ r.stop ≠ last.stop
  · rw [if_pos hend, if_pos (hends.mpr hend)]
    exact Agree.error trivial
  rw [if_neg hend, if_neg fun h => hend (hends.mp h), hlines,
    take_drop_shift before after (index_lt hlastMem)]
  refine Agree.ok ?_
  rw [List.forall₂_map_right_iff]
  exact List.forall₂_same.mpr fun l _ => movedBy_shift l before.length bytes

end Part

/-- **The lines of an excerpt stand in the table of the whole, further on.** -/
theorem excerpt_lines (b : Text) (ha : a.EndsLine) (hc : c.EndsLine) :
    ∃ before after, (ofText (a ++ (c ++ b))).lines =
      before ++ (ofText c).lines.map (Line.shift before.length a.byteSize) ++ after := by
  have hbehind := lines_append (hc.breakBetween b)
  have hlines := lines_append (ha.breakBetween (c ++ b))
  rw [hbehind, List.map_append, ← List.append_assoc (ofText a).lines] at hlines
  exact ⟨_, _, hlines⟩

/-- A range of an excerpt covers the same lines in the whole, or is refused in both. -/
theorem linesInRange_excerpt (ha : a.EndsLine) (hc : c.EndsLine) {r : ByteRange}
    (hlow : 0 ≤ r.location) (hhigh : r.stop ≤ c.byteSize) :
    Agree (fun _ _ => True) (List.Forall₂ (MovedBy a.byteSize)) ((ofText c).linesInRange r)
      ((ofText (a ++ (c ++ b))).linesInRange (r.shift a.byteSize)) := by
  obtain ⟨before, after, hlines⟩ := excerpt_lines b ha hc
  exact linesInRange_part hlines hlow (by rw [size_ofText]; exact hhigh)

end LineTable

end DocLint
