/-
Which lines of a comment are read, and where they stand.

The lines of a range are all read, but for those of a block that hold nothing besides the opening
or the closing (`Keeps`).  Each line that is read says where its text begins in the file and how far
it is from there to the end of the line (`StandsFor`).  This comes from the line as it is in the
file, while the content comes from what the marks left of it; the two stay together because they are
never apart, and so no content can get the place of another line.

All places lie in the range (`location_le_textOffset`, `textOffset_lt_stop`).  At its beginning this
is due to the mark: what a range leaves out of its first line is blank, and a slash is not, so it
begins no later than the opening.  At its end the last line may be blank, but then the range holds
the line's terminator.
-/
import DocLint.Proofs.Doc.Origin

namespace DocLint

variable {t : Text} {r : ByteRange} {l : Line} {lines : List Line}

/-! ### Where the text of a line begins -/

/-- Where the first character of a line stands that is not blank; the beginning of the line if it
has none. -/
inductive Line.FirstText (l : Line) : Int → Prop
  | text {front rest : Text} {c : Char} (hline : l.content = front ++ c :: rest)
      (hfront : Text.allBlank front = true) (hc : Text.isBlank c = false) :
      l.FirstText (l.offset + front.byteSize)
  | blank (h : Text.allBlank l.content = true) : l.FirstText l.offset

theorem Line.firstText_textOffset (l : Line) : l.FirstText l.textOffset := by
  unfold textOffset
  cases hblank : Text.allBlank l.content with
  | true =>
      rw [if_pos rfl]
      exact .blank hblank
  | false =>
      obtain ⟨c, rest, htrim, hc⟩ := Text.exists_trimLeft_eq_cons hblank
      have hsplit := Text.leadingBlanks_append_trimLeft l.content
      rw [htrim] at hsplit
      rw [if_neg (by simp), Int.natCast_add]
      exact .text hsplit.symm (Text.allBlank_leadingBlanks _) hc

/-- A slash in front of which all is blank is where the text of its line begins. -/
theorem Line.textOffset_eq_of_slash {front rest : Text} (hline : l.content = front ++ '/' :: rest)
    (hfront : Text.allBlank front = true) : l.textOffset = l.offset + front.byteSize := by
  have hslash : Text.isBlank '/' = false := by decide
  have hblank : Text.allBlank l.content = false :=
    Text.allBlank_eq_false_of_mem (by rw [hline]; simp) hslash
  have hleading : Text.leadingBlanks l.content = front := by
    rw [hline, Text.leadingBlanks_append_of_allBlank _ hfront,
      Text.leadingBlanks_cons_of_not _ hslash, List.append_nil]
  rw [Line.textOffset, hblank, if_neg (by simp), hleading]

/-- A range does not begin behind a slash of its first line: it is no blank. -/
theorem ByteRange.BeginsOn.location_le {front rest : Text} (h : r.BeginsOn l)
    (hline : l.content = front ++ '/' :: rest) : r.location ≤ l.offset + front.byteSize := by
  have hbyte : l.content.utf8[front.byteSize]? = some 47 := by
    rw [hline, Text.utf8, List.flatMap_append, ← Text.length_utf8, Text.utf8,
      List.getElem?_append_right (Nat.le_refl _), Nat.sub_self]
    rfl
  by_contra hlt
  have hblank := h front.byteSize 47 hbyte (by omega)
  exact absurd hblank (by decide)

namespace LineTable

/-- The text of a line of a range begins in the range or behind it, if that of the first line does. -/
theorem Spans.location_le_textOffset {first : Line} (h : (ofText t).Spans r lines)
    (hhead : lines.head? = some first) (hfirst : r.location ≤ first.textOffset) :
    ∀ l ∈ lines, r.location ≤ l.textOffset := by
  intro l hl
  obtain ⟨_, hhead', ⟨-, hhigh⟩, -⟩ := h.begins
  obtain rfl := Option.some.inj (hhead'.symm.trans hhead)
  rcases h.eq_or_stop_le_offset hhead l hl with rfl | hle
  · exact hfirst
  · have hoffset := l.offset_le_textOffset
    omega

/-- The text of a line of a range begins in front of the end of the range. -/
theorem Spans.textOffset_lt_stop (h : (ofText t).Spans r lines) :
    ∀ l ∈ lines, (l.textOffset : Int) < r.stop := by
  intro l hl
  obtain ⟨last, hend, ⟨hlow, -⟩, hends⟩ := h.ends
  rcases h.eq_or_stop_le_last hend l hl with rfl | hle
  · cases hblank : Text.allBlank l.content with
    | true =>
        rw [Line.textOffset, hblank, if_pos rfl]
        omega
    | false =>
        have hlt := Line.textOffset_lt hblank
        have hstop := l.contentEnd_le_stop
        rcases hends with hend | hend
        · omega
        · omega
  · have hlt := LineTable.textOffset_lt_stop (h.subset hl)
    omega

/-- The texts of the lines of a range begin one behind the other. -/
theorem Spans.pairwise_textOffset (h : (ofText t).Spans r lines) :
    lines.Pairwise fun a b => a.textOffset < b.textOffset := by
  refine h.pairwise.imp_of_mem ?_
  intro a b ha hb hle
  have hlt := LineTable.textOffset_lt_stop (h.subset ha)
  have hoffset := b.offset_le_textOffset
  omega

end LineTable

namespace Doc

/-! ### The lines that are read -/

/-- The line opens a block, and nothing but blanks stands behind the opening. -/
def OnlyOpens (l : Line) : Prop := ∃ text, BehindOpening l.content text ∧ Text.allBlank text = true

/-- The line closes a block, and nothing but blanks stands in front of the closing. -/
def OnlyCloses (l : Line) : Prop := ∃ text, BeforeClosing l.content text ∧ Text.allBlank text = true

/-- The line, left out if there is nothing on it. -/
inductive LeftOutIf (nothing : Prop) (l : Line) : List Line → Prop
  | out (h : nothing) : LeftOutIf nothing l []
  | kept (h : ¬nothing) : LeftOutIf nothing l [l]

/-- The lines of a comment, and those of them that are read: all, but for the first of a block of
several lines if it does nothing but open it, and the last if it does nothing but close it. -/
inductive Keeps : List Line → List Line → Prop
  | lines {lines : List Line} (h : ∀ l ∈ lines, ∃ text, BehindMarker l.content text) :
      Keeps lines lines
  | single {l : Line} {text : Text} (hopen : BehindOpening l.content text) : Keeps [l] [l]
  | block {first last : Line} {inner above below : List Line} {opening closing : Text}
      (hopen : BehindOpening first.content opening) (hclose : BeforeClosing last.content closing)
      (habove : LeftOutIf (OnlyOpens first) first above)
      (hbelow : LeftOutIf (OnlyCloses last) last below) :
      Keeps (first :: (inner ++ [last])) (above ++ inner ++ below)

/-- The line of a comment has the place of the line of the file: it begins where that line's text
does and ends with that line. -/
structure StandsFor (l : Line) (d : DocLine) : Prop where
  offset : l.FirstText d.offset
  stop : d.offset + d.length = l.stop

variable {kept : List Line} {b : Body}

theorem Keeps.sublist (h : Keeps lines kept) : kept.Sublist lines := by
  cases h with
  | lines _ => exact List.Sublist.refl _
  | single _ => exact List.Sublist.refl _
  | @block first last inner above below _ _ _ _ habove hbelow =>
      have habove : above.Sublist [first] := by
        cases habove with
        | out _ => exact List.nil_sublist _
        | kept _ => exact List.Sublist.refl _
      have hbelow : below.Sublist [last] := by
        cases hbelow with
        | out _ => exact List.nil_sublist _
        | kept _ => exact List.Sublist.refl _
      have happend := (habove.append (List.Sublist.refl inner)).append hbelow
      simpa using happend

/-- A comment begins with a slash, behind blanks. -/
theorem Unmarks.exists_slash {head : Line} {more : List Line} (h : Unmarks (head :: more) b) :
    ∃ front rest, head.content = front ++ '/' :: rest ∧ Text.allBlank front = true := by
  have hmarker : ∀ {t u : Text}, BehindMarker t u → ∃ front rest, t = front ++ '/' :: rest ∧
      Text.allBlank front = true := by
    intro t u h
    cases h with
    | intro hfront _ => exact ⟨_, _, rfl, hfront⟩
  have hopening : ∀ {t u : Text}, BehindOpening t u → ∃ front rest, t = front ++ '/' :: rest ∧
      Text.allBlank front = true := by
    intro t u h
    cases h with
    | intro hfront => exact ⟨_, _, rfl, hfront⟩
  cases h with
  | lines h =>
      obtain ⟨s, _, ⟨-, hs⟩, -, -⟩ := List.forall₂_cons_left_iff.mp h
      exact hmarker hs
  | single hopen _ => exact hopening hopen
  | block hopen _ _ => exact hopening hopen

theorem onlyOpens_iff {text : Text} (h : BehindOpening l.content text) :
    OnlyOpens l ↔ Text.allBlank text = true := by
  constructor
  · rintro ⟨u, hu, hblank⟩
    have hsame := (behindOpening_iff.mp hu).symm.trans (behindOpening_iff.mp h)
    rwa [← List.append_cancel_left hsame]
  · intro hblank
    exact ⟨text, h, hblank⟩

theorem onlyCloses_iff {text : Text} (h : BeforeClosing l.content text) :
    OnlyCloses l ↔ Text.allBlank text = true := by
  constructor
  · rintro ⟨u, hu, hblank⟩
    have hsame := (beforeClosing_iff.mp hu).symm.trans (beforeClosing_iff.mp h)
    rwa [← List.append_cancel_right hsame]
  · intro hblank
    exact ⟨text, h, hblank⟩

theorem leftOutIf_unlessBlank {nothing : Prop} {s : Stripped}
    (h : nothing ↔ Text.allBlank s.text = true) :
    LeftOutIf nothing s.line (s.unlessBlank.toList.map Stripped.line) := by
  unfold Stripped.unlessBlank
  split
  · rename_i hblank
    exact .out (h.mpr hblank)
  · rename_i hblank
    exact .kept (mt h.mp hblank)

/-- The lines of a body, in order. -/
def Body.keptLines (b : Body) : List Line := (b.opening.toList ++ b.rest).map Stripped.line

/-- **A body has the lines that are to be read.** -/
theorem Unmarks.keeps (h : Unmarks lines b) : Keeps lines b.keptLines := by
  cases h with
  | @lines _ rest h =>
      have hlines : lines.map id = rest.map Stripped.line :=
        map_eq_of_forall₂ (fun l s hs => hs.1.symm) h
      show Keeps lines (rest.map Stripped.line)
      rw [← hlines, List.map_id]
      refine .lines ?_
      intro l hl
      obtain ⟨s, -, -, hs⟩ := exists_right_of_mem h hl
      exact ⟨s.text, hs⟩
  | single hopen _ => exact .single hopen
  | @block first last inner opening closing rest hopen hclose hrest =>
      have hlines : (textBelow inner last closing).map Stripped.line = rest.map Stripped.line :=
        map_eq_of_forall₂ (fun s u hu => hu.1.symm) hrest
      have hkept : Body.keptLines ⟨(⟨first, opening⟩ : Stripped).unlessBlank, rest⟩ =
          (⟨first, opening⟩ : Stripped).unlessBlank.toList.map Stripped.line ++ inner ++
            (⟨last, closing⟩ : Stripped).unlessBlank.toList.map Stripped.line := by
        rw [Body.keptLines, List.map_append, ← hlines, textBelow, List.map_append, List.map_map,
          List.append_assoc]
        simp [Function.comp_def]
      rw [hkept]
      have habove := leftOutIf_unlessBlank (s := ⟨first, opening⟩) (onlyOpens_iff hopen)
      have hbelow := leftOutIf_unlessBlank (s := ⟨last, closing⟩) (onlyCloses_iff hclose)
      exact .block hopen hclose habove hbelow

/-- A line that is made of a line of the file has its place. -/
theorem standsFor_ofLine (l : Line) (text : Text) : StandsFor l (DocLine.ofLine l text) := by
  refine ⟨l.firstText_textOffset, ?_⟩
  show (l.textOffset : Int) + (l.stop - l.textOffset) = l.stop
  omega

/-- Each line of a body is read once, in its place. -/
theorem Body.forall₂_docLines (b : Body) :
    List.Forall₂ (fun l d => ∃ text, d = DocLine.ofLine l text) b.keptLines b.docLines := by
  unfold Body.keptLines Body.docLines
  rw [List.map_append]
  refine List.rel_append ?_ ?_
  · cases b.opening with
    | none => exact List.Forall₂.nil
    | some s => exact List.Forall₂.cons ⟨_, rfl⟩ List.Forall₂.nil
  · simp only [List.map_map, List.forall₂_map_left_iff, List.forall₂_map_right_iff,
      List.forall₂_same]
    intro s _
    exact ⟨_, rfl⟩

/-! ### Their places -/

/-- **Slicing keeps places.**  The lines of a comment are those of its range, in order, but for
lines that do nothing but open or close a block.  Each begins with the first text of its line and
ends with the line, a later line begins behind an earlier one, and all begin in the range. -/
theorem slice_keeps_places {docLines : List DocLine} (h : slice r (.ofText t) = .ok docLines) :
    ∃ lines kept, (LineTable.ofText t).linesInRange r = .ok lines ∧ Keeps lines kept ∧
      List.Forall₂ StandsFor kept docLines ∧
      docLines.Pairwise (fun a b => a.offset < b.offset) ∧
      ∀ d ∈ docLines, r.location ≤ d.offset ∧ d.offset < r.location + r.length := by
  obtain ⟨head, more, body, hlines, hunmarks, rfl⟩ := slice_eq_ok_iff.mp h
  obtain ⟨-, hspans⟩ := LineTable.of_linesInRange_eq_ok hlines
  have hkeeps := hunmarks.keeps
  have hread := body.forall₂_docLines
  have hoffsets : body.keptLines.map (fun l => (l.textOffset : Int)) =
      body.docLines.map DocLine.offset := by
    refine map_eq_of_forall₂ ?_ hread
    rintro l _ ⟨text, rfl⟩
    rfl
  refine ⟨head :: more, body.keptLines, hlines, hkeeps, ?_, ?_, ?_⟩
  · refine hread.imp ?_
    rintro l _ ⟨text, rfl⟩
    exact standsFor_ofLine l text
  · have hpair := hspans.pairwise_textOffset.sublist hkeeps.sublist
    rw [← List.pairwise_map, ← hoffsets, List.pairwise_map]
    exact hpair.imp fun hab => Int.ofNat_lt.mpr hab
  · intro d hd
    obtain ⟨l, hl, text, rfl⟩ := exists_left_of_mem hread hd
    have hmem := hkeeps.sublist.subset hl
    obtain ⟨front, rest, hslash, hfront⟩ := hunmarks.exists_slash
    have hfirst : r.location ≤ head.textOffset := by
      obtain ⟨_, hhead, -, hbegins⟩ := hspans.begins
      obtain rfl := Option.some.inj hhead
      have hle := hbegins.location_le hslash
      rw [Line.textOffset_eq_of_slash hslash hfront]
      omega
    exact ⟨hspans.location_le_textOffset rfl hfirst l hmem, hspans.textOffset_lt_stop l hmem⟩

/-- A block whose opening has a line to itself while its closing has not, below another line.  The
blank in front of the first star takes two bytes. -/
def openedBlock : Text := "a\n  /**\r\n\u00A0* Ä\r\n\r\n   * b */ \nc".toList

/-- What is read of it. -/
def openedBlockLines : List DocLine :=
  [⟨"Ä".toList, 11, 6⟩, ⟨[], 17, 2⟩, ⟨"b".toList, 22, 8⟩]

/-- The range begins among the blanks in front of the opening and ends behind a terminator. -/
theorem slice_keeps_places_openedBlock :
    slice ⟨3, 27⟩ (.ofText openedBlock) = .ok openedBlockLines ∧
      ∃ lines kept, (LineTable.ofText openedBlock).linesInRange ⟨3, 27⟩ = .ok lines ∧
        Keeps lines kept ∧ List.Forall₂ StandsFor kept openedBlockLines ∧
        openedBlockLines.Pairwise (fun a b => a.offset < b.offset) ∧
        ∀ d ∈ openedBlockLines, 3 ≤ d.offset ∧ d.offset < 3 + 27 := by
  have hslice : slice ⟨3, 27⟩ (.ofText openedBlock) = .ok openedBlockLines := by decide
  exact ⟨hslice, slice_keeps_places hslice⟩

end Doc

end DocLint
