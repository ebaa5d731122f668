/-
The line table holds its text, line behind line.

`splitLines` loses nothing, and leaves no break inside a content.  `LaidOut` is what
numbering and adding up the lengths amount to: each line begins where the one before it
stops.  From that alone every byte of the text lies on exactly one line, `lineAt` finds
that line, and a lookup inside the text cannot fail.  Nothing later has to look at the
byte counts of a table again.
-/
import DocLint.Proofs.Text.Blank
import DocLint.Proofs.Text.Bytes
import DocLint.Source.LineTable

namespace DocLint

/-! ### Cutting a text into lines -/

/-- No line ends inside the text. -/
def Text.Unbroken (t : Text) : Prop := ∀ c ∈ t, c ≠ '\r' ∧ c ≠ '\n'

instance (t : Text) : Decidable t.Unbroken :=
  inferInstanceAs (Decidable (∀ c ∈ t, c ≠ '\r' ∧ c ≠ '\n'))

theorem Text.unbroken_cons {c : Char} {t : Text} :
    Text.Unbroken (c :: t) ↔ (c ≠ '\r' ∧ c ≠ '\n') ∧ Text.Unbroken t := by
  simp [Text.Unbroken]

theorem Text.Unbroken.of_subset {s t : Text} (ht : t.Unbroken) (h : s ⊆ t) : s.Unbroken :=
  fun c hc => ht c (h hc)

theorem Text.Unbroken.append {s t : Text} (hs : s.Unbroken) (ht : t.Unbroken) :
    Text.Unbroken (s ++ t) := by
  intro c hc
  rcases List.mem_append.mp hc with h | h
  · exact hs c h
  · exact ht c h

/-- Only line breaks end a line. -/
theorem RawLine.eq_of_mem_endingText {l : RawLine} {c : Char} (h : c ∈ l.endingText) :
    c = '\r' ∨ c = '\n' := by
  obtain ⟨content, ending⟩ := l
  rcases ending with _ | _ | _ | _
  · simp [RawLine.endingText] at h
  · simpa [RawLine.endingText, LineEnd.text] using h
  · exact Or.inr (by simpa [RawLine.endingText, LineEnd.text] using h)
  · exact Or.inl (by simpa [RawLine.endingText, LineEnd.text] using h)

theorem RawLine.endingText_ne_nil {l : RawLine} (h : l.ending ≠ none) : l.endingText ≠ [] := by
  obtain ⟨content, ending⟩ := l
  rcases ending with _ | _ | _ | _
  · exact absurd rfl h
  · simp [RawLine.endingText, LineEnd.text]
  · simp [RawLine.endingText, LineEnd.text]
  · simp [RawLine.endingText, LineEnd.text]

/-- The lines put together again are the text. -/
theorem splitLines_flatMap_text (t : Text) : (splitLines t).flatMap RawLine.text = t := by
  fun_induction splitLines t with
  | case1 => rfl
  | case2 r ih => simp [ih, RawLine.text, RawLine.endingText, LineEnd.text]
  | case3 r _ ih => simp [ih, RawLine.text, RawLine.endingText, LineEnd.text]
  | case4 r ih => simp [ih, RawLine.text, RawLine.endingText, LineEnd.text]
  | case5 c r _ _ _ hnil ih =>
      rw [hnil] at ih
      have hr : r = [] := by simpa using ih.symm
      simp [hr, RawLine.text, RawLine.endingText]
  | case6 c r _ _ _ l more hcons ih =>
      rw [hcons] at ih
      simp only [List.flatMap_cons, RawLine.text, RawLine.endingText] at ih ⊢
      rw [List.cons_append, List.cons_append, ih]

theorem unbroken_of_mem_splitLines {t : Text} :
    ∀ l ∈ splitLines t, l.content.Unbroken := by
  fun_induction splitLines t with
  | case1 => simp
  | case2 r ih => simpa [Text.Unbroken] using ih
  | case3 r _ ih => simpa [Text.Unbroken] using ih
  | case4 r ih => simpa [Text.Unbroken] using ih
  | case5 c r _ hcr hlf _ _ => simpa [Text.Unbroken] using ⟨hcr, hlf⟩
  | case6 c r _ hcr hlf l more hcons ih =>
      rw [hcons] at ih
      intro x hx
      rcases List.mem_cons.mp hx with rfl | hx
      · exact Text.unbroken_cons.mpr ⟨⟨hcr, hlf⟩, ih l (by simp)⟩
      · exact ih x (by simp [hx])

/-- There is no line without a character. -/
theorem text_ne_nil_of_mem_splitLines {t : Text} : ∀ l ∈ splitLines t, l.text ≠ [] := by
  fun_induction splitLines t with
  | case1 => simp
  | case2 r ih => simpa [RawLine.text, RawLine.endingText, LineEnd.text] using ih
  | case3 r _ ih => simpa [RawLine.text, RawLine.endingText, LineEnd.text] using ih
  | case4 r ih => simpa [RawLine.text, RawLine.endingText, LineEnd.text] using ih
  | case5 c r _ _ _ _ _ => simp [RawLine.text]
  | case6 c r _ _ _ l more hcons ih =>
      rw [hcons] at ih
      intro x hx
      rcases List.mem_cons.mp hx with rfl | hx
      · simp [RawLine.text]
      · exact ih x (by simp [hx])

/-- Only the last line can lack an ending. -/
theorem ending_ne_none_of_mem_dropLast (t : Text) :
    ∀ l ∈ (splitLines t).dropLast, l.ending ≠ none := by
  have hcons : ∀ (x : RawLine) (lines : List RawLine), x.ending ≠ none →
      (∀ l ∈ lines.dropLast, l.ending ≠ none) → ∀ l ∈ (x :: lines).dropLast, l.ending ≠ none := by
    intro x lines hx hlines
    cases lines with
    | nil => simp
    | cons y lines =>
        rw [List.dropLast_cons_cons]
        exact List.forall_mem_cons.mpr ⟨hx, hlines⟩
  fun_induction splitLines t with
  | case1 => simp
  | case2 r ih => exact hcons _ _ (by simp) ih
  | case3 r _ ih => exact hcons _ _ (by simp) ih
  | case4 r ih => exact hcons _ _ (by simp) ih
  | case5 c r _ _ _ _ _ => simp
  | case6 c r _ _ _ first more hsplit ih =>
      rw [hsplit] at ih
      cases more with
      | nil => simp
      | cons y more =>
          rw [List.dropLast_cons_cons] at ih ⊢
          have hall := List.forall_mem_cons.mp ih
          exact List.forall_mem_cons.mpr ⟨hall.1, hall.2⟩

theorem splitLines_cons_of_not {c : Char} (hcr : c ≠ '\r') (hlf : c ≠ '\n') (t : Text) :
    splitLines (c :: t) = match splitLines t with
      | [] => [⟨[c], none⟩]
      | l :: more => { l with content := c :: l.content } :: more := by
  exact splitLines.eq_5 c t (fun _ hc _ => hcr hc) hcr hlf

/-- A terminator ends a line.  Behind a CR that stands alone there is no LF. -/
theorem splitLines_append_ending {s : Text} (h : s.Unbroken) (e : LineEnd) {t : Text}
    (ht : e = .cr → t.head? ≠ some '\n') :
    splitLines (s ++ (e.text ++ t)) = ⟨s, some e⟩ :: splitLines t := by
  induction s with
  | nil =>
      cases e with
      | crlf => simp [LineEnd.text, splitLines]
      | lf => simp [LineEnd.text, splitLines]
      | cr =>
          show splitLines ('\r' :: t) = _
          rw [splitLines]
          rintro u rfl
          exact ht rfl rfl
  | cons c r ih =>
      obtain ⟨⟨hcr, hlf⟩, hr⟩ := Text.unbroken_cons.mp h
      rw [List.cons_append, splitLines_cons_of_not hcr hlf, ih hr]

theorem splitLines_append_lf {s : Text} (h : s.Unbroken) (t : Text) :
    splitLines (s ++ '\n' :: t) = ⟨s, some .lf⟩ :: splitLines t :=
  splitLines_append_ending h .lf (by simp)

theorem splitLines_of_unbroken {s : Text} (h : s.Unbroken) (hne : s ≠ []) :
    splitLines s = [⟨s, none⟩] := by
  induction s with
  | nil => exact absurd rfl hne
  | cons c r ih =>
      obtain ⟨⟨hcr, hlf⟩, hr⟩ := Text.unbroken_cons.mp h
      rw [splitLines_cons_of_not hcr hlf]
      cases r with
      | nil => rfl
      | cons d r => rw [ih hr (by simp)]

/-- Lines, each with a line feed behind it. -/
def Text.unlines (lines : List Text) : Text := lines.flatMap fun l => l ++ ['\n']

theorem Text.unlines_cons (l : Text) (lines : List Text) :
    unlines (l :: lines) = l ++ '\n' :: unlines lines := by simp [unlines]

theorem Text.unlines_append (lines more : List Text) :
    unlines (lines ++ more) = unlines lines ++ unlines more := List.flatMap_append

theorem Text.exists_unlines_eq {lines : List Text} (h : lines ≠ []) :
    ∃ p, unlines lines = p ++ ['\n'] := by
  obtain ⟨front, last, rfl⟩ := (List.eq_nil_or_concat lines).resolve_left h
  refine ⟨unlines front ++ last, ?_⟩
  rw [List.concat_eq_append, unlines_append, List.append_assoc]
  simp [unlines]

/-- A text of lines is its contents, each with a line feed behind it, if these end them all. -/
theorem flatMap_text_of_lf {lines : List RawLine} (h : ∀ l ∈ lines, l.ending = some .lf) :
    lines.flatMap RawLine.text = Text.unlines (lines.map RawLine.content) := by
  unfold Text.unlines
  rw [List.flatMap_map]
  refine List.flatMap_congr fun l hl => ?_
  simp [RawLine.text, RawLine.endingText, h l hl, LineEnd.text]

theorem splitLines_unlines_append {lines : List Text} (h : ∀ l ∈ lines, Text.Unbroken l) (t : Text) :
    splitLines (Text.unlines lines ++ t) = lines.map (⟨·, some .lf⟩) ++ splitLines t := by
  induction lines with
  | nil => rfl
  | cons l more ih =>
      rw [Text.unlines_cons, List.append_assoc, List.cons_append,
        splitLines_append_lf (h l (by simp)), ih fun x hx => h x (by simp [hx])]
      rfl

/-! ### The parts of a line -/

theorem Text.byteSize_leadingBlanks_lt {t : Text} (h : Text.allBlank t = false) :
    (Text.leadingBlanks t).byteSize < t.byteSize := by
  obtain ⟨c, r, htrim, -⟩ := Text.exists_trimLeft_eq_cons h
  have hsplit := congrArg Text.byteSize (Text.leadingBlanks_append_trimLeft t)
  have hc := Char.utf8Size_pos c
  rw [htrim, Text.byteSize_append, Text.byteSize_cons] at hsplit
  omega

/-- The first text of a line that is not blank lies in its content. -/
theorem Line.textOffset_lt {l : Line} (h : Text.allBlank l.content = false) :
    l.textOffset < l.contentEnd := by
  have hlt := Text.byteSize_leadingBlanks_lt h
  unfold Line.textOffset
  rw [h, if_neg (by simp)]
  simp only [Line.contentEnd, Line.contentLength]
  omega

theorem Line.offset_le_textOffset (l : Line) : l.offset ≤ l.textOffset := by
  unfold Line.textOffset
  split <;> omega

theorem Line.contentEnd_le_stop (l : Line) : l.contentEnd ≤ l.stop := by
  simp [Line.contentEnd, Line.stop, Line.contentLength, Line.length, RawLine.text, Line.raw]

/-! ### Lines one behind the other -/

/-- The bytes of some lines. -/
def totalLength : List Line → Nat
  | [] => 0
  | l :: more => l.length + totalLength more

@[simp] theorem totalLength_nil : totalLength [] = 0 := rfl

@[simp] theorem totalLength_cons (l : Line) (lines : List Line) :
    totalLength (l :: lines) = l.length + totalLength lines := rfl

@[simp] theorem totalLength_append (lines more : List Line) :
    totalLength (lines ++ more) = totalLength lines + totalLength more := by
  induction lines with
  | nil => simp
  | cons l lines ih =>
      rw [List.cons_append, totalLength_cons, totalLength_cons, ih]
      omega

/-- The lines are numbered in order, and each begins where the one before it stops. -/
inductive LaidOut : Nat → Nat → List Line → Prop
  | nil (index offset : Nat) : LaidOut index offset []
  | cons {l : Line} {more : List Line} (h : LaidOut (l.index + 1) l.stop more) :
      LaidOut l.index l.offset (l :: more)

namespace LaidOut

variable {index offset : Nat} {lines before after : List Line} {l : Line}

/-- Nothing lies before the place where the lines begin. -/
theorem le (h : LaidOut index offset lines) :
    ∀ x ∈ lines, index ≤ x.index ∧ offset ≤ x.offset := by
  induction h with
  | nil index offset => simp
  | @cons l more _ ih =>
      intro x hx
      rcases List.mem_cons.mp hx with rfl | hx
      · exact ⟨Nat.le_refl _, Nat.le_refl _⟩
      · obtain ⟨hindex, hoffset⟩ := ih x hx
        have hstop : l.stop = l.offset + l.length := rfl
        exact ⟨by omega, by omega⟩

/-- A line that comes first stops before one that comes later begins. -/
theorem pairwise (h : LaidOut index offset lines) :
    lines.Pairwise fun a b => a.index < b.index ∧ a.stop ≤ b.offset := by
  induction h with
  | nil index offset => exact List.Pairwise.nil
  | @cons l more hmore ih =>
      refine List.Pairwise.cons ?_ ih
      intro x hx
      obtain ⟨hindex, hoffset⟩ := hmore.le x hx
      exact ⟨by omega, hoffset⟩

/-- The number of a line says how many come before it, and its offset how long they are. -/
theorem eq_of_append (h : LaidOut index offset (before ++ l :: after)) :
    l.index = index + before.length ∧ l.offset = offset + totalLength before := by
  induction before generalizing index offset with
  | nil =>
      cases h
      simp
  | cons x more ih =>
      cases h with
      | cons hmore =>
          obtain ⟨hindex, hoffset⟩ := ih hmore
          have hstop : x.stop = x.offset + x.length := rfl
          simp only [List.length_cons, totalLength_cons]
          exact ⟨by omega, by omega⟩

/-- The line behind another begins where that one stops. -/
theorem offset_eq_stop {next : Line}
    (h : LaidOut index offset (before ++ l :: next :: after)) : next.offset = l.stop := by
  have hl := (eq_of_append h).2
  have hbehind : LaidOut index offset ((before ++ [l]) ++ next :: after) := by simpa using h
  have hnext := (eq_of_append hbehind).2
  have hstop : l.stop = l.offset + l.length := rfl
  simp only [totalLength_append, totalLength_cons, totalLength_nil] at hnext
  omega

/-- Up to the line that holds a place, lines begin at or before it. -/
theorem offset_le_of_mem {x : Int} (h : LaidOut index offset (before ++ l :: after))
    (hlow : (l.offset : Int) ≤ x) : ∀ y ∈ before ++ [l], (y.offset : Int) ≤ x := by
  intro y hy
  rcases List.mem_append.mp hy with hy | hy
  · have hle := ((List.pairwise_append.mp h.pairwise).2.2 y hy l (by simp)).2
    have hstop : y.stop = y.offset + y.length := rfl
    omega
  · have hyl : y = l := by simpa using hy
    rw [hyl]
    exact hlow

/-- The line behind the one that holds a place begins after it. -/
theorem lt_offset_of_head? {x : Int} (h : LaidOut index offset (before ++ l :: after))
    (hhigh : x < l.stop) : ∀ y, after.head? = some y → x < (y.offset : Int) := by
  intro y hy
  obtain ⟨more, rfl⟩ := List.head?_eq_some_iff.mp hy
  have hnext := h.offset_eq_stop
  omega

end LaidOut

namespace LineTable

theorem layOut_laidOut (raws : List RawLine) :
    ∀ index offset : Nat, LaidOut index offset (layOut index offset raws) := by
  induction raws with
  | nil => intro index offset; exact LaidOut.nil index offset
  | cons r more ih =>
      intro index offset
      exact LaidOut.cons (l := ⟨index, offset, r.content, r.ending⟩) (ih _ _)

/-- Numbering the lines changes nothing on them. -/
theorem map_raw_layOut (raws : List RawLine) :
    ∀ index offset : Nat, (layOut index offset raws).map Line.raw = raws := by
  induction raws with
  | nil => intro index offset; rfl
  | cons r more ih => intro index offset; simp [layOut, Line.raw, ih]

variable {t : Text} {l : Line} {x : Int}

theorem laidOut_ofText (t : Text) : LaidOut 0 0 (ofText t).lines := layOut_laidOut _ 0 0

theorem map_raw_ofText (t : Text) : (ofText t).lines.map Line.raw = splitLines t :=
  map_raw_layOut _ 0 0

/-- No line of a table is broken inside. -/
theorem unbroken_of_mem (hl : l ∈ (ofText t).lines) : l.content.Unbroken := by
  refine unbroken_of_mem_splitLines (t := t) l.raw ?_
  rw [← map_raw_ofText]
  exact List.mem_map_of_mem hl

/-- A line with another one below it has an ending. -/
theorem ending_ne_none {above below : List Line} {next : Line}
    (h : (ofText t).lines = above ++ l :: next :: below) : l.ending ≠ none := by
  refine ending_ne_none_of_mem_dropLast t l.raw ?_
  rw [← map_raw_ofText, h]
  simp

/-- The table holds its text. -/
theorem text_ofText (t : Text) : (ofText t).text = t := by
  have h := splitLines_flatMap_text t
  rw [← map_raw_ofText, List.flatMap_map] at h
  exact h

/-! ### The size of a table -/

theorem byteSize_text (table : LineTable) :
    table.text.byteSize = totalLength table.lines := by
  unfold text
  induction table.lines with
  | nil => rfl
  | cons l more ih => simp [ih, Line.length]

/-- The size of a table is that of its text. -/
theorem size_ofText (t : Text) : (ofText t).size = t.byteSize := by
  have hbytes : t.byteSize = totalLength (ofText t).lines := by
    rw [← byteSize_text, text_ofText]
  have hlaid := laidOut_ofText t
  rw [hbytes]
  unfold size
  generalize (ofText t).lines = lines at hlaid
  rcases List.eq_nil_or_concat lines with rfl | ⟨before, l, rfl⟩
  · rfl
  · rw [List.concat_eq_append] at hlaid ⊢
    have hl := hlaid.eq_of_append.2
    simp only [List.getLast?_concat, Option.map_some, Option.getD_some, Line.stop, totalLength_append,
      totalLength_cons, totalLength_nil]
    omega

/-! ### Looking a place up -/

theorem stop_le_size (hl : l ∈ (ofText t).lines) : l.stop ≤ (ofText t).size := by
  obtain ⟨before, after, hlines⟩ := List.append_of_mem hl
  have hlaid : LaidOut 0 0 (before ++ l :: after) := hlines ▸ laidOut_ofText t
  have hsum := size_ofText t
  rw [← text_ofText t, byteSize_text, hlines] at hsum
  have hoff := hlaid.eq_of_append.2
  have hstop : l.stop = l.offset + l.length := rfl
  simp only [totalLength_append, totalLength_cons, text_ofText] at hsum
  omega

theorem offset_lt_stop (hl : l ∈ (ofText t).lines) : l.offset < l.stop := by
  have hraw : l.raw ∈ splitLines t := by
    rw [← map_raw_ofText]
    exact List.mem_map_of_mem hl
  have hpos := Text.byteSize_pos (text_ne_nil_of_mem_splitLines l.raw hraw)
  show l.offset < l.offset + l.raw.text.byteSize
  omega

/-- The first text of a line lies on the line, also when there is none. -/
theorem textOffset_lt_stop (hl : l ∈ (ofText t).lines) : l.textOffset < l.stop := by
  cases hblank : Text.allBlank l.content with
  | true =>
      rw [Line.textOffset, hblank, if_pos rfl]
      exact offset_lt_stop hl
  | false => exact Nat.lt_of_lt_of_le (Line.textOffset_lt hblank) l.contentEnd_le_stop

/-- The line that holds a byte is found. -/
theorem lineAt_eq_ok (hl : l ∈ (ofText t).lines) (hlow : (l.offset : Int) ≤ x)
    (hhigh : x < l.stop) : (ofText t).lineAt x = .ok l := by
  have hsize := stop_le_size hl
  obtain ⟨before, after, hlines⟩ := List.append_of_mem hl
  have hlaid : LaidOut 0 0 (before ++ l :: after) := hlines ▸ laidOut_ofText t
  have htake : ((ofText t).lines.takeWhile fun y => (y.offset : Int) ≤ x) = before ++ [l] := by
    rw [hlines, show before ++ l :: after = (before ++ [l]) ++ after by simp]
    refine takeWhile_append_of_stop ?_ ?_
    · intro y hy
      simpa using hlaid.offset_le_of_mem hlow y hy
    · intro y hy
      simpa using hlaid.lt_offset_of_head? hhigh y hy
  unfold lineAt
  rw [if_neg (by omega), htake]
  simp

/-- Every byte lies on a line. -/
theorem exists_line (h : 0 ≤ x) (hx : x < (ofText t).size) :
    ∃ l ∈ (ofText t).lines, (l.offset : Int) ≤ x ∧ x < l.stop := by
  have hsum : x < 0 + totalLength (ofText t).lines := by
    rw [← byteSize_text, text_ofText, ← size_ofText]
    omega
  have key : ∀ {index offset : Nat} {lines : List Line}, LaidOut index offset lines →
      (offset : Int) ≤ x → x < offset + totalLength lines →
      ∃ l ∈ lines, (l.offset : Int) ≤ x ∧ x < l.stop := by
    intro index offset lines hlaid
    induction hlaid with
    | nil index offset => intro hlow hhigh; simp at hhigh; omega
    | @cons l more _ ih =>
        intro hlow hhigh
        by_cases hstop : x < l.stop
        · exact ⟨l, by simp, hlow, hstop⟩
        · have hlen : l.stop = l.offset + l.length := rfl
          simp only [totalLength_cons] at hhigh
          obtain ⟨y, hy, hplace⟩ := ih (by omega) (by omega)
          exact ⟨y, by simp [hy], hplace⟩
  exact key (laidOut_ofText t) (by omega) (by exact_mod_cast hsum)

/-- The text, cut around the content of a line. -/
theorem eq_append_of_lines {above below : List Line} (h : (ofText t).lines = above ++ l :: below) :
    t = text ⟨above⟩ ++ l.content ++ (l.raw.endingText ++ text ⟨below⟩) ∧
      (text ⟨above⟩).byteSize = l.offset := by
  have hlaid : LaidOut 0 0 (above ++ l :: below) := h ▸ laidOut_ofText t
  have hoffset := hlaid.eq_of_append.2
  refine ⟨?_, ?_⟩
  · have htext := text_ofText t
    unfold text at htext
    rw [h, List.flatMap_append, List.flatMap_cons, RawLine.text] at htext
    rw [← htext, text, text, List.append_assoc, List.append_assoc]
    rfl
  · rw [byteSize_text]
    simp only
    omega

/-- Below lines that a line feed ends a line begins behind them. -/
theorem offset_eq_unlines {before after : List Line} (h : (ofText t).lines = before ++ l :: after)
    (hbefore : ∀ x ∈ before, x.ending = some .lf) :
    l.index = before.length ∧ l.offset = (Text.unlines (before.map Line.content)).byteSize := by
  have hlaid : LaidOut 0 0 (before ++ l :: after) := h ▸ laidOut_ofText t
  obtain ⟨hindex, hoffset⟩ := hlaid.eq_of_append
  have hbytes := byteSize_text ⟨before⟩
  have htext : text ⟨before⟩ = Text.unlines (before.map Line.content) := by
    have hfed : ∀ r ∈ before.map Line.raw, r.ending = some .lf := by
      simpa [Line.raw] using hbefore
    have hlines := flatMap_text_of_lf hfed
    rwa [List.flatMap_map, List.map_map] at hlines
  rw [htext] at hbytes
  simp only at hbytes
  omega

/-- A place inside the text is never looked up in vain. -/
theorem exists_lineAt (h : 0 ≤ x) (hx : x < (ofText t).size) :
    ∃ l ∈ (ofText t).lines, (ofText t).lineAt x = .ok l ∧ (l.offset : Int) ≤ x ∧ x < l.stop := by
  obtain ⟨l, hl, hlow, hhigh⟩ := exists_line h hx
  exact ⟨l, hl, lineAt_eq_ok hl hlow hhigh, hlow, hhigh⟩

/-- The line that is found for a place inside the text holds the place. -/
theorem of_lineAt_eq_ok (h : (ofText t).lineAt x = .ok l) (hlow : 0 ≤ x)
    (hhigh : x < (ofText t).size) : l ∈ (ofText t).lines ∧ (l.offset : Int) ≤ x ∧ x < l.stop := by
  obtain ⟨y, hy, hat, hbegin, hend⟩ := exists_lineAt hlow hhigh
  obtain rfl := Except.ok.inj (hat.symm.trans h)
  exact ⟨hy, hbegin, hend⟩

/-- The lines above another have smaller numbers and end before it, those below it the other way
around. -/
theorem order_of_append {above below : List Line} (hlines : (ofText t).lines = above ++ l :: below) :
    (∀ x ∈ above, x.index < l.index ∧ x.stop ≤ l.offset) ∧
      ∀ x ∈ below, l.index < x.index ∧ l.stop ≤ x.offset := by
  have hpair := (laidOut_ofText t).pairwise
  rw [hlines] at hpair
  obtain ⟨-, hbelow, hcross⟩ := List.pairwise_append.mp hpair
  exact ⟨fun x hx => hcross x hx l (by simp), (List.pairwise_cons.mp hbelow).1⟩

/-- A line stands above another one or below it. -/
theorem above_or_eq_or_below {above below : List Line} {x : Line}
    (hlines : (ofText t).lines = above ++ l :: below) (hx : x ∈ (ofText t).lines) :
    (x ∈ above ∧ x.index < l.index ∧ x.stop ≤ l.offset) ∨ x = l ∨
      (x ∈ below ∧ l.index < x.index ∧ l.stop ≤ x.offset) := by
  obtain ⟨habove, hbelow⟩ := order_of_append hlines
  rw [hlines] at hx
  rcases List.mem_append.mp hx with hmem | hmem
  · exact Or.inl ⟨hmem, habove x hmem⟩
  rcases List.mem_cons.mp hmem with rfl | hmem
  · exact Or.inr (Or.inl rfl)
  · exact Or.inr (Or.inr ⟨hmem, hbelow x hmem⟩)

/-- A line is known by its number. -/
theorem eq_of_index_eq {l' : Line} (hl : l ∈ (ofText t).lines) (hl' : l' ∈ (ofText t).lines)
    (h : l.index = l'.index) : l = l' := by
  obtain ⟨above, below, hlines⟩ := List.append_of_mem hl
  rcases above_or_eq_or_below hlines hl' with ⟨-, hlt, -⟩ | heq | ⟨-, hlt, -⟩
  · omega
  · exact heq.symm
  · omega

/-- A line is known by the place where it begins. -/
theorem eq_of_offset_eq {l' : Line} (hl : l ∈ (ofText t).lines) (hl' : l' ∈ (ofText t).lines)
    (h : l.offset = l'.offset) : l = l' := by
  obtain ⟨above, below, hlines⟩ := List.append_of_mem hl
  have hstop := offset_lt_stop hl
  have hstop' := offset_lt_stop hl'
  rcases above_or_eq_or_below hlines hl' with ⟨-, -, hle⟩ | heq | ⟨-, -, hle⟩
  · omega
  · exact heq.symm
  · omega

/-- The first text of a line has its place behind the blanks. -/
theorem position_textOffset (hl : l ∈ (ofText t).lines) (hblank : Text.allBlank l.content = false) :
    (ofText t).position l.textOffset = .ok ⟨l.index + 1, Text.indent l.content + 1⟩ := by
  have hlow := l.offset_le_textOffset
  have hhigh := Line.textOffset_lt hblank
  have hstop := l.contentEnd_le_stop
  have hbytes : ((l.textOffset : Int) - l.offset).toNat = (Text.leadingBlanks l.content).byteSize := by
    unfold Line.textOffset
    rw [hblank, if_neg (by simp)]
    omega
  have hbefore : Text.takeBytes (Text.leadingBlanks l.content).byteSize l.content =
      Text.leadingBlanks l.content := by
    have htake := Text.takeBytes_append (Text.leadingBlanks l.content) (Text.trimLeft l.content)
    rwa [Text.leadingBlanks_append_trimLeft] at htake
  unfold position
  rw [lineAt_eq_ok hl (by omega) (by omega)]
  simp only [bind, Except.bind]
  rw [hbytes, hbefore]
  rfl

/-- A column of a line is found by the number of the line. -/
theorem byteOffset_index (hl : l ∈ (ofText t).lines) (column : Nat) :
    (ofText t).byteOffset l.index column = .ok (l.offset + Text.byteSize (l.content.take column)) := by
  obtain ⟨before, after, hlines⟩ := List.append_of_mem hl
  have hlaid : LaidOut 0 0 (before ++ l :: after) := hlines ▸ laidOut_ofText t
  have hindex := hlaid.eq_of_append.1
  have hget : (ofText t).lines[l.index]? = some l := by
    rw [hlines, hindex]
    simp
  have hline : (ofText t).line l.index = .ok l := by
    unfold line
    simp only [if_neg (show ¬(l.index : Int) < 0 by omega), Int.toNat_natCast, hget]
  have hbefore : beforeColumn l.content column = l.content.take column := by
    unfold beforeColumn
    rw [if_neg (by omega), Int.toNat_natCast]
  unfold byteOffset
  rw [hline]
  show Except.ok (l.offset + Text.byteSize (beforeColumn l.content column)) = _
  rw [hbefore]

/-- The first text of a line is in the column behind its blanks. -/
theorem byteOffset_textOffset (hl : l ∈ (ofText t).lines)
    (hblank : Text.allBlank l.content = false) :
    (ofText t).byteOffset l.index (Text.indent l.content) = .ok l.textOffset := by
  have hbefore : l.content.take (Text.indent l.content) = Text.leadingBlanks l.content := by
    have htake := @List.take_left _ (Text.leadingBlanks l.content) (Text.trimLeft l.content)
    rwa [Text.leadingBlanks_append_trimLeft] at htake
  rw [byteOffset_index hl, hbefore, Line.textOffset, hblank, if_neg (by simp)]

/-! ### The lines of a range -/

/-- The first of some lines does not begin after the last of them ends. -/
theorem textOffset_lt_contentEnd {before run after : List Line} {first last : Line}
    (hlines : (ofText t).lines = before ++ run ++ after)
    (hfirst : run.head? = some first) (hlast : run.getLast? = some last)
    (hf : Text.allBlank first.content = false) (hl : Text.allBlank last.content = false) :
    first.textOffset < last.contentEnd := by
  have hpair := (laidOut_ofText t).pairwise
  rw [hlines] at hpair
  have hrun := (List.pairwise_append.mp (List.pairwise_append.mp hpair).1).2.1
  have hfirstLt := Line.textOffset_lt hf
  have hlastLt := Line.textOffset_lt hl
  have hstop := first.contentEnd_le_stop
  have hoffset := last.offset_le_textOffset
  obtain ⟨more, rfl⟩ := List.head?_eq_some_iff.mp hfirst
  rcases List.mem_cons.mp (List.mem_of_getLast? hlast) with rfl | hmem
  · exact hfirstLt
  · have hle := ((List.pairwise_cons.mp hrun).1 last hmem).2
    omega

/-- What the check of a range asks once both its ends have been looked up. -/
theorem linesInRange_of_lineAt {table : LineTable} {range : ByteRange} {first last : Line}
    (hpos : 0 < range.length) (hlow : 0 ≤ range.location) (hhigh : range.stop ≤ table.size)
    (hfirst : table.lineAt range.location = .ok first)
    (hlast : table.lineAt (range.stop - 1) = .ok last) :
    table.linesInRange range =
      if (first.content.utf8.take (range.location - first.offset).toNat).all Text.isBlankByte
          = false then
        .error ⟨range, .startsInsideLine⟩
      else if range.stop ≠ last.contentEnd ∧ range.stop ≠ last.stop then
        .error ⟨range, .endsInsideLine⟩
      else .ok ((table.lines.drop first.index).take (last.index + 1 - first.index)) := by
  unfold linesInRange
  rw [if_neg (by omega), if_neg (by omega), hfirst, hlast]
  simp

/-- Neighbouring lines are cut out of the table by their numbers. -/
theorem take_drop_index {before run after : List Line} {first last : Line}
    (hlines : (ofText t).lines = before ++ run ++ after) (hfirst : run.head? = some first)
    (hlast : run.getLast? = some last) :
    ((ofText t).lines.drop first.index).take (last.index + 1 - first.index) = run := by
  obtain ⟨inner, rfl⟩ := List.getLast?_eq_some_iff.mp hlast
  have hlaid := laidOut_ofText t
  have hlastIndex : last.index = before.length + inner.length := by
    have hsplit : LaidOut 0 0 ((before ++ inner) ++ last :: after) := by
      simpa [hlines] using hlaid
    simpa using hsplit.eq_of_append.1
  have hfirstIndex : first.index = before.length := by
    obtain ⟨more, hmore⟩ : ∃ more, inner ++ [last] = first :: more := by
      cases hrun : inner ++ [last] with
      | nil => simp at hrun
      | cons y more => rw [hrun] at hfirst; exact ⟨more, by simpa using hfirst⟩
    have hsplit : LaidOut 0 0 (before ++ first :: (more ++ after)) := by
      simpa [hlines, hmore] using hlaid
    simpa using hsplit.eq_of_append.1
  have hlen : last.index + 1 - first.index = (inner ++ [last]).length := by
    rw [hlastIndex, hfirstIndex]
    simp
    omega
  rw [hlen, hfirstIndex, hlines, List.append_assoc, List.drop_left, List.take_left]

end LineTable

end DocLint
