/-
The table of a text is its one partition into lines.

`IsCut` says when pieces are lines: none is broken inside, only the last one can go without a
terminator, and then it is not empty, and a CR and the LF behind it are one terminator.  Pieces
like that are what `splitLines` makes of the text they are put together to
(`IsCut.splitLines_flatMap_text`).  A table `Partitions` a text when its lines are such pieces
of it and count what stands in front of them; no other table than that of the text does.

Each byte then lies on one line, and a lookup finds that line.  The end of the file belongs to
the last line, and nothing else is found (`lineAt_eq_ok_iff`).
-/
import Mathlib.Data.List.Chain
import DocLint.Proofs.Source.LineTable

namespace DocLint

/-! ### Lines as pieces of a text -/

/-- Lines as a text is cut into them. -/
structure IsCut (lines : List RawLine) : Prop where
  unbroken : ∀ l ∈ lines, l.content.Unbroken
  /-- Only the last line can go without a terminator. -/
  ended : ∀ l ∈ lines.dropLast, l.ending ≠ none
  /-- A line without a terminator is not empty. -/
  filled : ∀ l ∈ lines, l.ending = none → l.content ≠ []
  /-- A CR and the LF behind it are not divided. -/
  undivided : lines.IsChain fun l next => l.ending = some .cr → next.text.head? ≠ some '\n'

/-- No LF stands behind a CR that ends a line. -/
theorem undivided_splitLines (t : Text) :
    (splitLines t).IsChain fun l next => l.ending = some .cr → next.text.head? ≠ some '\n' := by
  fun_induction splitLines t with
  | case1 => exact List.IsChain.nil
  | case2 r ih => exact List.isChain_cons.mpr ⟨by simp, ih⟩
  | case3 r hnot ih =>
      refine List.isChain_cons.mpr ⟨?_, ih⟩
      intro next hnext _ hfeed
      obtain ⟨more, hsplit⟩ := List.head?_eq_some_iff.mp hnext
      obtain ⟨u, hu⟩ := List.head?_eq_some_iff.mp hfeed
      have hr := splitLines_flatMap_text r
      rw [hsplit, List.flatMap_cons, hu, List.cons_append] at hr
      exact hnot _ hr.symm
  | case4 r ih => exact List.isChain_cons.mpr ⟨by simp, ih⟩
  | case5 => exact List.isChain_singleton _
  | case6 c r _ hcr hlf l more hcons ih =>
      rw [hcons] at ih
      exact List.isChain_cons.mpr (List.isChain_cons.mp ih)

theorem isCut_splitLines (t : Text) : IsCut (splitLines t) := by
  refine ⟨unbroken_of_mem_splitLines, ending_ne_none_of_mem_dropLast t, ?_, undivided_splitLines t⟩
  intro l hl hending hnil
  refine text_ne_nil_of_mem_splitLines l hl ?_
  rw [RawLine.text, RawLine.endingText, hending, hnil]
  rfl

namespace IsCut

variable {l : RawLine} {lines : List RawLine}

theorem text_ne_nil (h : IsCut lines) (hl : l ∈ lines) : l.text ≠ [] := by
  intro hnil
  obtain ⟨hcontent, hending⟩ := List.append_eq_nil_iff.mp hnil
  by_cases hnone : l.ending = none
  · exact h.filled l hl hnone hcontent
  · exact RawLine.endingText_ne_nil hnone hending

theorem tail (h : IsCut (l :: lines)) : IsCut lines := by
  refine ⟨fun x hx => h.unbroken x (by simp [hx]), ?_, fun x hx => h.filled x (by simp [hx]),
    (List.isChain_cons.mp h.undivided).2⟩
  intro x hx
  refine h.ended x ?_
  cases lines with
  | nil => simp at hx
  | cons y lines => simp [hx]

/-- **Lines put together are cut into the same lines.** -/
theorem splitLines_flatMap_text (h : IsCut lines) :
    splitLines (lines.flatMap RawLine.text) = lines := by
  induction lines with
  | nil => rfl
  | cons l lines ih =>
      obtain ⟨content, ending⟩ := l
      have hcontent : content.Unbroken := h.unbroken ⟨content, ending⟩ (by simp)
      rw [List.flatMap_cons]
      cases ending with
      | none =>
          -- Without a terminator it is the last line.
          obtain rfl : lines = [] := by
            by_contra hne
            obtain ⟨y, more, rfl⟩ := List.exists_cons_of_ne_nil hne
            exact h.ended ⟨content, none⟩ (by simp) rfl
          have hfilled : content ≠ [] := h.filled ⟨content, none⟩ (by simp) rfl
          simpa [RawLine.text, RawLine.endingText] using splitLines_of_unbroken hcontent hfilled
      | some e =>
          have hfeed : e = .cr → (lines.flatMap RawLine.text).head? ≠ some '\n' := by
            rintro rfl
            cases lines with
            | nil => simp
            | cons next more =>
                have hnext := (List.isChain_cons_cons.mp h.undivided).1 rfl
                obtain ⟨c, u, hcu⟩ := List.exists_cons_of_ne_nil (h.tail.text_ne_nil (l := next) (by simp))
                rw [List.flatMap_cons, hcu]
                rwa [hcu] at hnext
          have hsplit := splitLines_append_ending hcontent e hfeed
          rw [ih h.tail] at hsplit
          rwa [RawLine.text, List.append_assoc]

end IsCut

/-- Lines that are laid out begin where the one before them stops. -/
theorem LaidOut.isChain {index offset : Nat} {lines : List Line} (h : LaidOut index offset lines) :
    lines.IsChain fun l next => next.offset = l.stop := by
  induction h with
  | nil => exact List.IsChain.nil
  | @cons l more hmore ih =>
      refine List.isChain_cons.mpr ⟨?_, ih⟩
      intro next hnext
      obtain ⟨rest, rfl⟩ := List.head?_eq_some_iff.mp hnext
      have hlaid : LaidOut (l.index + 1) l.stop ([] ++ next :: rest) := hmore
      exact hlaid.eq_of_append.2

/-- Does the byte lie on the line? -/
def Line.Holds (l : Line) (x : Int) : Prop := (l.offset : Int) ≤ x ∧ x < l.stop

namespace LineTable

/-! ### Partitions -/

/-- The table cuts the text into lines, numbered and placed by what stands in front of them. -/
structure Partitions (table : LineTable) (t : Text) : Prop where
  text_eq : table.text = t
  isCut : IsCut (table.lines.map Line.raw)
  /-- The number of a line is its place in the table. -/
  index_eq : ∀ (i : Nat) (l : Line), table.lines[i]? = some l → l.index = i
  first : ∀ l, table.lines.head? = some l → l.offset = 0
  /-- A line begins where the one before it stops. -/
  next : table.lines.IsChain fun l next => next.offset = l.stop
  measured : ∀ l ∈ table.lines,
    l.contentLength = l.content.utf8.length ∧ l.length = l.raw.text.utf8.length
  size_eq : table.size = t.utf8.length

variable {t : Text} {l : Line} {x : Int}

theorem partitions_ofText (t : Text) : (ofText t).Partitions t where
  text_eq := text_ofText t
  isCut := by
    rw [map_raw_ofText]
    exact isCut_splitLines t
  index_eq := by
    intro i l hl
    obtain ⟨hi, hget⟩ := List.getElem?_eq_some_iff.mp hl
    have hlines := List.take_append_drop i (ofText t).lines
    rw [List.drop_eq_getElem_cons hi, hget] at hlines
    have hlaid := laidOut_ofText t
    rw [← hlines] at hlaid
    have hindex := hlaid.eq_of_append.1
    rw [List.length_take] at hindex
    omega
  first := by
    intro l hl
    obtain ⟨more, hlines⟩ := List.head?_eq_some_iff.mp hl
    have hlaid : LaidOut 0 0 ([] ++ l :: more) := hlines ▸ laidOut_ofText t
    exact hlaid.eq_of_append.2
  next := (laidOut_ofText t).isChain
  measured := by
    intro l _
    rw [Text.length_utf8, Text.length_utf8]
    exact ⟨rfl, rfl⟩
  size_eq := by rw [size_ofText, Text.length_utf8]

/-- Lines that count what stands in front of them are those that laying them out gives. -/
theorem layOut_map_raw {lines : List Line} {index offset : Nat}
    (hindex : ∀ (i : Nat) (l : Line), lines[i]? = some l → l.index = index + i)
    (hfirst : ∀ l, lines.head? = some l → l.offset = offset)
    (hnext : lines.IsChain fun l next => next.offset = l.stop) :
    layOut index offset (lines.map Line.raw) = lines := by
  induction lines generalizing index offset with
  | nil => rfl
  | cons l lines ih =>
      obtain rfl : l.index = index := hindex 0 l rfl
      obtain rfl : l.offset = offset := hfirst l rfl
      obtain ⟨hstop, hmore⟩ := List.isChain_cons.mp hnext
      have hnumbers : ∀ (i : Nat) (x : Line), lines[i]? = some x → x.index = l.index + 1 + i := by
        intro i x hx
        rw [hindex (i + 1) x hx, Nat.add_right_comm, Nat.add_assoc]
      have hrest := ih hnumbers hstop hmore
      rw [List.map_cons, layOut]
      exact congrArg (l :: ·) hrest

/-- **There is one partition of a text into lines.** -/
theorem Partitions.eq_ofText {table : LineTable} (h : table.Partitions t) : table = ofText t := by
  have hsplit : splitLines t = table.lines.map Line.raw := by
    rw [← h.text_eq, ← h.isCut.splitLines_flatMap_text, List.flatMap_map]
    rfl
  have hnumbers : ∀ (i : Nat) (l : Line), table.lines[i]? = some l → l.index = 0 + i := by
    simpa using h.index_eq
  have hlines := layOut_map_raw hnumbers h.first h.next
  rw [ofText, hsplit, hlines]

/-! ### Looking up any offset -/

/-- Between the content of a line and its end there is a terminator, or the line is the last one. -/
theorem contentEnd_lt_stop_or_last (hl : l ∈ (ofText t).lines) :
    l.contentEnd < l.stop ∨ l.contentEnd = l.stop ∧ (ofText t).lines.getLast? = some l := by
  have hlength : l.stop = l.contentEnd + l.raw.endingText.byteSize := by
    simp [Line.contentEnd, Line.stop, Line.contentLength, Line.length, RawLine.text, Line.raw,
      Nat.add_assoc]
  obtain ⟨above, below, hlines⟩ := List.append_of_mem hl
  cases below with
  | nil =>
      have hlast : (ofText t).lines.getLast? = some l := by
        rw [hlines]
        simp
      rcases Nat.lt_or_eq_of_le l.contentEnd_le_stop with hlt | heq
      · exact Or.inl hlt
      · exact Or.inr ⟨heq, hlast⟩
  | cons next below =>
      have hending : l.raw.ending ≠ none := ending_ne_none hlines
      have hpos := Text.byteSize_pos (RawLine.endingText_ne_nil hending)
      exact Or.inl (by omega)

/-- The last line stops where the text does. -/
theorem stop_of_getLast? (h : (ofText t).lines.getLast? = some l) : l.stop = (ofText t).size := by
  rw [size, h]
  rfl

/-- The end of the file is looked up in the last line. -/
theorem lineAt_size (h : (ofText t).lines.getLast? = some l) :
    (ofText t).lineAt (ofText t).size = .ok l := by
  have hall : ∀ x ∈ (ofText t).lines, (x.offset : Int) ≤ (ofText t).size := by
    intro x hx
    have hstop := stop_le_size hx
    have hlt := offset_lt_stop hx
    omega
  have htake : ((ofText t).lines.takeWhile fun x => (x.offset : Int) ≤ (ofText t).size) =
      (ofText t).lines := by
    rw [List.takeWhile_eq_self_iff]
    simpa using hall
  unfold lineAt
  rw [if_neg (by omega), htake, h]

/-- **A lookup finds the line that holds the place**, and the last line at the end of the file. -/
theorem lineAt_eq_ok_iff : (ofText t).lineAt x = .ok l ↔ l ∈ (ofText t).lines ∧
    (l.offset : Int) ≤ x ∧ (x < l.stop ∨ x = l.stop ∧ (ofText t).lines.getLast? = some l) := by
  constructor
  · intro h
    have hinside : ¬(x < 0 ∨ ((ofText t).size : Int) < x) := by
      intro hout
      unfold lineAt at h
      rw [if_pos hout] at h
      cases h
    rcases Int.lt_or_eq_of_le (show x ≤ (ofText t).size by omega) with hlt | rfl
    · obtain ⟨hl, hlow, hhigh⟩ := of_lineAt_eq_ok h (by omega) hlt
      exact ⟨hl, hlow, Or.inl hhigh⟩
    · cases hlast : (ofText t).lines.getLast? with
      | none =>
          rw [lineAt, if_neg hinside, List.getLast?_eq_none_iff.mp hlast] at h
          cases h
      | some last =>
          obtain rfl := Except.ok.inj ((lineAt_size hlast).symm.trans h)
          have hmem := List.mem_of_getLast? hlast
          have hlow := offset_lt_stop hmem
          have hstop := stop_of_getLast? hlast
          exact ⟨hmem, by omega, Or.inr ⟨by omega, rfl⟩⟩
  · rintro ⟨hl, hlow, hhigh | ⟨rfl, hlast⟩⟩
    · exact lineAt_eq_ok hl hlow hhigh
    · rw [stop_of_getLast? hlast]
      exact lineAt_size hlast

/-- Every place up to the end of the file is looked up, if there is a line. -/
theorem exists_lineAt_of_le (ht : t ≠ []) (hlow : 0 ≤ x) (hhigh : x ≤ (ofText t).size) :
    ∃ l, (ofText t).lineAt x = .ok l := by
  rcases Int.lt_or_eq_of_le hhigh with hlt | rfl
  · obtain ⟨l, -, hl, -, -⟩ := exists_lineAt hlow hlt
    exact ⟨l, hl⟩
  · cases hlast : (ofText t).lines.getLast? with
    | some l => exact ⟨l, lineAt_size hlast⟩
    | none =>
        have htext := text_ofText t
        rw [text, List.getLast?_eq_none_iff.mp hlast] at htext
        exact absurd htext.symm ht

/-- Nothing else is looked up. -/
theorem lineAt_eq_error (h : x < 0 ∨ (ofText t).size < x ∨ (ofText t).size = 0) :
    (ofText t).lineAt x = .error (.outsideFile x (ofText t).size) := by
  by_cases hout : x < 0 ∨ ((ofText t).size : Int) < x
  · rw [lineAt, if_pos hout]
  · have hempty : (ofText t).lines = [] := by
      by_contra hne
      obtain ⟨l, more, hlines⟩ := List.exists_cons_of_ne_nil hne
      have hl : l ∈ (ofText t).lines := by simp [hlines]
      have hlt := offset_lt_stop hl
      have hstop := stop_le_size hl
      omega
    rw [lineAt, if_neg hout, hempty]
    rfl

/-- **The table of a text is its partition into lines**, the only one there is.  A byte of the file
lies on one line, and a lookup finds that line.  At the end of a file that is not empty it finds the
last line, and everywhere else it fails. -/
theorem ofText_partition (t : Text) :
    ((ofText t).Partitions t ∧ ∀ table : LineTable, table.Partitions t → table = ofText t) ∧
      ∀ x : Int,
        (0 ≤ x → x < (ofText t).size → ∃ l ∈ (ofText t).lines, l.Holds x ∧
          (∀ m ∈ (ofText t).lines, m.Holds x → m = l) ∧ (ofText t).lineAt x = .ok l) ∧
        (x = (ofText t).size → 0 < (ofText t).size →
          ∃ l, (ofText t).lines.getLast? = some l ∧ (ofText t).lineAt x = .ok l) ∧
        (¬(0 ≤ x ∧ x < (ofText t).size) → ¬(x = (ofText t).size ∧ 0 < (ofText t).size) →
          (ofText t).lineAt x = .error (.outsideFile x (ofText t).size)) := by
  refine ⟨⟨partitions_ofText t, fun table h => h.eq_ofText⟩, ?_⟩
  intro x
  refine ⟨?_, ?_, ?_⟩
  · intro hlow hhigh
    obtain ⟨l, hl, hat, hbegin, hend⟩ := exists_lineAt hlow hhigh
    refine ⟨l, hl, ⟨hbegin, hend⟩, ?_, hat⟩
    rintro m hm ⟨hbegin', hend'⟩
    exact Except.ok.inj ((lineAt_eq_ok hm hbegin' hend').symm.trans hat)
  · rintro rfl hpos
    have ht : t ≠ [] := by
      rintro rfl
      exact absurd hpos (by decide)
    obtain ⟨l, hl⟩ := exists_lineAt_of_le ht (Int.natCast_nonneg _) (Int.le_refl _)
    rcases (lineAt_eq_ok_iff.mp hl).2.2 with hlt | ⟨-, hlast⟩
    · have hstop := stop_le_size (lineAt_eq_ok_iff.mp hl).1
      omega
    · exact ⟨l, hlast, hl⟩
  · intro hinside hend
    exact lineAt_eq_error (by omega)

end LineTable

end DocLint
