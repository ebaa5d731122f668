/-
Offsets and positions.

A column of a line has an offset, and an offset has a position.  From a column to its offset and
back nothing is lost (`position_column`).  From an offset to its position something is, inside a
character and inside or behind a terminator: `takeBytes` keeps the whole characters that fit, so
the way back leads to the last column that is not beyond the offset (`isGreatest_column`).
Because rounding down never passes a column, positions are in the order of their offsets
(`position_mono`).
-/
import Mathlib.Order.Bounds.Basic
import DocLint.Proofs.Source.Partition

namespace DocLint

/-! ### Columns of a line -/

/-- The offset of a column: where its character begins, or where the content ends. -/
def Line.columnOffset (l : Line) (column : Nat) : Nat := l.offset + l.content.bytesBefore column

/-- The offsets where a character of the line begins, and that of the end of its content. -/
def Line.columnOffsets (l : Line) : Set Nat :=
  {x | ∃ column ≤ l.content.length, x = l.columnOffset column}

theorem Line.columnOffset_le (l : Line) (column : Nat) : l.columnOffset column ≤ l.contentEnd := by
  have hsplit := congrArg Text.byteSize (List.take_append_drop column l.content)
  rw [Text.byteSize_append] at hsplit
  have hend : l.contentEnd = l.offset + l.content.byteSize := rfl
  unfold Line.columnOffset Text.bytesBefore
  omega

/-- One position is in front of another or is the same: lines count before characters. -/
def Position.AtMost (p q : Position) : Prop :=
  p.line < q.line ∨ p.line = q.line ∧ p.character ≤ q.character

namespace LineTable

variable {t : Text} {l : Line}

/-- The character of a position counts the characters of its line that fit in front of it. -/
theorem position_of_lineAt {x : Nat} (h : (ofText t).lineAt x = .ok l) : (ofText t).position x =
    .ok ⟨l.index + 1, (Text.takeBytes (x - l.offset) l.content).length + 1⟩ := by
  have hbytes : ((x : Int) - l.offset).toNat = x - l.offset := by omega
  unfold position
  rw [h]
  simp only [bind, Except.bind, hbytes]
  rfl

/-- A column belongs to its line, also at the end of the file. -/
theorem lineAt_columnOffset (hl : l ∈ (ofText t).lines) (column : Nat) :
    (ofText t).lineAt (l.columnOffset column) = .ok l := by
  have hle := l.columnOffset_le column
  have hlow : l.offset ≤ l.columnOffset column := Nat.le_add_right _ _
  refine lineAt_eq_ok_iff.mpr ⟨hl, by omega, ?_⟩
  rcases contentEnd_lt_stop_or_last hl with hlt | ⟨heq, hlast⟩
  · left
    omega
  · rcases Nat.lt_or_eq_of_le (Nat.le_trans hle (Nat.le_of_eq heq)) with hlt | hend
    · left
      omega
    · exact Or.inr ⟨by omega, hlast⟩

/-- **A column is the position of its offset.** -/
theorem position_column (hl : l ∈ (ofText t).lines) {column : Nat}
    (hcolumn : column ≤ l.content.length) :
    (ofText t).position (l.columnOffset column) = .ok ⟨l.index + 1, column + 1⟩ := by
  have hbytes : l.columnOffset column - l.offset = l.content.bytesBefore column :=
    Nat.add_sub_cancel_left _ _
  rw [position_of_lineAt (lineAt_columnOffset hl column), hbytes, Text.takeBytes_bytesBefore,
    List.length_take, Nat.min_eq_left hcolumn]

/-- **The position of an offset is the last column that is not beyond it.** -/
theorem isGreatest_column {x : Nat} (hlow : l.offset ≤ x) :
    IsGreatest {y ∈ l.columnOffsets | y ≤ x}
      (l.columnOffset (Text.takeBytes (x - l.offset) l.content).length) := by
  refine ⟨⟨⟨_, (Text.prefix_takeBytes _ _).length_le, rfl⟩, ?_⟩, ?_⟩
  · have hfits := Text.byteSize_takeBytes_le (x - l.offset) l.content
    rw [Line.columnOffset, Text.bytesBefore, ← Text.takeBytes_eq_take]
    omega
  · rintro y ⟨⟨column, hcolumn, rfl⟩, hle⟩
    unfold Line.columnOffset at hle ⊢
    have hlength : column ≤ (Text.takeBytes (x - l.offset) l.content).length :=
      Text.le_length_takeBytes hcolumn (show l.content.bytesBefore column ≤ _ by omega)
    have hbytes := Text.bytesBefore_le (t := l.content) hlength
    omega

/-- **Positions are in the order of their offsets.** -/
theorem position_mono {x y : Nat} {l m : Line} (hxy : x ≤ y) (hx : (ofText t).lineAt x = .ok l)
    (hy : (ofText t).lineAt y = .ok m) :
    Position.AtMost ⟨l.index + 1, (Text.takeBytes (x - l.offset) l.content).length + 1⟩
      ⟨m.index + 1, (Text.takeBytes (y - m.offset) m.content).length + 1⟩ := by
  obtain ⟨hl, hlow, -⟩ := lineAt_eq_ok_iff.mp hx
  obtain ⟨hm, -, hhigh⟩ := lineAt_eq_ok_iff.mp hy
  obtain ⟨above, below, hlines⟩ := List.append_of_mem hl
  rcases above_or_eq_or_below hlines hm with ⟨habove, -, hstop⟩ | rfl | ⟨-, hindex, -⟩
  · -- A line above holds no later offset: it stops before, and is not the last one.
    have hlt := offset_lt_stop hl
    rcases hhigh with hhigh | ⟨hend, hlast⟩
    · omega
    · have hstopLast := stop_of_getLast? hlast
      have hsize := stop_le_size hl
      omega
  · refine Or.inr ⟨rfl, Nat.succ_le_succ (Text.le_length_takeBytes ?_ ?_)⟩
    · exact (Text.prefix_takeBytes _ _).length_le
    · have hfits := Text.byteSize_takeBytes_le (x - m.offset) m.content
      rw [← Text.takeBytes_eq_take]
      omega
  · exact Or.inl (Nat.succ_lt_succ hindex)

/-- **Offsets and positions are inverse up to rounding down.**  A column has an offset, and its
position is the column.  An offset up to the end of the file has a position, and the offset of that
is the greatest column offset of the line which is not beyond.  A greater offset has no smaller
position. -/
theorem position_byteOffset (ht : (ofText t).lines ≠ []) :
    (∀ (i : Nat) (l : Line), (ofText t).lines[i]? = some l → ∀ column ≤ l.content.length,
      ∃ x, (ofText t).byteOffset i column = .ok x ∧
        (ofText t).position x = .ok ⟨i + 1, column + 1⟩) ∧
      (∀ x ≤ (ofText t).size, ∃ l p y, (ofText t).lineAt x = .ok l ∧
        (ofText t).position x = .ok p ∧
        (ofText t).byteOffset (p.line - 1 : Nat) (p.character - 1 : Nat) = .ok y ∧
        IsGreatest {z ∈ l.columnOffsets | z ≤ x} y) ∧
      ∀ x y : Nat, x ≤ y → y ≤ (ofText t).size → ∃ p q, (ofText t).position x = .ok p ∧
        (ofText t).position y = .ok q ∧ p.AtMost q := by
  have hlookup : ∀ x : Nat, x ≤ (ofText t).size → ∃ l, (ofText t).lineAt x = .ok l := by
    have hne : t ≠ [] := by
      rintro rfl
      exact ht rfl
    exact fun x hx => exists_lineAt_of_le hne (Int.natCast_nonneg x) (Int.ofNat_le.mpr hx)
  refine ⟨?_, ?_, ?_⟩
  · intro i l hi column hcolumn
    have hl := List.mem_of_getElem? hi
    obtain rfl := (partitions_ofText t).index_eq i l hi
    exact ⟨_, byteOffset_index hl column, position_column hl hcolumn⟩
  · intro x hx
    obtain ⟨l, hat⟩ := hlookup x hx
    obtain ⟨hl, hlow, -⟩ := lineAt_eq_ok_iff.mp hat
    exact ⟨l, _, _, hat, position_of_lineAt hat, byteOffset_index hl _,
      isGreatest_column (Int.ofNat_le.mp hlow)⟩
  · intro x y hxy hy
    obtain ⟨l, hl⟩ := hlookup x (Nat.le_trans hxy hy)
    obtain ⟨m, hm⟩ := hlookup y hy
    exact ⟨_, _, position_of_lineAt hl, position_of_lineAt hm, position_mono hxy hl hm⟩

/-- Between a CR and its LF the position is the end of the content, and so is the way back. -/
theorem position_byteOffset_divided :
    let table := ofText "é\r\nb".toList
    table.lines ≠ [] ∧ table.position 3 = .ok ⟨1, 2⟩ ∧ table.byteOffset 0 1 = .ok 2 ∧
      IsGreatest {z ∈ (⟨0, 0, ['é'], some .crlf⟩ : Line).columnOffsets | z ≤ 3} 2 := by
  have hlines : (ofText "é\r\nb".toList).lines ≠ [] := by decide
  obtain ⟨l, p, y, hl, hp, hy, hgreatest⟩ := (position_byteOffset hlines).2.1 3 (by decide)
  obtain rfl : (⟨0, 0, ['é'], some .crlf⟩ : Line) = l := Except.ok.inj hl
  obtain rfl : (⟨1, 2⟩ : Position) = p := Except.ok.inj hp
  obtain rfl : 2 = y := Except.ok.inj hy
  exact ⟨hlines, hp, hy, hgreatest⟩

end LineTable

end DocLint
