/-
What trimming takes away and what it leaves.

A text is the run of blanks at its front, what is read of it, and the run of blanks at
its end.  `trimLeft`, `trimRight` and `trim` are brought to that form here, and the lemmas
say how they pass through an append, which is how every later proof meets them: a line
of a comment is a marker, some blanks and a content put one after the other.

The last part is about the two notions of a blank.  A character is blank to the text
functions when it is white space of any script, and blank to the range check when its
bytes are ASCII white space.  `utf8_all_isBlankByte` says where the second is the same
as a statement about characters.
-/
import Mathlib.Data.List.TakeWhile
import Mathlib.Data.List.Infix
import Mathlib.Tactic.Common
import DocLint.Text.Blank

namespace DocLint

/-! ### Runs at the front and at the end -/

section Runs

variable {α : Type} {p : α → Bool} {s t : List α}

/-- A run stops at the first element that fails the test. -/
theorem takeWhile_append_of_stop (hs : ∀ a ∈ s, p a = true)
    (ht : ∀ a, t.head? = some a → p a = false) : (s ++ t).takeWhile p = s := by
  rw [List.takeWhile_append_of_pos hs]
  cases t with
  | nil => simp
  | cons a t => simp [ht a rfl]

theorem dropWhile_append_of_stop (hs : ∀ a ∈ s, p a = true)
    (ht : ∀ a, t.head? = some a → p a = false) : (s ++ t).dropWhile p = t := by
  rw [List.dropWhile_append_of_pos hs]
  cases t with
  | nil => simp
  | cons a t => simp [ht a rfl]

/-- What begins a text lies in its first part when it holds nothing of what the rest begins with. -/
theorem prefix_of_prefix_append {u : List α} (h : u <+: s ++ t)
    (ht : ∀ a, t.head? = some a → a ∉ u) : u <+: s := by
  obtain ⟨w, hw⟩ := h
  rcases List.append_eq_append_iff.mp hw with ⟨x, rfl, -⟩ | ⟨x, rfl, hx⟩
  · exact List.prefix_append _ _
  · cases x with
    | nil => simp
    | cons a x => exact absurd (by simp) (ht a (by rw [hx]; rfl))

/-- What ends a text lies in its last part when it holds nothing of what the rest ends with. -/
theorem suffix_of_suffix_append {u : List α} (h : u <:+ s ++ t)
    (hs : ∀ a, s.getLast? = some a → a ∉ u) : u <:+ t := by
  rw [← List.reverse_prefix, List.reverse_append] at h
  rw [← List.reverse_prefix]
  refine prefix_of_prefix_append h ?_
  intro a ha
  rw [List.head?_reverse] at ha
  rw [List.mem_reverse]
  exact hs a ha

end Runs

namespace Text

variable {p : Char → Bool} {s t : Text}

theorem dropEndWhile_append_of_all (s : Text) (h : ∀ c ∈ t, p c = true) :
    dropEndWhile p (s ++ t) = dropEndWhile p s := by
  unfold dropEndWhile
  rw [List.reverse_append, List.dropWhile_append_of_pos]
  intro c hc
  exact h c (by simpa using hc)

theorem dropEndWhile_append_of_not {c : Char} (s t : Text) (h : p c = false) :
    dropEndWhile p (s ++ c :: t) = s ++ c :: dropEndWhile p t := by
  have hrev : (s ++ c :: t).reverse = t.reverse ++ c :: s.reverse := by simp
  unfold dropEndWhile
  rw [hrev, List.dropWhile_append]
  split
  · rename_i hempty
    rw [List.isEmpty_iff.mp hempty]
    simp [h]
  · simp

/-- What is dropped at the end satisfies the test, and what is kept does not end in it. -/
theorem dropEndWhile_append_rest (p : Char → Bool) (t : Text) :
    ∃ rest, t = dropEndWhile p t ++ rest ∧ (∀ c ∈ rest, p c = true) ∧
      ∀ c, (dropEndWhile p t).getLast? = some c → p c = false := by
  refine ⟨(t.reverse.takeWhile p).reverse, ?_, ?_, ?_⟩
  · unfold dropEndWhile
    rw [← List.reverse_append, List.takeWhile_append_dropWhile, List.reverse_reverse]
  · intro c hc
    exact List.mem_takeWhile_imp (List.mem_reverse.mp hc)
  · intro c hc
    unfold dropEndWhile at hc
    rw [List.getLast?_reverse] at hc
    have hnot := List.head?_dropWhile_not p t.reverse
    rw [hc] at hnot
    simpa using hnot

/-! ### Blank texts -/

/-- What holds of all characters of a text is decided along the text, not over all characters. -/
instance (priority := high) decidableForallMem (t : Text) (p : Char → Prop) [DecidablePred p] :
    Decidable (∀ c ∈ t, p c) :=
  List.decidableBAll p t

theorem allBlank_iff : allBlank t = true ↔ ∀ c ∈ t, isBlank c = true := List.all_eq_true

@[simp] theorem allBlank_nil : allBlank [] = true := rfl

theorem allBlank_cons {c : Char} : allBlank (c :: t) = (isBlank c && allBlank t) := List.all_cons

@[simp] theorem allBlank_append : allBlank (s ++ t) = (allBlank s && allBlank t) :=
  List.all_append

theorem allBlank_eq_false_of_mem {c : Char} (hc : c ∈ t) (h : isBlank c = false) :
    allBlank t = false := by
  rw [← Bool.not_eq_true, allBlank_iff]
  intro hall
  rw [hall c hc] at h
  simp at h

theorem allBlank_leadingBlanks (t : Text) : allBlank (leadingBlanks t) = true :=
  List.all_takeWhile

theorem allBlank_spaces (n : Nat) : allBlank (List.replicate n ' ') = true := by
  rw [allBlank_iff]
  intro c hc
  rw [(List.mem_replicate.mp hc).2]
  rfl

theorem trimLeft_eq_nil_iff : trimLeft t = [] ↔ allBlank t = true := by
  rw [allBlank_iff]
  exact List.dropWhile_eq_nil_iff

/-- A text that is not blank has a first character that is not. -/
theorem exists_trimLeft_eq_cons (h : allBlank t = false) :
    ∃ c r, trimLeft t = c :: r ∧ isBlank c = false := by
  cases htrim : trimLeft t with
  | nil =>
      rw [trimLeft_eq_nil_iff.mp htrim] at h
      simp at h
  | cons c r =>
      refine ⟨c, r, rfl, ?_⟩
      have hnot := List.head?_dropWhile_not isBlank t
      unfold trimLeft at htrim
      rw [htrim] at hnot
      simpa using hnot

/-! ### Trimming through an append -/

theorem trimLeft_append_of_allBlank (t : Text) (h : allBlank s = true) :
    trimLeft (s ++ t) = trimLeft t :=
  List.dropWhile_append_of_pos (allBlank_iff.mp h)

theorem trimLeft_cons_of_not {c : Char} (t : Text) (h : isBlank c = false) :
    trimLeft (c :: t) = c :: t := by
  simp [trimLeft, h]

theorem trimLeft_append_of_not {c : Char} (s t : Text) (h : isBlank c = false) :
    trimLeft (s ++ c :: t) = trimLeft s ++ c :: t := by
  induction s with
  | nil => exact trimLeft_cons_of_not t h
  | cons d s ih =>
      cases hd : isBlank d with
      | true => simpa [trimLeft, hd] using ih
      | false =>
          rw [List.cons_append, trimLeft_cons_of_not _ hd, trimLeft_cons_of_not _ hd, List.cons_append]

theorem leadingBlanks_append_of_not {c : Char} (s t : Text) (h : isBlank c = false) :
    leadingBlanks (s ++ c :: t) = leadingBlanks s := by
  induction s with
  | nil => simp [leadingBlanks, h]
  | cons d s ih =>
      cases hd : isBlank d with
      | true => simpa [leadingBlanks, hd] using ih
      | false => simp [leadingBlanks, hd]

theorem leadingBlanks_append_of_allBlank (t : Text) (h : allBlank s = true) :
    leadingBlanks (s ++ t) = s ++ leadingBlanks t :=
  List.takeWhile_append_of_pos (allBlank_iff.mp h)

theorem leadingBlanks_cons_of_not {c : Char} (t : Text) (h : isBlank c = false) :
    leadingBlanks (c :: t) = [] := by
  simp [leadingBlanks, h]

/-- Spaces are the indentation of what follows them. -/
theorem leadingBlanks_spaces_append {c : Char} (n : Nat) (t : Text) (h : isBlank c = false) :
    leadingBlanks (List.replicate n ' ' ++ c :: t) = List.replicate n ' ' := by
  rw [leadingBlanks_append_of_allBlank _ (allBlank_spaces n), leadingBlanks_cons_of_not t h,
    List.append_nil]

theorem trimRight_append_of_allBlank (s : Text) (h : allBlank t = true) :
    trimRight (s ++ t) = trimRight s :=
  dropEndWhile_append_of_all s (allBlank_iff.mp h)

theorem trimRight_append_of_not {c : Char} (s t : Text) (h : isBlank c = false) :
    trimRight (s ++ c :: t) = s ++ c :: trimRight t :=
  dropEndWhile_append_of_not s t h

theorem trimRight_eq_nil (h : allBlank t = true) : trimRight t = [] := by
  have hnil := trimRight_append_of_allBlank [] h
  simpa [trimRight, dropEndWhile] using hnil

/-- Trimming at the end leaves the blanks at the front. -/
theorem trimRight_eq_append_trim (h : allBlank t = false) :
    trimRight t = leadingBlanks t ++ trim t := by
  obtain ⟨c, r, htrim, hc⟩ := exists_trimLeft_eq_cons h
  have hsplit : leadingBlanks t ++ c :: r = t := by
    rw [← htrim]
    exact leadingBlanks_append_trimLeft t
  unfold trim
  rw [htrim]
  conv_lhs => rw [← hsplit]
  rw [trimRight_append_of_not _ _ hc]
  have hback := trimRight_append_of_not [] r hc
  rw [List.nil_append] at hback
  rw [hback, List.nil_append]

/-- Blanks at the end do not change what is left. -/
theorem trim_append_of_allBlank (s : Text) (h : allBlank t = true) : trim (s ++ t) = trim s := by
  unfold trim
  cases hs : allBlank s with
  | true =>
      have hall : allBlank (s ++ t) = true := by rw [allBlank_append, hs, h, Bool.and_self]
      rw [trimLeft_eq_nil_iff.mpr hs, trimLeft_eq_nil_iff.mpr hall]
  | false =>
      obtain ⟨c, r, htrim, hc⟩ := exists_trimLeft_eq_cons hs
      have hsplit := leadingBlanks_append_trimLeft s
      rw [htrim] at hsplit
      have hleft : trimLeft (s ++ t) = c :: r ++ t := by
        rw [← hsplit, List.append_assoc, trimLeft_append_of_allBlank _ (allBlank_leadingBlanks s)]
        exact trimLeft_cons_of_not _ hc
      rw [hleft, htrim, trimRight_append_of_allBlank _ h]

theorem trim_eq_nil_iff : trim t = [] ↔ allBlank t = true := by
  constructor
  · intro h
    by_contra hblank
    obtain ⟨c, r, htrim, hc⟩ := exists_trimLeft_eq_cons (by simpa using hblank)
    have hright := trimRight_append_of_not [] r hc
    unfold trim at h
    rw [htrim, ← List.nil_append (c :: r), hright] at h
    simp at h
  · intro h
    unfold trim
    rw [trimLeft_eq_nil_iff.mpr h]
    rfl

/-! ### Texts without blanks in front -/

/-- No blank stands in front of the text. -/
def Flush (t : Text) : Prop := ∀ c, t.head? = some c → isBlank c = false

theorem flush_cons {c : Char} : Flush (c :: t) ↔ isBlank c = false := by simp [Flush]

theorem flush_trimLeft (t : Text) : (trimLeft t).Flush := by
  intro c hc
  have hnot := List.head?_dropWhile_not isBlank t
  unfold trimLeft at hc
  rw [hc] at hnot
  simpa using hnot

theorem trimLeft_append_of_flush (hs : allBlank s = true) (ht : t.Flush) : trimLeft (s ++ t) = t :=
  dropWhile_append_of_stop (allBlank_iff.mp hs) ht

theorem Flush.trimLeft_eq (h : t.Flush) : trimLeft t = t := trimLeft_append_of_flush allBlank_nil h

theorem trimLeft_of_indent (h : indent t = 0) : trimLeft t = t := by
  have hsplit := leadingBlanks_append_trimLeft t
  rw [List.length_eq_zero_iff.mp h, List.nil_append] at hsplit
  exact hsplit

/-- A text is some blanks and a text without blanks in front. -/
theorem exists_flush (t : Text) : ∃ blanks, t = blanks ++ trimLeft t ∧ allBlank blanks = true :=
  ⟨leadingBlanks t, (leadingBlanks_append_trimLeft t).symm, allBlank_leadingBlanks t⟩

/-! ### What trimming takes away -/

/-- What is trimmed at the end is blank. -/
theorem exists_trimRight_append (t : Text) : ∃ rest, t = trimRight t ++ rest ∧ allBlank rest = true := by
  obtain ⟨rest, hrest, hblank, -⟩ := dropEndWhile_append_rest isBlank t
  exact ⟨rest, hrest, allBlank_iff.mpr hblank⟩

theorem trimLeft_sublist (t : Text) : (trimLeft t).Sublist t := List.dropWhile_sublist _

theorem dropEndWhile_sublist (p : Char → Bool) (t : Text) : (dropEndWhile p t).Sublist t := by
  obtain ⟨rest, hrest, -⟩ := dropEndWhile_append_rest p t
  conv_rhs => rw [hrest]
  exact List.sublist_append_left _ _

theorem trimRight_sublist (t : Text) : (trimRight t).Sublist t := dropEndWhile_sublist _ t

theorem trim_subset (t : Text) : trim t ⊆ t :=
  ((trimRight_sublist _).trans (trimLeft_sublist t)).subset

/-- A part of blanks is blank. -/
theorem allBlank_of_sublist (hs : List.Sublist s t) (ht : allBlank t = true) : allBlank s = true :=
  allBlank_iff.mpr fun c hc => allBlank_iff.mp ht c (hs.subset hc)

theorem trim_trimRight (t : Text) : trim (trimRight t) = trim t := by
  obtain ⟨rest, hrest, hblank⟩ := exists_trimRight_append t
  conv_rhs => rw [hrest]
  rw [trim_append_of_allBlank _ hblank]

theorem allBlank_trimRight (t : Text) : allBlank (trimRight t) = allBlank t := by
  obtain ⟨rest, hrest, hblank⟩ := exists_trimRight_append t
  conv_rhs => rw [hrest]
  rw [allBlank_append, hblank, Bool.and_true]

@[simp] theorem trimRight_trimRight (t : Text) : trimRight (trimRight t) = trimRight t := by
  obtain ⟨rest, hrest, hblank⟩ := exists_trimRight_append t
  conv_rhs => rw [hrest, trimRight_append_of_allBlank _ hblank]

theorem flush_trim (t : Text) : (trim t).Flush := by
  unfold trim
  cases h : trimLeft t with
  | nil =>
      intro c hc
      simp [trimRight, dropEndWhile] at hc
  | cons c r =>
      have hc := flush_cons.mp (h ▸ flush_trimLeft t)
      have hright := trimRight_append_of_not [] r hc
      rw [List.nil_append, List.nil_append] at hright
      rw [hright]
      exact flush_cons.mpr hc

@[simp] theorem trim_trim (t : Text) : trim (trim t) = trim t := by
  conv_lhs => rw [trim, (flush_trim t).trimLeft_eq]
  exact trimRight_trimRight _

/-! ### Indentation -/

theorem leadingBlanks_append_of_flush (hs : allBlank s = true) (ht : t.Flush) :
    leadingBlanks (s ++ t) = s :=
  takeWhile_append_of_stop (allBlank_iff.mp hs) ht

theorem Flush.indent_eq (h : t.Flush) : indent t = 0 := by
  have hnil := leadingBlanks_append_of_flush allBlank_nil h
  rw [List.nil_append] at hnil
  rw [indent, hnil, List.length_nil]

/-- Blanks at the end are no indentation, unless there is nothing else. -/
theorem indent_trimRight (h : allBlank t = false) : indent (trimRight t) = indent t := by
  rw [trimRight_eq_append_trim h, indent,
    leadingBlanks_append_of_flush (allBlank_leadingBlanks t) (flush_trim t), indent]

/-- A part of the indentation can be cut off, and what is indented stays. -/
theorem drop_eq_append_trimLeft {n : Nat} (h : n ≤ indent t) :
    t.drop n = (leadingBlanks t).drop n ++ trimLeft t := by
  conv_lhs => rw [← leadingBlanks_append_trimLeft t]
  exact List.drop_append_of_le_length h

theorem allBlank_drop_leadingBlanks (n : Nat) (t : Text) :
    allBlank ((leadingBlanks t).drop n) = true :=
  allBlank_of_sublist (List.drop_sublist _ _) (allBlank_leadingBlanks t)

theorem trim_drop {n : Nat} (h : n ≤ indent t) : trim (t.drop n) = trim t := by
  rw [drop_eq_append_trimLeft h, trim,
    trimLeft_append_of_flush (allBlank_drop_leadingBlanks n t) (flush_trimLeft t), trim]

theorem indent_drop (n : Nat) {t : Text} (h : n ≤ indent t) : indent (t.drop n) + n = indent t := by
  rw [drop_eq_append_trimLeft h, indent,
    leadingBlanks_append_of_flush (allBlank_drop_leadingBlanks n t) (flush_trimLeft t),
    List.length_drop]
  exact Nat.sub_add_cancel h

/-! ### Blanks as bytes -/

/-- White space among ASCII characters: tab, line feed, vertical tab, form feed, carriage return
and space. -/
def isAsciiBlank (c : Char) : Bool := (0x09 ≤ c.toNat && c.toNat ≤ 0x0D) || c.toNat == 0x20

theorem all_isAsciiBlank_spaces (n : Nat) : (List.replicate n ' ').all isAsciiBlank = true := by
  rw [List.all_eq_true]
  intro c hc
  rw [(List.mem_replicate.mp hc).2]
  rfl

theorem isBlankByte_ofNat {n : Nat} (h : n < 256) :
    isBlankByte (UInt8.ofNat n) = ((0x09 ≤ n && n ≤ 0x0D) || n == 0x20) := by
  have hn : (UInt8.ofNat n).toNat = n := UInt8.toNat_ofNat_of_lt' h
  rw [Bool.eq_iff_iff]
  simp only [isBlankByte, Bool.or_eq_true, Bool.and_eq_true, decide_eq_true_eq, beq_iff_eq,
    UInt8.le_iff_toNat_le, ← UInt8.toNat_inj, hn]
  rfl

/-- A character is all blank bytes exactly when it is ASCII white space: the first byte of a
longer encoding lies above all of ASCII. -/
theorem utf8EncodeChar_all_isBlankByte (c : Char) :
    (String.utf8EncodeChar c).all isBlankByte = isAsciiBlank c := by
  have hnat : c.toNat = c.val.toNat := rfl
  have hhigh : ∀ {n : Nat} (bytes : List UInt8), 0x80 ≤ n → n < 256 → 0x80 ≤ c.toNat →
      (UInt8.ofNat n :: bytes).all isBlankByte = isAsciiBlank c := by
    intro n bytes hlow hlt hc
    have hbyte : isBlankByte (UInt8.ofNat n) = false := by
      rw [isBlankByte_ofNat hlt]
      simp
      omega
    have hchar : isAsciiBlank c = false := by
      simp [isAsciiBlank]
      omega
    simp [hbyte, hchar]
  unfold String.utf8EncodeChar
  simp only
  split
  · rw [List.all_cons, List.all_nil, Bool.and_true, isBlankByte_ofNat (by omega)]
    rfl
  · split
    · exact hhigh _ (by omega) (by omega) (by omega)
    · split
      · exact hhigh _ (by omega) (by omega) (by omega)
      · exact hhigh _ (by omega) (by omega) (by omega)

/-- A text is all blank bytes exactly when it is all ASCII white space. -/
theorem utf8_all_isBlankByte (t : Text) : (utf8 t).all isBlankByte = t.all isAsciiBlank := by
  induction t with
  | nil => rfl
  | cons c r ih =>
      rw [utf8, List.flatMap_cons, List.all_append, utf8EncodeChar_all_isBlankByte, List.all_cons]
      rw [← ih, utf8]

end Text

end DocLint
