/-
The same text with CR LF for every LF.

`Text.crlf` puts a carriage return before each line feed.  A function that asks the same
of both characters does not notice: what it takes, drops or trims of the longer text is
what it takes, drops or trims of the shorter one, again with the carriage returns.  The
lines are the same but for their breaks (`splitLines_crlf`), so the tables have lines of
the same number and content (`ofText_crlf`), and a place that is given by its line has the
same line and character in both (`position_crlf`).
-/
import DocLint.Proofs.Agree
import DocLint.Proofs.Source.LineTable

namespace DocLint

namespace Text

/-- The text with a carriage return before each line feed. -/
def crlf : Text → Text
  | [] => []
  | c :: r => if c = '\n' then '\r' :: '\n' :: crlf r else c :: crlf r

variable {s t : Text} {c : Char}

@[simp] theorem crlf_nil : crlf [] = [] := rfl

@[simp] theorem crlf_lf (t : Text) : crlf ('\n' :: t) = '\r' :: '\n' :: crlf t := if_pos rfl

theorem crlf_cons (h : c ≠ '\n') (t : Text) : crlf (c :: t) = c :: crlf t := if_neg h

theorem crlf_append (s t : Text) : crlf (s ++ t) = crlf s ++ crlf t := by
  induction s with
  | nil => rfl
  | cons c s ih =>
      by_cases hc : c = '\n'
      · subst hc
        rw [List.cons_append, crlf_lf, crlf_lf, ih]
        rfl
      · rw [List.cons_append, crlf_cons hc, crlf_cons hc, ih]
        rfl

/-- Without a line feed there is nothing to do. -/
theorem crlf_of_not_mem (h : '\n' ∉ t) : crlf t = t := by
  induction t with
  | nil => rfl
  | cons c t ih =>
      rw [crlf_cons (fun hc => h (by simp [hc])), ih fun ht => h (by simp [ht])]

theorem crlf_of_unbroken (h : t.Unbroken) : crlf t = t :=
  crlf_of_not_mem fun hmem => (h _ hmem).2 rfl

theorem isEmpty_crlf (t : Text) : (crlf t).isEmpty = t.isEmpty := by
  cases t with
  | nil => rfl
  | cons c t =>
      rw [crlf]
      split <;> rfl

/-- Only a line feed is told by another character than itself. -/
theorem exists_of_crlf_eq_cons (hc : c ≠ '\r') (h : crlf t = c :: s) :
    ∃ r, t = c :: r ∧ s = crlf r := by
  cases t with
  | nil => simp at h
  | cons d t =>
      by_cases hd : d = '\n'
      · subst hd
        rw [crlf_lf] at h
        exact absurd (List.cons.inj h).1.symm hc
      · rw [crlf_cons hd] at h
        obtain ⟨rfl, rfl⟩ := List.cons.inj h
        exact ⟨t, rfl, rfl⟩

/-! ### Runs of characters -/

section Runs

variable {p : Char → Bool} (hp : p '\r' = p '\n')

include hp

theorem all_crlf (t : Text) : (crlf t).all p = t.all p := by
  induction t with
  | nil => rfl
  | cons c t ih =>
      by_cases hc : c = '\n'
      · subst hc
        rw [crlf_lf, List.all_cons, List.all_cons, List.all_cons, ih, hp, ← Bool.and_assoc,
          Bool.and_self]
      · rw [crlf_cons hc, List.all_cons, List.all_cons, ih]

theorem takeWhile_crlf (t : Text) : (crlf t).takeWhile p = crlf (t.takeWhile p) := by
  induction t with
  | nil => rfl
  | cons c t ih =>
      by_cases hc : c = '\n'
      · subst hc
        rw [crlf_lf, List.takeWhile_cons, List.takeWhile_cons, List.takeWhile_cons, hp, ih]
        split <;> simp
      · rw [crlf_cons hc, List.takeWhile_cons, List.takeWhile_cons, ih]
        split
        · rw [crlf_cons hc]
        · rfl

theorem dropWhile_crlf (t : Text) : (crlf t).dropWhile p = crlf (t.dropWhile p) := by
  induction t with
  | nil => rfl
  | cons c t ih =>
      by_cases hc : c = '\n'
      · subst hc
        rw [crlf_lf, List.dropWhile_cons, List.dropWhile_cons, List.dropWhile_cons, hp, ih]
        split <;> simp
      · rw [crlf_cons hc, List.dropWhile_cons, List.dropWhile_cons, ih]
        split
        · rfl
        · rw [crlf_cons hc]

theorem dropEndWhile_crlf (t : Text) : dropEndWhile p (crlf t) = crlf (dropEndWhile p t) := by
  induction t using List.reverseRecOn with
  | nil => rfl
  | append_singleton t c ih =>
      have hall : (crlf [c]).all p = [c].all p := all_crlf hp [c]
      cases hc : p c with
      | true =>
          rw [crlf_append, dropEndWhile_append_of_all, dropEndWhile_append_of_all, ih]
          · simp [hc]
          · rw [← List.all_eq_true, hall]
            simp [hc]
      | false =>
          have hkept : ∀ u : Text, dropEndWhile p (u ++ [c]) = u ++ [c] :=
            fun u => dropEndWhile_append_of_not u [] hc
          rw [hkept t, crlf_append]
          by_cases hlf : c = '\n'
          · subst hlf
            rw [crlf_lf, crlf_nil, List.append_cons]
            exact hkept _
          · rw [crlf_cons hlf, crlf_nil]
            exact hkept _

end Runs

theorem allBlank_crlf (t : Text) : allBlank (crlf t) = allBlank t := all_crlf rfl t

theorem leadingBlanks_crlf (t : Text) : leadingBlanks (crlf t) = crlf (leadingBlanks t) :=
  takeWhile_crlf rfl t

theorem trimLeft_crlf (t : Text) : trimLeft (crlf t) = crlf (trimLeft t) := dropWhile_crlf rfl t

theorem trimRight_crlf (t : Text) : trimRight (crlf t) = crlf (trimRight t) :=
  dropEndWhile_crlf rfl t

theorem trim_crlf (t : Text) : trim (crlf t) = crlf (trim t) := by
  unfold trim
  rw [trimLeft_crlf, trimRight_crlf]

theorem beforeChar_crlf (hcr : c ≠ '\r') (hlf : c ≠ '\n') (t : Text) :
    beforeChar c (crlf t) = crlf (beforeChar c t) := by
  refine takeWhile_crlf ?_ t
  rw [bne_iff_ne.mpr hcr.symm, bne_iff_ne.mpr hlf.symm]

theorem getLast?_crlf (t : Text) : (crlf t).getLast? = t.getLast? := by
  induction t using List.reverseRecOn with
  | nil => rfl
  | append_singleton t c ih =>
      rw [crlf_append, List.getLast?_append, List.getLast?_append, ih]
      by_cases hc : c = '\n'
      · subst hc
        rfl
      · rw [crlf_cons hc, crlf_nil]

theorem lastWord?_append_blanks (s : Text) (h : allBlank t = true) :
    lastWord? (s ++ t) = lastWord? s := by
  unfold lastWord?
  rw [List.reverse_append, List.dropWhile_append_of_pos]
  intro c hc
  exact allBlank_iff.mp h c (List.mem_reverse.mp hc)

/-- A run at the end that stops at line breaks is the same. -/
theorem takeWhile_reverse_crlf {p : Char → Bool} (hlf : p '\n' = false) (t : Text) :
    (crlf t).reverse.takeWhile p = t.reverse.takeWhile p := by
  induction t using List.reverseRecOn with
  | nil => rfl
  | append_singleton t c ih =>
      rw [crlf_append, List.reverse_append, List.reverse_append]
      by_cases hc : c = '\n'
      · subst hc
        simp [hlf]
      · rw [crlf_cons hc, crlf_nil, List.reverse_singleton, List.singleton_append,
          List.singleton_append, List.takeWhile_cons, List.takeWhile_cons, ih]

/-- A line feed is a blank, so no word holds one. -/
theorem lastWord?_crlf (t : Text) : lastWord? (crlf t) = lastWord? t := by
  induction t using List.reverseRecOn with
  | nil => rfl
  | append_singleton t c ih =>
      cases hc : isBlank c with
      | true =>
          have hblank : allBlank [c] = true := by simp [allBlank, hc]
          rw [crlf_append, lastWord?_append_blanks _ (by rw [allBlank_crlf, hblank]),
            lastWord?_append_blanks _ hblank, ih]
      | false =>
          have hlf : c ≠ '\n' := by
            rintro rfl
            exact absurd hc (by decide)
          have hrun := takeWhile_reverse_crlf (p := fun d => !isBlank d) rfl t
          rw [crlf_append, crlf_cons hlf, crlf_nil]
          unfold lastWord?
          rw [List.reverse_append, List.reverse_append, List.reverse_singleton, List.singleton_append,
            List.singleton_append, List.dropWhile_cons_of_neg (by simp [hc]),
            List.dropWhile_cons_of_neg (by simp [hc]), List.takeWhile_cons, List.takeWhile_cons, hrun]

end Text

/-! ### Lines -/

/-- The line with CR LF for its break. -/
def RawLine.crlf (l : RawLine) : RawLine := { l with ending := l.ending.map fun _ => .crlf }

/-- **The lines are the same but for their breaks.** -/
theorem splitLines_crlf {t : Text} (h : '\r' ∉ t) :
    splitLines (Text.crlf t) = (splitLines t).map RawLine.crlf := by
  fun_induction splitLines t with
  | case1 => rfl
  | case2 r ih => simp at h
  | case3 r hnot ih => simp at h
  | case4 r ih =>
      rw [Text.crlf_lf, splitLines, ih fun hr => h (by simp [hr])]
      rfl
  | case5 c r _ hcr hlf hnil ih =>
      rw [Text.crlf_cons hlf, splitLines_cons_of_not hcr hlf, ih fun hr => h (by simp [hr]), hnil]
      rfl
  | case6 c r _ hcr hlf l more hcons ih =>
      rw [Text.crlf_cons hlf, splitLines_cons_of_not hcr hlf, ih fun hr => h (by simp [hr]), hcons]
      rfl

theorem ending_of_mem_splitLines {t : Text} (h : '\r' ∉ t) {r : RawLine} (hr : r ∈ splitLines t) :
    r.ending = none ∨ r.ending = some .lf := by
  have hmem : ∀ c ∈ r.endingText, c ∈ t := by
    intro c hc
    rw [← splitLines_flatMap_text t, List.mem_flatMap]
    exact ⟨r, hr, List.mem_append_right _ hc⟩
  rcases hending : r.ending with _ | _ | _ | _
  · exact Or.inl rfl
  · exact absurd (hmem '\r' (by simp [RawLine.endingText, hending, LineEnd.text])) h
  · exact Or.inr rfl
  · exact absurd (hmem '\r' (by simp [RawLine.endingText, hending, LineEnd.text])) h

/-- The same line with CR LF for its break, wherever it begins. -/
structure Line.Recoded (l m : Line) : Prop where
  index : l.index = m.index
  content : l.content = m.content
  unbroken : l.content.Unbroken
  ending : m.raw.endingText = Text.crlf l.raw.endingText

namespace LineTable

/-- **The tables have the same lines in the same order.** -/
theorem ofText_crlf {t : Text} (h : '\r' ∉ t) :
    List.Forall₂ Line.Recoded (ofText t).lines (ofText (Text.crlf t)).lines := by
  have key : ∀ raws : List RawLine,
      (∀ r ∈ raws, r.content.Unbroken ∧ (r.ending = none ∨ r.ending = some .lf)) →
      ∀ index offset offset', List.Forall₂ Line.Recoded (layOut index offset raws)
        (layOut index offset' (raws.map RawLine.crlf)) := by
    intro raws
    induction raws with
    | nil => exact fun _ _ _ _ => List.Forall₂.nil
    | cons r raws ih =>
        intro hall index offset offset'
        obtain ⟨hunbroken, hending⟩ := hall r (by simp)
        refine List.Forall₂.cons ⟨rfl, rfl, hunbroken, ?_⟩
          (ih (fun x hx => hall x (by simp [hx])) _ _ _)
        rcases hending with hr | hr
        · simp [Line.raw, RawLine.endingText, RawLine.crlf, hr]
        · simp [Line.raw, RawLine.endingText, RawLine.crlf, LineEnd.text, hr]
  unfold ofText
  rw [splitLines_crlf h]
  exact key _ (fun r hr => ⟨unbroken_of_mem_splitLines r hr, ending_of_mem_splitLines h hr⟩) 0 0 0

/-! ### Places -/

variable {t u : Text} {l m : Line}

/-- How far the first text of a line is from its beginning can be read off its content. -/
theorem textOffset_eq (l : Line) : l.textOffset = l.offset +
    if Text.allBlank l.content then 0 else Text.byteSize (Text.leadingBlanks l.content) := by
  unfold Line.textOffset
  split <;> rfl

/-- **The first text of a line has the same line and character in both tables.** -/
theorem position_recoded (hl : l ∈ (ofText t).lines) (hm : m ∈ (ofText u).lines)
    (h : l.Recoded m) : ∃ p, (ofText t).position l.textOffset = .ok p ∧
      (ofText u).position m.textOffset = .ok p := by
  have hposition : ∀ {t : Text} {l : Line}, l ∈ (ofText t).lines →
      (ofText t).position l.textOffset = .ok ⟨l.index + 1, (Text.takeBytes
        (if Text.allBlank l.content then 0 else Text.byteSize (Text.leadingBlanks l.content))
        l.content).length + 1⟩ := by
    intro t l hl
    have hlow := l.offset_le_textOffset
    have hhigh := textOffset_lt_stop hl
    have hbytes : ((l.textOffset : Int) - l.offset).toNat =
        if Text.allBlank l.content then 0 else Text.byteSize (Text.leadingBlanks l.content) := by
      rw [textOffset_eq]
      omega
    unfold position
    rw [lineAt_eq_ok hl (by omega) (by omega), ← hbytes]
    rfl
  refine ⟨_, hposition hl, ?_⟩
  rw [hposition hm, ← h.index, ← h.content]

end LineTable

end DocLint
