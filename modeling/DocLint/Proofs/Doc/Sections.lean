/-
Where the two sections of a comment part.

`PartsInto` says it without the search: the first section holds no boundary, and what
comes behind it is a blank line, which belongs to neither section, or a header, which
belongs to the second.  Lines part in one way at most, and `ofLines_eq_ok_iff` says that
the search finds it.
-/
import DocLint.Doc.Sections
import DocLint.Proofs.Text.Blank

namespace DocLint.Doc

variable {lines summary parameters : List DocLine} {l : DocLine}

theorem isBoundary_iff :
    isBoundary l = true ↔ l.isBlank = true ∨ Text.trim l.content = parametersHeader := by
  simp [isBoundary]

theorem not_isBlank_of_header (h : Text.trim l.content = parametersHeader) :
    l.isBlank = false := by
  cases hblank : l.isBlank with
  | false => rfl
  | true =>
      unfold Text.trim at h
      rw [Text.trimLeft_eq_nil_iff.mpr hblank] at h
      exact absurd h (by decide)

/-- The lines part at the first boundary, which has the index `summary.length`. -/
inductive PartsInto : List DocLine → List DocLine → List DocLine → Prop
  | blank {summary parameters : List DocLine} {l : DocLine}
      (hsummary : ∀ x ∈ summary, isBoundary x = false) (hl : l.isBlank = true) :
      PartsInto (summary ++ l :: parameters) summary parameters
  | header {summary rest : List DocLine} {l : DocLine}
      (hsummary : ∀ x ∈ summary, isBoundary x = false)
      (hl : Text.trim l.content = parametersHeader) :
      PartsInto (summary ++ l :: rest) summary (l :: rest)

/-- What the search returns is where the lines part. -/
theorem Sections.partsInto_of_ofLines {separator : Option DocLine}
    (h : ofLines lines = .ok ⟨summary, separator, parameters⟩) :
    PartsInto lines summary parameters := by
  have hsplit := List.takeWhile_append_dropWhile (p := fun l => !isBoundary l) (l := lines)
  have hsummary : ∀ x ∈ lines.takeWhile fun l => !isBoundary l, isBoundary x = false := by
    intro x hx
    simpa using List.mem_takeWhile_imp (p := fun l => !isBoundary l) hx
  have hnot := List.head?_dropWhile_not (fun l => !isBoundary l) lines
  unfold ofLines at h
  simp only at h
  cases hdrop : lines.dropWhile fun l => !isBoundary l with
  | nil =>
      rw [hdrop] at h
      simp at h
  | cons boundary rest =>
      rw [hdrop] at h hsplit hnot
      have hboundary : isBoundary boundary = true := by simpa using hnot
      by_cases hblank : boundary.isBlank = true
      · simp only [if_pos hblank, Except.ok.injEq, Sections.mk.injEq] at h
        obtain ⟨rfl, -, rfl⟩ := h
        have hparts : PartsInto (_ ++ boundary :: rest) _ rest := PartsInto.blank hsummary hblank
        rwa [hsplit] at hparts
      · simp only [if_neg hblank, Except.ok.injEq, Sections.mk.injEq] at h
        obtain ⟨rfl, -, rfl⟩ := h
        have hheader := (isBoundary_iff.mp hboundary).resolve_left hblank
        have hparts : PartsInto (_ ++ boundary :: rest) _ (boundary :: rest) :=
          PartsInto.header hsummary hheader
        rwa [hsplit] at hparts

/-- The search stops at the first boundary. -/
theorem Sections.ofLines_append (hsummary : ∀ x ∈ summary, isBoundary x = false)
    (hl : isBoundary l = true) (rest : List DocLine) :
    ofLines (summary ++ l :: rest) =
      if l.isBlank then .ok ⟨summary, some l, rest⟩ else .ok ⟨summary, none, l :: rest⟩ := by
  have hstop : ∀ x, (l :: rest).head? = some x → (!isBoundary x) = false := by
    intro x hx
    obtain rfl : l = x := by simpa using hx
    simp [hl]
  have hall : ∀ x ∈ summary, (!isBoundary x) = true := fun x hx => by simp [hsummary x hx]
  unfold ofLines
  rw [takeWhile_append_of_stop hall hstop, dropWhile_append_of_stop hall hstop]

/-- Lines without a boundary in front come to the summary. -/
theorem Sections.ofLines_append_of_not (hsummary : ∀ x ∈ summary, isBoundary x = false)
    (rest : List DocLine) : ofLines (summary ++ rest) = match ofLines rest with
      | .error e => .error ⟨summary.length + e.lineCount⟩
      | .ok s => .ok { s with summary := summary ++ s.summary } := by
  have hall : ∀ x ∈ summary, (!isBoundary x) = true := fun x hx => by simp [hsummary x hx]
  unfold ofLines
  rw [List.takeWhile_append_of_pos hall, List.dropWhile_append_of_pos hall, List.length_append]
  cases rest.dropWhile fun l => !isBoundary l with
  | nil => rfl
  | cons boundary more =>
      cases hblank : boundary.isBlank with
      | true => simp [hblank]
      | false => simp [hblank]

/-- **The search for a boundary finds the place where the lines part.** -/
theorem Sections.ofLines_eq_ok_iff :
    (∃ separator, ofLines lines = .ok ⟨summary, separator, parameters⟩) ↔
      PartsInto lines summary parameters := by
  constructor
  · rintro ⟨separator, h⟩
    exact partsInto_of_ofLines h
  · intro h
    cases h with
    | @blank _ _ l hsummary hl =>
        refine ⟨some l, ?_⟩
        rw [ofLines_append hsummary (isBoundary_iff.mpr (Or.inl hl)), if_pos hl]
    | @header _ rest l hsummary hl =>
        refine ⟨none, ?_⟩
        rw [ofLines_append hsummary (isBoundary_iff.mpr (Or.inr hl)),
          if_neg (by simp [not_isBlank_of_header hl])]

/-- Lines part in one way at most. -/
theorem PartsInto.unique {summary' parameters' : List DocLine}
    (h : PartsInto lines summary parameters) (h' : PartsInto lines summary' parameters') :
    summary = summary' ∧ parameters = parameters' := by
  obtain ⟨separator, hok⟩ := Sections.ofLines_eq_ok_iff.mpr h
  obtain ⟨separator', hok'⟩ := Sections.ofLines_eq_ok_iff.mpr h'
  rw [hok] at hok'
  simp only [Except.ok.injEq, Sections.mk.injEq] at hok'
  exact ⟨hok'.1, hok'.2.2⟩

/-- Lines without a boundary have one section only. -/
theorem Sections.ofLines_eq_error_iff :
    (∃ e, ofLines lines = .error e) ↔ ¬∃ summary parameters, PartsInto lines summary parameters := by
  constructor
  · rintro ⟨e, he⟩ ⟨summary, parameters, h⟩
    obtain ⟨separator, hok⟩ := ofLines_eq_ok_iff.mpr h
    rw [he] at hok
    simp at hok
  · intro hnone
    cases h : ofLines lines with
    | error e => exact ⟨e, rfl⟩
    | ok sections => exact absurd ⟨_, _, ofLines_eq_ok_iff.mp ⟨sections.separator, h⟩⟩ hnone

/-! ### What the sections are made of -/

namespace Sections

theorem summary?_getD (s : Sections) : s.summary?.getD [] = s.summary := by
  unfold summary?
  cases h : s.summary with
  | nil => rfl
  | cons l more => rfl

theorem summary?_eq_some_iff {s : Sections} {block : List DocLine} :
    s.summary? = some block ↔ s.summary = block ∧ block ≠ [] := by
  unfold summary?
  cases h : s.summary with
  | nil => simp
  | cons l more =>
      rw [List.isEmpty_cons, if_neg Bool.false_ne_true, Option.some.injEq]
      refine (and_iff_left_of_imp ?_).symm
      rintro rfl
      exact List.cons_ne_nil l more

theorem summary?_eq_none_iff {s : Sections} : s.summary? = none ↔ s.summary = [] := by
  unfold summary?
  cases h : s.summary with
  | nil => simp
  | cons l more => simp

/-- Sections are made of lines. -/
structure Decompose (lines : List DocLine) (s : Sections) : Prop where
  /-- No line is lost, and none is there twice. -/
  complete : s.summary?.getD [] ++ s.separator.toList ++ s.parameters = lines
  noBoundary : ∀ block, s.summary? = some block → block ≠ [] ∧ ∀ l ∈ block, isBoundary l = false
  noSummary : s.summary? = none ↔ ∃ l, lines.head? = some l ∧ isBoundary l = true
  /-- A boundary that stands between the sections is blank. -/
  blank : ∀ l, s.separator = some l → l.isBlank = true
  /-- Any other boundary is a header, which the second section begins with. -/
  header : s.separator = none → ∃ l, s.parameters.head? = some l ∧
    Text.trim l.content = parametersHeader

theorem ofLines_of_noBoundary (h : ∀ l ∈ lines, isBoundary l = false) :
    ofLines lines = .error ⟨lines.length⟩ := by
  have hnone := ofLines_append_of_not h []
  rwa [List.append_nil] at hnone

/-- Lines have a first boundary, if they have any. -/
theorem noBoundary_or_first (lines : List DocLine) : (∀ l ∈ lines, isBoundary l = false) ∨
    ∃ summary l rest, lines = summary ++ l :: rest ∧ (∀ x ∈ summary, isBoundary x = false) ∧
      isBoundary l = true := by
  cases hfind : lines.find? isBoundary with
  | none => exact Or.inl fun l hl => by simpa using List.find?_eq_none.mp hfind l hl
  | some l =>
      obtain ⟨hl, summary, rest, hlines, hsummary⟩ := List.find?_eq_some_iff_append.mp hfind
      exact Or.inr ⟨summary, l, rest, hlines, fun x hx => by simpa using hsummary x hx, hl⟩

/-- At the first boundary the lines come apart. -/
theorem decompose_first {s : Sections} {rest : List DocLine}
    (hsummary : ∀ x ∈ s.summary, isBoundary x = false) (hl : isBoundary l = true)
    (hrest : s.separator.toList ++ s.parameters = l :: rest)
    (hblank : ∀ x, s.separator = some x → x.isBlank = true)
    (hheader : s.separator = none → Text.trim l.content = parametersHeader) :
    Decompose (s.summary ++ l :: rest) s where
  complete := by rw [summary?_getD, List.append_assoc, hrest]
  noBoundary := by
    intro block hblock
    obtain ⟨rfl, hne⟩ := summary?_eq_some_iff.mp hblock
    exact ⟨hne, hsummary⟩
  noSummary := by
    rw [summary?_eq_none_iff]
    cases h : s.summary with
    | nil => exact iff_of_true rfl ⟨l, rfl, hl⟩
    | cons x more =>
        have hx : isBoundary x = false := hsummary x (by simp [h])
        exact iff_of_false (by simp) (by simp [hx])
  blank := hblank
  header := by
    intro hnone
    rw [hnone] at hrest
    exact ⟨l, by rw [show s.parameters = l :: rest from hrest]; rfl, hheader hnone⟩

theorem Decompose.of_ofLines {s : Sections} (h : ofLines lines = .ok s) : Decompose lines s := by
  rcases noBoundary_or_first lines with hnone | ⟨summary, l, rest, rfl, hsummary, hl⟩
  · rw [ofLines_of_noBoundary hnone] at h
    simp at h
  rw [ofLines_append hsummary hl] at h
  by_cases hblank : l.isBlank = true
  · rw [if_pos hblank] at h
    obtain rfl := Except.ok.inj h
    refine decompose_first (s := ⟨summary, some l, rest⟩) hsummary hl rfl ?_ ?_
    · intro x hx
      rw [← Option.some.inj hx]
      exact hblank
    · intro hnone
      simp at hnone
  · rw [if_neg hblank] at h
    obtain rfl := Except.ok.inj h
    refine decompose_first (s := ⟨summary, none, l :: rest⟩) hsummary hl rfl ?_ ?_
    · intro x hx
      simp at hx
    · exact fun _ => (isBoundary_iff.mp hl).resolve_left hblank

theorem Decompose.ofLines_eq {s : Sections} (h : Decompose lines s) : ofLines lines = .ok s := by
  have hsummary : ∀ x ∈ s.summary, isBoundary x = false := by
    intro x hx
    have hsome : s.summary? = some s.summary :=
      summary?_eq_some_iff.mpr ⟨rfl, List.ne_nil_of_mem hx⟩
    exact (h.noBoundary _ hsome).2 x hx
  have hlines := h.complete
  rw [summary?_getD, List.append_assoc] at hlines
  obtain ⟨summary, separator, parameters⟩ := s
  cases separator with
  | some l =>
      have hblank : l.isBlank = true := h.blank l rfl
      rw [← hlines]
      exact (ofLines_append hsummary (isBoundary_iff.mpr (Or.inl hblank)) parameters).trans
        (if_pos hblank)
  | none =>
      obtain ⟨l, hl, hheader⟩ := h.header rfl
      cases parameters with
      | nil => simp at hl
      | cons x rest =>
          obtain rfl := Option.some.inj hl
          rw [← hlines]
          exact (ofLines_append hsummary (isBoundary_iff.mpr (Or.inr hheader)) rest).trans
            (if_neg (by simp [not_isBlank_of_header hheader]))

/-- **Lines are refused for want of a boundary**, with their number, **and otherwise come apart into
their sections**, in which they are all there, in order. -/
theorem ofLines_decompose (lines : List DocLine) :
    (∀ e, ofLines lines = .error e ↔ e = ⟨lines.length⟩ ∧
      ∀ l ∈ lines, ¬(l.isBlank = true ∨ Text.trim l.content = parametersHeader)) ∧
    ∀ s, ofLines lines = .ok s ↔ Decompose lines s := by
  refine ⟨?_, fun s => ⟨Decompose.of_ofLines, Decompose.ofLines_eq⟩⟩
  intro e
  simp only [← isBoundary_iff, Bool.not_eq_true]
  constructor
  · intro he
    rcases noBoundary_or_first lines with hnone | ⟨summary, l, rest, rfl, hsummary, hl⟩
    · rw [ofLines_of_noBoundary hnone] at he
      exact ⟨(Except.error.inj he).symm, hnone⟩
    · rw [ofLines_append hsummary hl] at he
      split at he
      · simp at he
      · simp at he
  · rintro ⟨rfl, hnone⟩
    exact ofLines_of_noBoundary hnone

end Sections

end DocLint.Doc
