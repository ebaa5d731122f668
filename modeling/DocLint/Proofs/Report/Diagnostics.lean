/-
One line for each finding.

A report is written for editors with each finding on a line of its own, and an editor reads it
back line by line.  So no break may get into a finding: a name with one would split the line,
and what follows it would pass for a finding that nothing was found for.

Two kinds of text get into a finding from the file.  The name of a parameter is a word of the
clause, and a break is blank, so it ends the word (`unbroken_of_mem_parameterNames`).  The name
of an entry is read from a line of the comment, and no line of a comment has a break
(`Doc.unbroken_of_slice`).  All else is written by the library (`Defect.unbroken_message`), but
for the path.  A text of lines without breaks is split where they were joined
(`Text.splitOnP_join`).
-/
import DocLint.Proofs.Rule.Located
import DocLint.Report.Basic
import DocLint.Rule.StructuredDoc

namespace DocLint

/-! ### Texts without breaks -/

namespace Text

variable {s t : Text}

/-- A line ends here: at CR or LF. -/
def isBreak (c : Char) : Bool := c == '\r' || c == '\n'

theorem Unbroken.isBreak_eq (ht : t.Unbroken) : ∀ c ∈ t, isBreak c = false := by
  intro c hc
  simp [isBreak, ht c hc]

/-- For texts that are written out. -/
theorem unbroken_of_all (h : (t.all fun c => !isBreak c) = true) : t.Unbroken := by
  intro c hc
  have hbreak := List.all_eq_true.mp h c hc
  simpa [isBreak] using hbreak

/-- A break is blank. -/
theorem unbroken_of_not_blank (h : ∀ c ∈ t, isBlank c = false) : t.Unbroken := by
  intro c hc
  have hblank := h c hc
  constructor
  · rintro rfl
    simp [isBlank] at hblank
  · rintro rfl
    simp [isBlank] at hblank

/-- The last word is one. -/
theorem not_blank_of_lastWord? {w : Text} (h : lastWord? t = some w) :
    ∀ c ∈ w, isBlank c = false := by
  unfold lastWord? at h
  split at h
  · simp at h
  · obtain rfl := Option.some.inj h
    intro c hc
    have hmem := List.mem_takeWhile_imp (List.mem_reverse.mp hc)
    simpa using hmem

theorem unbroken_ofNat (n : Nat) : (ofNat n).Unbroken := by
  intro c hc
  have hdigit := isDigit_of_mem_ofNat hc
  constructor
  · rintro rfl
    simp at hdigit
  · rintro rfl
    simp at hdigit

theorem unbroken_ofInt (n : Int) : (ofInt n).Unbroken := by
  cases n with
  | ofNat n => exact unbroken_ofNat n
  | negSucc n => exact unbroken_cons.mpr ⟨by decide, unbroken_ofNat (n + 1)⟩

/-- **Lines are split where they were joined.** -/
theorem splitOnP_join {lines : List Text} (h : ∀ l ∈ lines, l.Unbroken) (hne : lines ≠ []) :
    (join ['\n'] lines).splitOnP isBreak = lines := by
  induction lines with
  | nil => exact absurd rfl hne
  | cons l more ih =>
      have hl := (h l (by simp)).isBreak_eq
      cases more with
      | nil => exact List.splitOnP_eq_singleton hl
      | cons next more =>
          have hmore := ih (fun x hx => h x (List.mem_cons_of_mem l hx)) (by simp)
          show (l ++ ['\n'] ++ join ['\n'] (next :: more)).splitOnP isBreak = _
          rw [List.append_assoc, List.singleton_append, List.splitOnP_append_cons _ _ rfl,
            List.splitOnP_eq_singleton hl, hmore]
          rfl

end Text

/-! ### What is read of a file -/

/-- The name of a parameter is what is left of a word. -/
theorem Swift.unbroken_of_mem_parameterNames {clause name : Text}
    (h : name ∈ parameterNames clause) : name.Unbroken := by
  unfold parameterNames at h
  obtain ⟨parameter, -, hname⟩ := List.mem_filterMap.mp h
  unfold parameterName? at hname
  obtain ⟨word, hword, rfl⟩ := Option.map_eq_some_iff.mp hname
  have hunbroken := Text.unbroken_of_not_blank (Text.not_blank_of_lastWord? hword)
  refine hunbroken.of_subset ?_
  unfold withoutBackticks
  exact ((Text.dropEndWhile_sublist _ _).trans (List.dropWhile_sublist _)).subset

namespace Doc

/-- The name of an entry is a part of its line. -/
theorem Reads.name_subset {form : ListForm} {l : DocLine} {e : Entry} (h : Reads form l e) :
    e.name ⊆ l.content := by
  obtain ⟨text, hbullet, hkeyword⟩ := h.text
  obtain ⟨front, rest, htext, -, -, hname⟩ := h.name
  have hline : text ⊆ l.content := by
    generalize l.content = content at hbullet
    cases hbullet with
    | intro _ _ _ _ _ =>
        intro c hc
        simp [hc]
  have hentry : e.text ⊆ text := by
    cases hkeyword with
    | keyword _ _ =>
        intro c hc
        simp [hc]
    | plain _ => exact List.Subset.refl _
  rw [hname]
  intro c hc
  refine hline (hentry ?_)
  rw [htext]
  exact List.mem_append_left _ (Text.trim_subset front hc)

end Doc

/-! ### Reasons -/

/-- The names are the only texts in a message that the library does not write itself. -/
theorem Defect.unbroken_message {d : Defect}
    (h : ∀ expected found, d = .misnamed expected found → expected.Unbroken ∧ found.Unbroken) :
    d.message.Unbroken := by
  cases d with
  | noParametersSection => exact Text.unbroken_of_all rfl
  | noSummary => exact Text.unbroken_of_all rfl
  | longSummary lines limit =>
      refine .append (.append (.append (.append ?_ ?_) ?_) ?_) ?_
      · exact Text.unbroken_of_all rfl
      · exact Text.unbroken_ofNat lines
      · exact Text.unbroken_of_all rfl
      · exact Text.unbroken_ofNat limit
      · exact Text.unbroken_of_all rfl
  | malformedList error =>
      refine .append (Text.unbroken_of_all rfl) ?_
      cases error.fault with
      | noColon => exact Text.unbroken_of_all rfl
      | noName => exact Text.unbroken_of_all rfl
      | notAnItem => exact Text.unbroken_of_all rfl
      | uneven form =>
          cases form with
          | nested => exact Text.unbroken_of_all rfl
          | flat => exact Text.unbroken_of_all rfl
  | emptyList => exact Text.unbroken_of_all rfl
  | wrongCount documented actual =>
      refine .append (.append (.append ?_ ?_) ?_) ?_
      · exact Text.unbroken_of_all rfl
      · exact Text.unbroken_ofNat documented
      · exact Text.unbroken_of_all rfl
      · exact Text.unbroken_ofNat actual
  | misnamed expected found =>
      obtain ⟨hexpected, hfound⟩ := h expected found rfl
      refine .append (.append (.append (.append ?_ hexpected) ?_) hfound) ?_
      · exact Text.unbroken_of_all rfl
      · exact Text.unbroken_of_all rfl
      · exact Text.unbroken_of_all rfl

open Doc in
/-- **No reason that is given for a comment has a break in it.** -/
theorem Check.unbroken_reason {config : Configuration} {names : List Text} {t : Text}
    {range : ByteRange} {offset : Int} {defect : Defect} (hnames : ∀ name ∈ names, name.Unbroken)
    (h : Check.range config names (.ofText t) range = .ok (.invalid offset defect)) :
    defect.message.Unbroken := by
  refine Defect.unbroken_message ?_
  rintro expected found rfl
  unfold Check.range at h
  split at h
  · simp at h
  cases hslice : slice range (.ofText t) with
  | error e =>
      rw [hslice] at h
      simp [Except.map] at h
  | ok docLines =>
      rw [hslice] at h
      obtain ⟨-, entries, e, hcounted, hfirst, rfl, -⟩ :=
        comment_eq_misnamed_iff.mp (Except.ok.inj h)
      obtain ⟨before, after, before', after', hentries, hexpected, -⟩ := hfirst
      refine ⟨hnames expected (by simp [hexpected]), ?_⟩
      -- The entry stands on a line of the comment, and its name is a part of that line.
      obtain ⟨summary, parameters, list, hparts, -, -, hlist, rfl⟩ := hcounted.parts
      have he : e ∈ list.entries := by simp [hentries]
      have hline := hparts.subset (line_of_ofLines hlist e he).1
      have hreads := (reads_of_mem hlist he).2
      exact (unbroken_of_slice hslice e.line hline).of_subset hreads.name_subset

/-! ### Findings -/

/-- A finding is one line when the texts that it is put together from are. -/
theorem Violation.unbroken_toXcode {v : Violation}
    (hpath : ∀ path, v.location.path = some path → path.Unbroken)
    (hidentifier : v.rule.identifier.Unbroken) (hname : v.rule.name.Unbroken)
    (hreason : v.reason.Unbroken) : v.toXcode.Unbroken := by
  have hfile : v.location.fileName.Unbroken := by
    unfold Location.fileName
    split
    · exact Text.unbroken_of_all rfl
    · cases hp : v.location.path with
      | none => exact Text.unbroken_of_all rfl
      | some path => exact hpath path hp
  have hplace : v.location.text.Unbroken := by
    refine .append (.append (.append (.append hfile ?_) ?_) ?_) ?_
    · exact Text.unbroken_of_all rfl
    · exact Text.unbroken_ofInt v.location.line
    · exact Text.unbroken_of_all rfl
    · exact Text.unbroken_ofInt v.location.character
  have hgrade : v.severity.name.Unbroken := by
    cases v.severity with
    | warning => exact Text.unbroken_of_all rfl
    | error => exact Text.unbroken_of_all rfl
  refine .append (.append (.append (.append ?_ hreason) ?_) hidentifier) ?_
  · refine .append (.append (.append (.append (.append hplace ?_) hgrade) ?_) hname) ?_
    · exact Text.unbroken_of_all rfl
    · exact Text.unbroken_of_all rfl
    · exact Text.unbroken_of_all rfl
  · exact Text.unbroken_of_all rfl
  · exact Text.unbroken_of_all rfl

/-- What is found about a declaration comes from the verdict on its comment. -/
theorem Rule.of_checkDeclaration_eq_some {rule : Rule} {path : Option Text} {table : LineTable}
    {d : Declaration} {v : Violation} (h : rule.checkDeclaration path table d = some v) :
    v.rule = rule.description ∧ v.location.path = path ∧ ∃ range offset defect,
      Check.range rule.configuration d.parameterNames table range = .ok (.invalid offset defect) ∧
        v.reason = defect.message := by
  unfold checkDeclaration at h
  split at h
  · rename_i offset defect hverdict
    obtain ⟨range, -, hcheck⟩ := Option.map_eq_some_iff.mp hverdict
    unfold violation? at h
    split at h
    · rename_i location hlocation
      obtain rfl := Option.some.inj h
      unfold Location.ofOffset at hlocation
      cases hposition : table.position offset with
      | error e =>
          rw [hposition] at hlocation
          simp [Except.map] at hlocation
      | ok position =>
          rw [hposition] at hlocation
          obtain rfl := Except.ok.inj hlocation
          exact ⟨rfl, rfl, range, offset, defect, hcheck, rfl⟩
    · simp at h
  · simp at h

namespace Report

/-- **No finding has a break in it**, whatever the file, unless its path has one. -/
theorem unbroken_of_mem_check {config : Configuration} {f : SourceFile}
    (hpath : ∀ path, f.path = some path → path.Unbroken) :
    ∀ v ∈ Rule.check ⟨structuredFunctionDoc, config⟩ f, v.toXcode.Unbroken := by
  intro v hv
  unfold Rule.check at hv
  obtain ⟨d, hd, hfound⟩ := List.mem_filterMap.mp hv
  obtain ⟨hrule, hplace, range, offset, defect, hcheck, hreason⟩ :=
    Rule.of_checkDeclaration_eq_some hfound
  obtain ⟨-, -, -, clause, -, -, -, hnames, -⟩ := SourceFile.exists_head_of_mem hd
  refine Violation.unbroken_toXcode ?_ ?_ ?_ ?_
  · rw [hplace]
    exact hpath
  · rw [hrule]
    exact Text.unbroken_of_all rfl
  · rw [hrule]
    exact Text.unbroken_of_all rfl
  · rw [hreason]
    refine Check.unbroken_reason ?_ hcheck
    intro name hname
    rw [hnames] at hname
    exact Swift.unbroken_of_mem_parameterNames hname

/-- **The text of a file cannot forge a finding.**  Split at CR and LF, the report on a file has one
line for each finding, in order, and no other.  Without findings it is empty. -/
theorem toXcode_check (config : Configuration) (f : SourceFile) (filesChecked : Nat)
    (skipped : List Text) (hpath : ∀ path, f.path = some path → path.Unbroken) :
    let found := Rule.check ⟨structuredFunctionDoc, config⟩ f
    let report : Report := ⟨found, filesChecked, skipped⟩
    (found = [] → report.toXcode = []) ∧
      (found ≠ [] → report.toXcode.splitOnP Text.isBreak = found.map Violation.toXcode) := by
  intro found report
  constructor
  · intro hnone
    show Text.join ['\n'] (found.map Violation.toXcode) = []
    rw [hnone]
    rfl
  · intro hsome
    refine Text.splitOnP_join ?_ (by simpa using hsome)
    intro line hline
    obtain ⟨v, hv, rfl⟩ := List.mem_map.mp hline
    exact unbroken_of_mem_check hpath v hv

/-- A file whose comment has a lone CR in an item, with what looks like a finding behind it. -/
def forged : SourceFile :=
  ⟨"/**\nA\n\n- b\rb.swift:1:1: error: c\n*/\nfunc f(a: Int)".toList, some "a.swift".toList⟩

/-- The item is objected to, and what stands behind the CR is not in the report. -/
theorem toXcode_check_forged :
    (∀ path, forged.path = some path → path.Unbroken) ∧
      (Report.toXcode ⟨Rule.check ⟨structuredFunctionDoc, ⟨.error, 0, 1⟩⟩ forged, 1, []⟩).splitOnP
          Text.isBreak =
        [("a.swift:1:1: error: Structured Function Doc Violation: Malformed parameters section: "
          ++ "Parameter entry without a colon (structured_function_doc)").toList] := by
  have hpath : ∀ path, forged.path = some path → path.Unbroken := by
    intro path hp
    obtain rfl := Option.some.inj hp
    exact Text.unbroken_of_all rfl
  have hfound : Rule.check ⟨structuredFunctionDoc, ⟨.error, 0, 1⟩⟩ forged =
      [⟨structuredFunctionDoc, .error, ⟨some "a.swift".toList, 1, 1, 0⟩,
        Defect.message (.malformedList ⟨.noColon, ⟨"- b".toList, 7, 4⟩⟩)⟩] := by
    have hdeclarations : forged.declarations =
        [⟨⟨.function, "f".toList⟩, 36, ["a".toList], some ⟨0, 35⟩⟩] := by cbv
    unfold Rule.check
    rw [hdeclarations]
    rfl
  refine ⟨hpath, ?_⟩
  rw [(toXcode_check ⟨.error, 0, 1⟩ forged 1 [] hpath).2 (by rw [hfound]; simp), hfound]
  decide +kernel

end Report

end DocLint
