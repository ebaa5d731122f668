/-
What an offset says about the file on disk.

A file is read with a line feed for every line break, so the text that is checked can be
shorter than the one that is stored: by a byte for every CR LF, while a lone CR takes no
more than a line feed.  The lines of both are the same but for their breaks
(`splitLines_lineFeeds`), and so are their numbers.  An offset counts the bytes of the
checked text.  On disk it is short by the CR LF above its line (`offset_lintPaths`).
-/
import Mathlib
import DocLint.Lint.Run
import DocLint.Proofs.Rule.Located

namespace DocLint

/-! ### Bytes and text -/

/-- The text of some bytes is the one that they encode. -/
theorem Text.ofUtf8?_eq_some_iff {bytes : ByteArray} {t : Text} :
    Text.ofUtf8? bytes = some t ↔ bytes = t.utf8.toByteArray := by
  unfold Text.ofUtf8?
  rw [Option.map_eq_some_iff]
  constructor
  · rintro ⟨s, hs, rfl⟩
    unfold String.fromUTF8? at hs
    split at hs
    · rename_i hvalid
      have hencode := @String.utf8Encode_toList (String.fromUTF8 bytes hvalid)
      rw [← Option.some.inj hs]
      exact hencode.symm
    · simp at hs
  · rintro rfl
    have hvalid : ByteArray.IsValidUTF8 (Text.utf8 t).toByteArray := .intro t rfl
    refine ⟨String.ofList t, ?_, String.toList_ofList⟩
    unfold String.fromUTF8?
    rw [dif_pos hvalid]
    rfl

/-! ### Line feeds for line breaks -/

/-- A text without carriage returns is read as it is. -/
theorem FileTree.lineFeeds_eq_self {t : Text} (h : '\r' ∉ t) : lineFeeds t = t := by
  induction t using lineFeeds.induct with
  | case1 r ih => simp at h
  | case2 c r hnot ih =>
      obtain ⟨hc, hr⟩ := not_or.mp (List.mem_cons.not.mp h)
      rw [lineFeeds, if_neg (Ne.symm hc), ih hr]
      exact hnot
  | case3 => rfl

/-- The line with a line feed for its break. -/
def RawLine.fed (l : RawLine) : RawLine := { l with ending := l.ending.map fun _ => .lf }

/-- Does CR LF end the line? -/
def Line.endsInCrlf (l : Line) : Bool := l.ending == some .crlf

/-- **Reading changes the breaks of lines and nothing else.** -/
theorem splitLines_lineFeeds (t : Text) :
    splitLines (FileTree.lineFeeds t) = (splitLines t).map RawLine.fed := by
  fun_induction splitLines t with
  | case1 => rfl
  | case2 r ih =>
      rw [FileTree.lineFeeds, splitLines, ih]
      rfl
  | case3 r hlf ih =>
      rw [FileTree.lineFeeds, if_pos rfl, splitLines, ih]
      · rfl
      · exact fun r' _ => hlf r'
  | case4 r ih =>
      rw [FileTree.lineFeeds, if_neg (by decide), splitLines, ih]
      · rfl
      · simp
  | case5 c r hcrlf hcr hlf hnil ih =>
      rw [FileTree.lineFeeds, if_neg hcr, splitLines_cons_of_not hcr hlf, ih, hnil]
      · rfl
      · exact hcrlf
  | case6 c r hcrlf hcr hlf l more hcons ih =>
      rw [FileTree.lineFeeds, if_neg hcr, splitLines_cons_of_not hcr hlf, ih, hcons]
      · rfl
      · exact hcrlf

/-- Only a break of two characters loses one. -/
theorem RawLine.byteSize_text_eq (l : RawLine) :
    l.text.byteSize = l.fed.text.byteSize + if l.ending = some .crlf then 1 else 0 := by
  have hcr : Char.utf8Size '\r' = 1 := rfl
  have hlf : Char.utf8Size '\n' = 1 := rfl
  obtain ⟨content, ending⟩ := l
  rcases ending with _ | _ | _ | _
  · simp [RawLine.text, RawLine.endingText, RawLine.fed]
  · simp [RawLine.text, RawLine.endingText, RawLine.fed, LineEnd.text, hcr, hlf]
  · simp [RawLine.text, RawLine.endingText, RawLine.fed, LineEnd.text]
  · simp [RawLine.text, RawLine.endingText, RawLine.fed, LineEnd.text, hcr, hlf]

/-- Lines that differ in their breaks only differ in length by the CR LF. -/
theorem totalLength_of_fed {lines stored : List Line}
    (h : lines.map Line.raw = stored.map fun l => l.raw.fed) :
    totalLength stored = totalLength lines + stored.countP Line.endsInCrlf := by
  induction stored generalizing lines with
  | nil =>
      obtain rfl : lines = [] := by simpa using h
      rfl
  | cons x stored ih =>
      obtain ⟨l, more, rfl, hraw, hmore⟩ := List.map_eq_cons_iff.mp h
      have hlength := RawLine.byteSize_text_eq x.raw
      have hl : l.length = x.raw.fed.text.byteSize := by rw [Line.length, hraw]
      have hx : x.length = x.raw.text.byteSize := rfl
      rw [totalLength_cons, totalLength_cons, ih hmore, List.countP_cons]
      have hends : (x.endsInCrlf = true) = (x.raw.ending = some .crlf) := by
        simp [Line.endsInCrlf, Line.raw]
      simp only [hends]
      omega

/-- **A line of the checked text is one of the stored text**, further back by the CR LF above it. -/
theorem exists_stored_line (stored : Text) {l : Line}
    (hl : l ∈ (LineTable.ofText (FileTree.lineFeeds stored)).lines) :
    ∃ above x below, (LineTable.ofText stored).lines = above ++ x :: below ∧ x.index = l.index ∧
      x.content = l.content ∧ x.offset = l.offset + above.countP Line.endsInCrlf := by
  obtain ⟨before, after, hlines⟩ := List.append_of_mem hl
  have hraws : (before ++ l :: after).map Line.raw =
      (LineTable.ofText stored).lines.map fun x => x.raw.fed := by
    rw [← hlines, LineTable.map_raw_ofText, splitLines_lineFeeds, ← LineTable.map_raw_ofText,
      List.map_map]
    rfl
  rw [List.map_append, List.map_cons] at hraws
  obtain ⟨above, rest, hsplit, habove, hrest⟩ := List.map_eq_append_iff.mp hraws.symm
  obtain ⟨x, below, rfl, hx, -⟩ := List.map_eq_cons_iff.mp hrest
  have hlaid : LaidOut 0 0 (before ++ l :: after) := hlines ▸ LineTable.laidOut_ofText _
  have hlaidStored : LaidOut 0 0 (above ++ x :: below) := hsplit ▸ LineTable.laidOut_ofText _
  obtain ⟨hindex, hoffset⟩ := hlaid.eq_of_append
  obtain ⟨hindexStored, hoffsetStored⟩ := hlaidStored.eq_of_append
  have hcount : above.length = before.length := by
    have hlength := congrArg List.length habove
    simpa using hlength
  have htotal := totalLength_of_fed habove.symm
  refine ⟨above, x, below, hsplit, by omega, ?_, by omega⟩
  exact congrArg RawLine.content hx

/-! ### Findings of a run -/

variable {t : FileTree} {rules : List Rule} {paths : List Path} {v : Violation}

/-- The findings of a run are those of its rules about the files that can be read. -/
theorem mem_lintPaths_violations :
    v ∈ (lintPaths t rules paths).violations ↔
      ∃ path ∈ t.swiftFilesOf paths, ∃ f, t.readSource path = .ok f ∧
        ∃ rule ∈ rules, v ∈ rule.check f := by
  unfold lintPaths Report.ofExamined
  simp only [List.mem_mergeSort, List.mem_flatMap, List.mem_map, exists_exists_and_eq_and]
  refine exists_congr fun path => and_congr_right fun _ => ?_
  cases hread : t.readSource path with
  | error e => simp [FileTree.examine, Examined.violations, hread, Except.map]
  | ok f => simp [FileTree.examine, Examined.violations, hread, Except.map, SourceFile.lint]

/-- A file that can be read holds the bytes of some text. -/
theorem exists_stored_of_readSource {path : Path} {f : SourceFile} (h : t.readSource path = .ok f) :
    f.path = some path.text ∧ ∃ stored : Text, t.readBytes path = .ok stored.utf8.toByteArray ∧
      f.contents = FileTree.lineFeeds stored := by
  unfold FileTree.readSource FileTree.readText at h
  cases hbytes : t.readBytes path with
  | error e =>
      rw [hbytes] at h
      simp [bind, Except.bind, Except.map] at h
  | ok bytes =>
      cases htext : Text.ofUtf8? bytes with
      | none =>
          simp only [hbytes, bind, Except.bind, htext] at h
          simp [throw, throwThe, MonadExceptOf.throw, Except.map] at h
      | some stored =>
          simp only [hbytes, bind, Except.bind, htext] at h
          obtain rfl := Except.ok.inj h
          rw [Text.ofUtf8?_eq_some_iff] at htext
          exact ⟨rfl, stored, by rw [htext], rfl⟩

/-- The bytes of a text in front of the first text of a line, which stands below `above`. -/
def bytesInFront (above : List Line) (l : Line) : Nat :=
  (LineTable.text ⟨above⟩ ++ Text.leadingBlanks l.content).utf8.length

/-- **On disk a finding stands behind its offset, by a byte for every CR LF above its line.**  The
offset is right for the file as it is stored exactly when no line above ends in CR LF. -/
theorem offset_lintPaths (hv : v ∈ (lintPaths t rules paths).violations) :
    ∃ path ∈ t.swiftFilesOf paths, v.location.path = some path.text ∧
      ∃ stored : Text, t.readBytes path = .ok stored.utf8.toByteArray ∧
        ∃ above l below, (LineTable.ofText stored).lines = above ++ l :: below ∧
          v.location.line = l.index + 1 ∧ Text.allBlank l.content = false ∧
          (bytesInFront above l : Int) = v.location.byteOffset + above.countP Line.endsInCrlf ∧
          (v.location.byteOffset = bytesInFront above l ↔ ∀ x ∈ above, x.ending ≠ some .crlf) := by
  obtain ⟨path, hpath, f, hread, rule, hrule, hcheck⟩ := mem_lintPaths_violations.mp hv
  obtain ⟨hname, stored, hbytes, hcontents⟩ := exists_stored_of_readSource hread
  obtain ⟨d, hd, hfound⟩ := List.mem_filterMap.mp hcheck
  have hlocated := Rule.locatedIn_of_checkDeclaration hd hfound
  obtain ⟨l, hl, hblank, hline, hoffset⟩ := hlocated.atText
  obtain ⟨above, x, below, hlines, hindex, hcontent, hplace⟩ := exists_stored_line
    stored (l := l) (by
      rw [← hcontents]
      exact hl)
  have hblankStored : Text.allBlank x.content = false := by rw [hcontent, hblank]
  have hfront : bytesInFront above x = x.textOffset := by
    rw [bytesInFront, Text.length_utf8]
    exact (SourceFile.contents_eq_fromText (f := ⟨stored, none⟩) hlines hblankStored).2.1
  have hcount : (bytesInFront above x : Int) =
      v.location.byteOffset + above.countP Line.endsInCrlf := by
    rw [hfront, hoffset, Line.textOffset, Line.textOffset, hblank, hblankStored, hcontent, hplace,
      if_neg (by simp), if_neg (by simp)]
    push_cast
    omega
  refine ⟨path, hpath, hlocated.path.trans hname, stored, hbytes, above, x, below, hlines,
    by rw [hline, hindex], hblankStored, hcount, ?_⟩
  have hzero : above.countP Line.endsInCrlf = 0 ↔ ∀ y ∈ above, y.ending ≠ some .crlf := by
    rw [List.countP_eq_zero]
    simp [Line.endsInCrlf]
  rw [← hzero]
  omega

/-- The path of a Swift file, from the directory that relative paths start from. -/
def sourcePath : Path := ⟨0, ["a.swift".toList]⟩

/-- The tree that has a text stored under that path. -/
def treeWith (stored : Text) : FileTree :=
  ⟨[(["a.swift".toList], .file stored.utf8.toByteArray)], []⟩

/-- A function whose comment has no list, below a line with the given break. -/
def belowLine (ending : Text) : Text := 'x' :: ending ++ "/// A\nfunc f(a: Int)".toList

/-- The rule of the library, for functions with a parameter. -/
def parameterRule : Rule := ⟨structuredFunctionDoc, { minimalNumberOfParameters := 1 }⟩

/-- What the rule finds about the function. -/
def belowLineFinding : Violation :=
  ⟨structuredFunctionDoc, .warning, ⟨some "a.swift".toList, 2, 1, 2⟩,
    Defect.message .noParametersSection⟩

theorem readSource_treeWith (stored : Text) : (treeWith stored).readSource sourcePath =
    .ok ⟨FileTree.lineFeeds stored, some "a.swift".toList⟩ := by
  have hbytes : (treeWith stored).readBytes sourcePath = .ok stored.utf8.toByteArray := rfl
  have htext : Text.ofUtf8? stored.utf8.toByteArray = some stored :=
    Text.ofUtf8?_eq_some_iff.mpr rfl
  unfold FileTree.readSource FileTree.readText
  simp only [hbytes, bind, Except.bind, htext]
  rfl

/-- The finding is made whatever the break, for the text that is checked is the same. -/
theorem belowLineFinding_mem {ending : Text}
    (h : FileTree.lineFeeds (belowLine ending) = belowLine ['\n']) :
    belowLineFinding ∈
      (lintPaths (treeWith (belowLine ending)) [parameterRule] [sourcePath]).violations := by
  have hdeclarations : SourceFile.declarations ⟨belowLine ['\n'], some "a.swift".toList⟩ =
      [⟨⟨.function, "f".toList⟩, 8, ["a".toList], some ⟨2, 5⟩⟩] := by cbv
  refine mem_lintPaths_violations.mpr ⟨sourcePath, List.mem_singleton.mpr rfl, _,
    readSource_treeWith _, parameterRule, List.mem_singleton.mpr rfl, ?_⟩
  rw [h]
  unfold Rule.check
  rw [hdeclarations]
  exact List.mem_singleton.mpr rfl

/-- The finding behind a line feed, placed in the file as it is stored. -/
theorem offset_lintPaths_lineFeed :
    ∃ path ∈ (treeWith (belowLine ['\n'])).swiftFilesOf [sourcePath],
      belowLineFinding.location.path = some path.text ∧
      ∃ stored : Text,
        (treeWith (belowLine ['\n'])).readBytes path = .ok stored.utf8.toByteArray ∧
        ∃ above l below, (LineTable.ofText stored).lines = above ++ l :: below ∧
          belowLineFinding.location.line = l.index + 1 ∧ Text.allBlank l.content = false ∧
          (bytesInFront above l : Int) =
            belowLineFinding.location.byteOffset + above.countP Line.endsInCrlf ∧
          (belowLineFinding.location.byteOffset = bytesInFront above l ↔
            ∀ x ∈ above, x.ending ≠ some .crlf) :=
  offset_lintPaths (belowLineFinding_mem (by decide))

/-- Behind CR LF the offset is that of another byte. -/
theorem offset_lintPaths_crlf :
    belowLineFinding ∈
        (lintPaths (treeWith (belowLine ['\r', '\n'])) [parameterRule] [sourcePath]).violations ∧
      ∃ above l below, (LineTable.ofText (belowLine ['\r', '\n'])).lines = above ++ l :: below ∧
        belowLineFinding.location.line = l.index + 1 ∧
        belowLineFinding.location.byteOffset ≠ bytesInFront above l := by
  refine ⟨belowLineFinding_mem (by decide), [⟨0, 0, "x".toList, some .crlf⟩],
    ⟨1, 3, "/// A".toList, some .lf⟩, [⟨2, 9, "func f(a: Int)".toList, none⟩], ?_, ?_, ?_⟩
  · decide
  · decide
  · decide

end DocLint
