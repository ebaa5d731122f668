/-
Blank lines above a file only move its findings.

Below blank lines a file has the same declarations and its lines stand in the table as before, all
further on.  So each comment is found again and gets the same verdict for the same reason, and the
place of the verdict is as many lines further down and as many bytes further on
(`checkDeclaration_append_blank`).  Nothing is asked of the file below.
-/
import DocLint.Lint.Run
import DocLint.Proofs.Check.Excerpt
import DocLint.Proofs.Rule.Located
import DocLint.Proofs.Swift.BlankLines

namespace DocLint

/-- The finding as many lines further down and as many bytes further on. -/
def Violation.shift (lines bytes : Nat) (v : Violation) : Violation :=
  { v with location := { v.location with
      line := v.location.line + lines
      byteOffset := v.location.byteOffset + bytes } }

variable {p t : Text} {path : Option Text}

/-- The lines below blank lines are a part of the table. -/
theorem LineTable.lines_append_blank (hp : p.BlankLines) (t : Text) :
    (ofText (p ++ t)).lines = (ofText p).lines ++
      (ofText t).lines.map (Line.shift (ofText p).lines.length p.byteSize) ++ [] := by
  rw [List.append_nil]
  exact lines_append (hp.endsLine.breakBetween t)

namespace Rule

variable (hp : p.BlankLines)

include hp

/-- A finding at a place of the file is the same finding further on. -/
theorem violation?_append_blank (rule : Rule) {x : Int} (hlow : 0 ≤ x)
    (hhigh : x < (LineTable.ofText t).size) {defect defect' : Defect}
    (hmessage : defect.message = defect'.message) :
    rule.violation? path (.ofText (p ++ t)) (x + p.byteSize) defect' =
      (rule.violation? path (.ofText t) x defect).map
        (Violation.shift (LineTable.ofText p).lines.length p.byteSize) := by
  obtain ⟨q, hq, hq'⟩ :=
    LineTable.position_part (LineTable.lines_append_blank hp t) hlow hhigh
  unfold violation? Location.ofOffset
  rw [hq, hq', ← hmessage]
  rfl

theorem checkDeclaration_append_blank (rule : Rule) {d : Declaration}
    (hd : d ∈ (SourceFile.mk t path).declarations) :
    rule.checkDeclaration path (.ofText (p ++ t)) (d.shift p.byteSize) =
      (rule.checkDeclaration path (.ofText t) d).map
        (Violation.shift (LineTable.ofText p).lines.length p.byteSize) := by
  cases hrange : d.docRange with
  | none =>
      unfold checkDeclaration verdict? Declaration.shift
      rw [hrange]
      rfl
  | some r =>
      obtain ⟨a⟩ := SourceFile.exists_attachment hd hrange
      have hverdict := Check.range_alike (fun _ _ hlm => hlm.1)
        (LineTable.linesInRange_part (LineTable.lines_append_blank hp t) a.range_mem.1 a.range_mem.2)
        rule.configuration d.parameterNames
      have hplace : ∀ offset defect,
          Check.range rule.configuration d.parameterNames (.ofText t) r =
            .ok (.invalid offset defect) → 0 ≤ offset ∧ offset < (LineTable.ofText t).size := by
        intro offset defect hinvalid
        obtain ⟨l, hl, hblank, rfl, -, -⟩ := SourceFile.place_of_invalid hd hrange hinvalid
        have htext := Line.textOffset_lt hblank
        have hstop := l.contentEnd_le_stop
        have hsize : l.stop ≤ (LineTable.ofText t).size := LineTable.stop_le_size hl
        omega
      unfold checkDeclaration verdict? Declaration.shift
      simp only [hrange, Option.map_some]
      generalize Check.range rule.configuration d.parameterNames (.ofText t) r = x
        at hverdict hplace ⊢
      generalize Check.range rule.configuration d.parameterNames (.ofText (p ++ t))
        (r.shift p.byteSize) = y at hverdict ⊢
      cases hverdict with
      | error _ => rfl
      | ok halike =>
          cases halike with
          | valid => rfl
          | start hmessage =>
              obtain ⟨hlow, hhigh⟩ := hplace _ _ rfl
              exact rule.violation?_append_blank hp hlow hhigh hmessage
          | line hmoved =>
              obtain ⟨hlow, hhigh⟩ := hplace _ _ rfl
              simp only [Check.offset_of_movedBy hmoved]
              exact rule.violation?_append_blank hp hlow hhigh rfl

/-- **A rule finds the same below blank lines**, further down. -/
theorem check_append_blank (rule : Rule) :
    rule.check ⟨p ++ t, path⟩ = (rule.check ⟨t, path⟩).map
      (Violation.shift (LineTable.ofText p).lines.length p.byteSize) := by
  unfold check
  rw [SourceFile.declarations_append_blank hp, List.filterMap_map, List.map_filterMap]
  exact List.filterMap_congr fun d hd => rule.checkDeclaration_append_blank hp hd

end Rule

/-- Lines of spaces, as many on each as its width says. -/
def Text.spaceLines (widths : List Nat) : Text :=
  unlines (widths.map fun width => List.replicate width ' ')

theorem Text.unbroken_spaces (n : Nat) : Text.Unbroken (List.replicate n ' ') := by
  intro c hc
  obtain rfl := List.eq_of_mem_replicate hc
  decide

theorem Text.blankLines_spaceLines (widths : List Nat) : (spaceLines widths).BlankLines where
  blank := by
    unfold spaceLines unlines
    refine allBlank_iff.mpr ?_
    intro c hc
    obtain ⟨l, hl, hc⟩ := List.mem_flatMap.mp hc
    obtain ⟨width, -, rfl⟩ := List.mem_map.mp hl
    rcases List.mem_append.mp hc with hc | hc
    · exact allBlank_iff.mp (allBlank_spaces width) c hc
    · obtain rfl := List.mem_singleton.mp hc
      rfl
  endsLine := endsLine_unlines _

theorem LineTable.length_lines_spaceLines (widths : List Nat) :
    (ofText (Text.spaceLines widths)).lines.length = widths.length := by
  have hunbroken : ∀ l ∈ widths.map (fun width => List.replicate width ' '), Text.Unbroken l := by
    intro l hl
    obtain ⟨width, -, rfl⟩ := List.mem_map.mp hl
    exact Text.unbroken_spaces width
  have hsplit := splitLines_unlines_append hunbroken []
  rw [List.append_nil] at hsplit
  rw [length_lines_ofText, Text.spaceLines, hsplit]
  simp [splitLines]

/-- **Leading blank lines only shift findings.**  Below lines of spaces rules find the same in a file,
in the same order, as many lines further down and as many bytes further on. -/
theorem SourceFile.lint_below_spaceLines (rules : List Rule) (widths : List Nat) (t : Text)
    (path : Option Text) :
    (SourceFile.mk (Text.spaceLines widths ++ t) path).lint rules =
      ((SourceFile.mk t path).lint rules).map
        (Violation.shift widths.length (Text.spaceLines widths).byteSize) := by
  unfold lint
  rw [List.map_flatMap]
  refine List.flatMap_congr fun rule _ => ?_
  rw [rule.check_append_blank (Text.blankLines_spaceLines widths),
    LineTable.length_lines_spaceLines]

end DocLint
