/-
Findings do not depend on how lines end.

A text and the same text with CR LF for every LF have the same declarations below the same
comments.  A comment is judged by what is written on its lines, so the verdicts are the
same for the same reason, on the same lines (`check_crlf`), and only byte offsets differ.

That is so unless a string literal of one line runs on over the end of its line, which it
does where a backslash stands before a line feed.  With CR LF the backslash takes only the
carriage return along, and what stands on the next line is no longer part of the literal
(`not_lint_crlf_escapedLineFeed`).
-/
import DocLint.Lint.Run
import DocLint.Proofs.Check.Excerpt
import DocLint.Proofs.Swift.Recoded
import DocLint.Rule.StructuredDoc

namespace DocLint

/-- The same finding in the same line and character, wherever that is in bytes. -/
structure Violation.Alike (v w : Violation) : Prop where
  rule : v.rule = w.rule
  severity : v.severity = w.severity
  path : v.location.path = w.location.path
  line : v.location.line = w.location.line
  character : v.location.character = w.location.character
  reason : v.reason = w.reason

namespace Rule

variable {t u : Text} {path : Option Text} {d e : Declaration}

/-- What is found on the same line of both tables is the same finding. -/
theorem violation?_sameLine (rule : Rule) {x y : Line} {defect defect' : Defect}
    (h : (LineTable.ofText t).SameLine (.ofText u) x y) (hmessage : defect.message = defect'.message) :
    Option.Rel Violation.Alike (rule.violation? path (.ofText t) x.textOffset defect)
      (rule.violation? path (.ofText u) y.textOffset defect') := by
  obtain ⟨p, hx, hy⟩ := LineTable.position_recoded h.left h.right h.recoded
  unfold violation? Location.ofOffset
  rw [hx, hy]
  exact Option.Rel.some ⟨rfl, rfl, rfl, rfl, rfl, hmessage⟩

theorem checkDeclaration_recoded (rule : Rule) (h : d.Recoded (.ofText t) (.ofText u) e) :
    Option.Rel Violation.Alike (rule.checkDeclaration path (.ofText t) d)
      (rule.checkDeclaration path (.ofText u) e) := by
  have hrange := h.docRange
  unfold checkDeclaration verdict?
  rw [h.parameterNames]
  generalize d.docRange = x at hrange ⊢
  generalize e.docRange = y at hrange ⊢
  cases hrange with
  | none => exact Option.Rel.none
  | @some r r' hrecoded =>
      have hverdict := Check.range_alike (fun _ _ hlm => hlm.recoded.content) hrecoded.lines
        rule.configuration e.parameterNames
      simp only [Option.map_some]
      generalize Check.range rule.configuration e.parameterNames (.ofText t) r = x at hverdict ⊢
      generalize Check.range rule.configuration e.parameterNames (.ofText u) r' = y at hverdict ⊢
      cases hverdict with
      | error _ => exact Option.Rel.none
      | ok halike =>
          cases halike with
          | valid => exact Option.Rel.none
          | start hmessage =>
              obtain ⟨x, y, hline, hx, hy⟩ := hrecoded.start
              simp only
              rw [hx, hy]
              exact rule.violation?_sameLine hline hmessage
          | line hplaced =>
              obtain ⟨x, y, hline, hx, hy⟩ := hplaced.places
              simp only
              rw [hx, hy]
              exact rule.violation?_sameLine hline rfl

/-- **A rule finds the same in both files.** -/
theorem check_crlf (rule : Rule) {f : SourceFile} (hcr : '\r' ∉ f.contents)
    (hrun : ∀ l ∈ Swift.lexemes f.contents, ¬l.RunsOn) :
    List.Forall₂ Violation.Alike (rule.check f) (rule.check f.crlf) := by
  refine List.rel_filterMap ?_ (SourceFile.declarations_recoded hcr hrun)
  intro d e hde
  exact rule.checkDeclaration_recoded hde

end Rule

namespace SourceFile

/-- **How lines end makes no difference**, if no string literal of one line runs on over the end of
its line: rules find the same with CR LF for every LF, in the same lines and characters, with the
same severities and for the same reasons, in the same order. -/
theorem lint_crlf (rules : List Rule) (f : SourceFile) (hcr : '\r' ∉ f.contents)
    (hrun : ∀ l ∈ Swift.lexemes f.contents, ¬l.RunsOn) :
    List.Forall₂ Violation.Alike (f.lint rules) (f.crlf.lint rules) := by
  unfold lint
  induction rules with
  | nil => exact List.Forall₂.nil
  | cons rule rules ih =>
      rw [List.flatMap_cons, List.flatMap_cons]
      exact List.rel_append (rule.check_crlf hcr hrun) ih

/-- The rule for functions of one parameter and more. -/
def anyParameter : Rule := ⟨structuredFunctionDoc, ⟨.warning, 0, 1⟩⟩

/-- A literal with an escaped quote that ends with its line, below a comment on another parameter. -/
def openLiteral : SourceFile := ⟨"/// A\n///\n/// - b: x\n@a(\"\\\"\nfunc f(a: Int)".toList, none⟩

/-- The item is found on the third line of both files. -/
theorem lint_crlf_openLiteral :
    '\r' ∉ openLiteral.contents ∧ (∀ l ∈ Swift.lexemes openLiteral.contents, ¬l.RunsOn) ∧
      openLiteral.lint [anyParameter] = [⟨structuredFunctionDoc, .warning, ⟨none, 3, 1, 10⟩,
        Defect.message (.misnamed "a".toList "b".toList)⟩] ∧
      ∃ w, openLiteral.crlf.lint [anyParameter] = [w] ∧ w.location.line = 3 ∧
        w.location.character = 1 ∧ w.reason = Defect.message (.misnamed "a".toList "b".toList) := by
  have hcr : '\r' ∉ openLiteral.contents := by decide
  have hrun : ∀ l ∈ Swift.lexemes openLiteral.contents, ¬l.RunsOn := by
    have hnone : (Swift.lexemes openLiteral.contents).filter (fun l => l.RunsOn) = [] := by cbv
    intro l hl
    simpa using List.filter_eq_nil_iff.mp hnone l hl
  have hfound : openLiteral.lint [anyParameter] = [⟨structuredFunctionDoc, .warning, ⟨none, 3, 1, 10⟩,
      Defect.message (.misnamed "a".toList "b".toList)⟩] := by
    have hdeclarations : openLiteral.declarations =
        [⟨⟨.function, "f".toList⟩, 28, ["a".toList], some ⟨0, 20⟩⟩] := by cbv
    unfold lint Rule.check
    rw [List.flatMap_singleton, hdeclarations]
    rfl
  refine ⟨hcr, hrun, hfound, ?_⟩
  have hsame := lint_crlf [anyParameter] openLiteral hcr hrun
  rw [hfound] at hsame
  obtain ⟨w, more, halike, hmore, hw⟩ := List.forall₂_cons_left_iff.mp hsame
  obtain rfl := List.forall₂_nil_left_iff.mp hmore
  exact ⟨w, hw, halike.line.symm, halike.character.symm, halike.reason.symm⟩

/-- A literal that runs on over the end of its line, and over the function below. -/
def escapedLineFeed : SourceFile := ⟨"/// Doc.\n@a(\"\\\nfunc f(a: Int) \x7b\x7d\n".toList, none⟩

theorem declarations_crlf_escapedLineFeed : escapedLineFeed.crlf.declarations =
    [⟨⟨.function, "f".toList⟩, 17, ["a".toList], some ⟨0, 8⟩⟩] := by cbv

/-- **With CR LF for every LF the function is found**, which is part of the literal otherwise. -/
theorem not_lint_crlf_escapedLineFeed :
    '\r' ∉ escapedLineFeed.contents ∧ escapedLineFeed.lint [anyParameter] = [] ∧
      escapedLineFeed.crlf.lint [anyParameter] =
        [⟨structuredFunctionDoc, .warning, ⟨none, 1, 1, 0⟩, Defect.message .noParametersSection⟩] ∧
      ¬List.Forall₂ Violation.Alike (escapedLineFeed.lint [anyParameter])
        (escapedLineFeed.crlf.lint [anyParameter]) := by
  have hnone : escapedLineFeed.lint [anyParameter] = [] := by
    have hdeclarations : escapedLineFeed.declarations = [] := by cbv
    unfold lint Rule.check
    rw [List.flatMap_singleton, hdeclarations]
    rfl
  have hfound : escapedLineFeed.crlf.lint [anyParameter] =
      [⟨structuredFunctionDoc, .warning, ⟨none, 1, 1, 0⟩, Defect.message .noParametersSection⟩] := by
    unfold lint Rule.check
    rw [List.flatMap_singleton, declarations_crlf_escapedLineFeed]
    rfl
  refine ⟨by decide, hnone, hfound, ?_⟩
  rw [hnone, hfound]
  exact fun hsame => by cases hsame

end SourceFile

end DocLint
