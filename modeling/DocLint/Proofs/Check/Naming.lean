/-
When an entry documents a parameter.

An entry is known by its name, which is trimmed, but is compared by its text, which is not:
the text has to begin with the name of the parameter and a colon.  The two agree as long as
nothing stands between the name of the entry and its colon.  Blanks may stand there, and
`WrittenWith` says which; an entry then documents the name with these blanks behind it, and
no other (`WrittenWith.documents_iff`).  So an entry is objected to under the very name that
was expected in one case only, when blanks stand before its colon.
-/
import DocLint.Proofs.Check.Decision
import DocLint.Proofs.Doc.ListGrammar

namespace DocLint

namespace Doc

/-- Blanks, if any, stand between the name of the entry and its first colon. -/
structure Entry.WrittenWith (e : Entry) (gap : Text) : Prop where
  blank : Text.allBlank gap = true
  name : ':' ∉ e.name
  text : ∃ rest, e.text = e.name ++ gap ++ ':' :: rest

/-- What an item is read as begins with its name. -/
theorem Reads.exists_gap {form : ListForm} {l : DocLine} {e : Entry} (h : Reads form l e) :
    ∃ gap, e.WrittenWith gap := by
  obtain ⟨text, htext, hkeyword⟩ := h.text
  obtain ⟨front, rest, hsplit, hcolon, hblank, hname⟩ := h.name
  have hflush := hkeyword.flush htext.flush
  rw [hsplit] at hflush
  -- The text has no blanks in front, so its name is trimmed at the end alone.
  have htrim : Text.trim front = Text.trimRight front := by
    have hfront : front.Flush := by
      intro c hc
      obtain ⟨r, rfl⟩ := List.head?_eq_some_iff.mp hc
      exact hflush c rfl
    unfold Text.trim
    rw [hfront.trimLeft_eq]
  obtain ⟨gap, hgap, hgapBlank⟩ := Text.exists_trimRight_append front
  rw [← htrim, ← hname] at hgap
  refine ⟨gap, hgapBlank, ?_, rest, by rw [hsplit, ← hgap]⟩
  intro hmem
  exact hcolon (by rw [hgap]; simp [hmem])

/-- **An entry documents the name that stands before its colon**, with all blanks that do. -/
theorem Entry.WrittenWith.documents_iff {e : Entry} {gap p : Text} (h : e.WrittenWith gap)
    (hp : ':' ∉ p) : e.documents p = true ↔ e.name ++ gap = p := by
  obtain ⟨rest, htext⟩ := h.text
  have hcolon : ':' ∉ e.name ++ gap := by
    intro hmem
    rcases List.mem_append.mp hmem with hmem | hmem
    · exact h.name hmem
    · exact absurd (Text.allBlank_iff.mp h.blank ':' hmem) (by decide)
  unfold Entry.documents
  rw [htext, List.isPrefixOf_iff_prefix, Text.append_prefix_append_iff hp hcolon]
  exact eq_comm

end Doc

open Doc

namespace Check

/-- **Which entries document which parameters.**  An entry of a list is written with some blanks
between its name and its colon, and documents a parameter without a colon exactly when that is its
name with these blanks behind it; so with no blank there, exactly when it is its name.  A comment
is objected to for a name that it has in the place of the same name only at an entry with blanks
before its colon, when that is the first mismatch. -/
theorem documents_iff_written :
    (∀ (lines : List DocLine) (list : ParameterList), ParameterList.ofLines lines = .ok list →
      ∀ e ∈ list.entries, ∃ gap, e.WrittenWith gap ∧
        ∀ p, ':' ∉ p → (e.documents p = true ↔ e.name ++ gap = p)) ∧
    ∀ (config : Configuration) (names : List Text) (range : ByteRange) (lines : List DocLine)
      (offset : Int) (x : Text),
      comment config names ⟨range, lines⟩ = .invalid offset (.misnamed x x) ↔
        config.minimalNumberOfParameters ≤ names.length ∧
          ∃ entries e gap, Counted config names lines entries ∧ FirstMismatch entries names e x ∧
            e.name = x ∧ e.line.offset = offset ∧ e.WrittenWith gap ∧ gap ≠ [] := by
  refine ⟨?_, ?_⟩
  · intro lines list hlist e he
    obtain ⟨gap, hgap⟩ := (reads_of_mem hlist he).2.exists_gap
    exact ⟨gap, hgap, fun p hp => hgap.documents_iff hp⟩
  · intro config names range lines offset x
    rw [comment_eq_misnamed_iff]
    refine and_congr_right fun _ => ?_
    constructor
    · rintro ⟨entries, e, hcounted, hfirst, rfl, hoffset⟩
      have he : e ∈ entries := by
        obtain ⟨before, after, -, -, hsplit, -⟩ := hfirst
        simp [hsplit]
      obtain ⟨summary, parameters, list, -, -, -, hlist, rfl⟩ := hcounted.parts
      obtain ⟨gap, hgap⟩ := (reads_of_mem hlist he).2.exists_gap
      refine ⟨_, e, gap, hcounted, hfirst, rfl, hoffset, hgap, ?_⟩
      -- With no blank before the colon the entry would document its own name.
      rintro rfl
      obtain ⟨-, -, -, -, -, -, -, hmismatch⟩ := hfirst
      have hdocuments := (hgap.documents_iff hgap.name).mpr (List.append_nil e.name)
      exact hmismatch (documents_iff.mp hdocuments)
    · rintro ⟨entries, e, gap, hcounted, hfirst, hname, hoffset, -⟩
      exact ⟨entries, e, hcounted, hfirst, hname, hoffset⟩

/-- An item with a blank before its colon. -/
def gappedItem : DocLine := ⟨"- a : x".toList, 17, 8⟩

theorem documents_iff_written_gappedItem :
    ∃ gap, (⟨"a".toList, "a : x".toList, gappedItem⟩ : Entry).WrittenWith gap ∧
      ((⟨"a".toList, "a : x".toList, gappedItem⟩ : Entry).documents "a ".toList = true ↔
        "a".toList ++ gap = "a ".toList) := by
  have hread : ParameterList.ofLines [gappedItem] =
      .ok ⟨.flat, [⟨"a".toList, "a : x".toList, gappedItem⟩]⟩ := by decide
  obtain ⟨gap, hgap, hdocuments⟩ := documents_iff_written.1 _ _ hread _ List.mem_cons_self
  exact ⟨gap, hgap, hdocuments "a ".toList (by decide)⟩

/-- Its entry does not document its own name, and is objected to for that name. -/
theorem not_documents_gappedItem :
    (¬∀ (lines : List DocLine) (list : ParameterList), ParameterList.ofLines lines = .ok list →
      ∀ e ∈ list.entries, ∀ p, ':' ∉ p → (e.documents p = true ↔ e.name = p)) ∧
    comment { minimalNumberOfParameters := 1 } ["a".toList]
        ⟨⟨0, 24⟩, [⟨"Sums up.".toList, 0, 13⟩, ⟨[], 13, 4⟩, gappedItem]⟩ =
      .invalid 17 (.misnamed "a".toList "a".toList) := by
  refine ⟨?_, by decide⟩
  intro hall
  have hread : ParameterList.ofLines [gappedItem] =
      .ok ⟨.flat, [⟨"a".toList, "a : x".toList, gappedItem⟩]⟩ := by decide
  have hentry := hall _ _ hread _ List.mem_cons_self "a".toList (by decide)
  exact absurd (hentry.mpr rfl) (by decide)

end Check

end DocLint
