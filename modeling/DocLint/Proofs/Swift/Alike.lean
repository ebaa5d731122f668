/-
The search for a comment on lines that read alike.

The search looks at what is written on lines and on their masks, and carries their places along.
So on lines of another file that read alike it passes over corresponding attributes and stops at
corresponding lines (`docRange?_alike`).  As for comments, the relation between the lines is left
open.  All that is asked of it is that related lines have the same content.
-/
import DocLint.Proofs.Agree
import DocLint.Proofs.Swift.Attachment

namespace DocLint.Swift

/-- The masks are the same, of related lines. -/
structure MaskedLine.Alike (R : Line → Line → Prop) (l m : MaskedLine) : Prop where
  line : R l.line m.line
  masked : l.masked = m.masked

variable {R : Line → Line → Prop} {ls ms : List MaskedLine}

/-! ### Attributes -/

theorem aboveAttribute?_alike (h : List.Forall₂ (MaskedLine.Alike R) ls ms) (balance : Int) :
    Option.Rel (List.Forall₂ (MaskedLine.Alike R)) (aboveAttribute? balance ls)
      (aboveAttribute? balance ms) := by
  induction h generalizing balance with
  | nil => exact Option.Rel.none
  | @cons l m _ _ hlm hmore ih =>
      have hsurplus : l.surplus = m.surplus := by
        unfold MaskedLine.surplus
        rw [hlm.masked]
      rw [aboveAttribute?, aboveAttribute?, hsurplus, hlm.masked]
      split
      · split
        · exact Option.Rel.some hmore
        · exact Option.Rel.none
      · exact ih _

theorem dropAttributes_alike (h : List.Forall₂ (MaskedLine.Alike R) ls ms) :
    List.Forall₂ (MaskedLine.Alike R) (dropAttributes ls) (dropAttributes ms) := by
  fun_induction dropAttributes ls generalizing ms with
  | case1 ls above hfound ih =>
      have halike := aboveAttribute?_alike h 0
      rw [hfound] at halike
      cases hfound' : aboveAttribute? 0 ms with
      | none =>
          rw [hfound'] at halike
          cases halike
      | some above' =>
          rw [hfound'] at halike
          rw [dropAttributes_of_some hfound']
          cases halike with
          | some habove => exact ih habove
  | case2 ls hnone =>
      have halike := aboveAttribute?_alike h 0
      rw [hnone] at halike
      cases hfound' : aboveAttribute? 0 ms with
      | none =>
          rw [dropAttributes_of_none hfound']
          exact h
      | some above' =>
          rw [hfound'] at halike
          cases halike

/-! ### Comments -/

section Contents

variable (hR : ∀ l m, R l m → l.content = m.content)

include hR

/-- Which lines are taken for a comment depends on what is written on them. -/
theorem CommentRun.of_contents {run rest run' rest' : List Line} (h : CommentRun run rest)
    (hrun : List.Forall₂ R run run') (hrest : List.Forall₂ R rest rest') : CommentRun run' rest' := by
  cases h with
  | @lines last run rest hlast hall hstop =>
      obtain ⟨last', more', hline, hmore, rfl⟩ := List.forall₂_cons_left_iff.mp hrun
      refine CommentRun.lines (by rwa [← hR _ _ hline]) ?_ ?_
      · intro m hm
        obtain ⟨l, hl, hlm⟩ := exists_left_of_mem hmore hm
        rw [← hR _ _ hlm]
        exact hall l hl
      · intro m hm
        have hhead := optionRel_head? hrest
        rw [hm] at hhead
        generalize hx : rest.head? = x at hhead
        cases hhead with
        | some hlm =>
            rw [← hR _ _ hlm]
            exact hstop _ hx
  | @block last first below rest hhead hlast hclose hbelow hpart hopen hempty =>
      obtain ⟨below', back, rfl, hbelow', hback⟩ := exists_append_of_forall₂ hrun
      obtain ⟨first', tail, hfirst, htail, rfl⟩ := List.forall₂_cons_left_iff.mp hback
      obtain rfl := List.forall₂_nil_left_iff.mp htail
      have hheads := optionRel_head? hrun
      rw [hhead] at hheads
      generalize hy : (below' ++ [first']).head? = y at hheads
      cases hheads with
      | some hline =>
          rw [hR _ _ hline] at hlast hclose
          rw [hR _ _ hfirst] at hpart hopen hempty
          refine CommentRun.block hy hlast hclose ?_ hpart hopen hempty
          intro m hm
          obtain ⟨l, hl, hlm⟩ := exists_left_of_mem hbelow' hm
          rw [← hR _ _ hlm]
          exact hbelow l hl

/-- The ranges of comments on corresponding lines. -/
structure SameComment (R : Line → Line → Prop) (lines lines' : List Line) (range range' : ByteRange) :
    Prop where
  runs : ∃ run rest run' rest', (lines = run ++ rest ∧ CommentRun run rest ∧ IsRangeOf range run) ∧
    (lines' = run' ++ rest' ∧ CommentRun run' rest' ∧ IsRangeOf range' run') ∧
    List.Forall₂ R run run'

theorem exists_docRange? (hlines : List.Forall₂ R ((dropAttributes ls).map MaskedLine.line)
      ((dropAttributes ms).map MaskedLine.line)) {range : ByteRange} (h : docRange? ls = some range) :
    ∃ range', docRange? ms = some range' ∧ SameComment R ((dropAttributes ls).map MaskedLine.line)
      ((dropAttributes ms).map MaskedLine.line) range range' := by
  obtain ⟨run, rest, hsplit, hcomment, hrange⟩ := docRange?_eq_some_iff.mp h
  obtain ⟨first, last, hfirst, hlast, rfl⟩ := hrange
  rw [hsplit] at hlines
  obtain ⟨run', rest', hsplit', hrun, hrest⟩ := exists_append_of_forall₂ hlines
  have hcomment' := hcomment.of_contents hR hrun hrest
  obtain ⟨first', last', hfirst', hlast'⟩ : ∃ first' last', run'.getLast? = some first' ∧
      run'.head? = some last' := by
    have hends := optionRel_getLast? hrun
    have hheads := optionRel_head? hrun
    rw [hfirst] at hends
    rw [hlast] at hheads
    generalize run'.getLast? = x at hends ⊢
    generalize run'.head? = y at hheads ⊢
    cases hends with
    | some _ =>
        cases hheads with
        | some _ => exact ⟨_, _, rfl, rfl⟩
  have hrange' : IsRangeOf (rangeOfLines first' last') run' := ⟨first', last', hfirst', hlast', rfl⟩
  refine ⟨rangeOfLines first' last', docRange?_eq_some_iff.mpr ⟨run', rest', hsplit', hcomment', hrange'⟩,
    ⟨run, rest, run', rest', ⟨hsplit, hcomment, first, last, hfirst, hlast, rfl⟩,
      ⟨hsplit', hcomment', hrange'⟩, hrun⟩⟩

/-- **On lines that read alike the search finds corresponding comments**, or none on either. -/
theorem docRange?_alike (h : List.Forall₂ (MaskedLine.Alike R) ls ms) :
    Option.Rel (SameComment R ((dropAttributes ls).map MaskedLine.line)
      ((dropAttributes ms).map MaskedLine.line)) (docRange? ls) (docRange? ms) := by
  have hlines : List.Forall₂ R ((dropAttributes ls).map MaskedLine.line)
      ((dropAttributes ms).map MaskedLine.line) := by
    rw [List.forall₂_map_left_iff, List.forall₂_map_right_iff]
    exact (dropAttributes_alike h).imp fun _ _ hlm => hlm.line
  cases hl : docRange? ls with
  | some range =>
      obtain ⟨range', hm, hsame⟩ := exists_docRange? hR hlines hl
      rw [hm]
      exact Option.Rel.some hsame
  | none =>
      cases hm : docRange? ms with
      | none => exact Option.Rel.none
      | some range' =>
          obtain ⟨range, hsome, -⟩ := exists_docRange? (R := fun m l => R l m)
            (fun m l hlm => (hR l m hlm).symm) (List.Forall₂.flip hlines) hm
          rw [hl] at hsome
          exact absurd hsome (by simp)

end Contents

end DocLint.Swift
