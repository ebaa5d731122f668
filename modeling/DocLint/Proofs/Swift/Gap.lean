/-
What may stand between two tokens: blanks and closed comments.

The comments are described without the scan.  A line comment runs up to a line feed.
Block comments nest, so the body of one is made of characters that begin no mark and of
further comments.  A gap is as long in the mask as in the text, and blank there, and what
follows it is masked as if it stood alone (`Gap.exists_blanks`).
-/
import DocLint.Proofs.Swift.Comment

namespace DocLint.Swift

/-- What stands between the marks of a block comment.  A character of it begins no mark, not even
with the closing one behind. -/
inductive CommentBody : Text → Prop
  | nil : CommentBody []
  | char {c : Char} {r : Text} (hopen : ¬ ['/', '*'] <+: c :: (r ++ ['*', '/']))
      (hclose : ¬ ['*', '/'] <+: c :: (r ++ ['*', '/'])) (hr : CommentBody r) : CommentBody (c :: r)
  | comment {inner r : Text} (hinner : CommentBody inner) (hr : CommentBody r) :
      CommentBody ('/' :: '*' :: (inner ++ '*' :: '/' :: r))

/-- Blanks and closed comments, in any number and order. -/
inductive Gap : Text → Prop
  | nil : Gap []
  | blank {c : Char} {g : Text} (hc : Text.isBlank c = true) (hg : Gap g) : Gap (c :: g)
  | line {body g : Text} (hbody : '\n' ∉ body) (hg : Gap g) :
      Gap ('/' :: '/' :: (body ++ '\n' :: g))
  | block {body g : Text} (hbody : CommentBody body) (hg : Gap g) :
      Gap ('/' :: '*' :: (body ++ '*' :: '/' :: g))

/-- Two characters that the body does not begin a mark with do not begin one in the text. -/
theorem not_mark_of_not_prefix {a b c : Char} {r : Text}
    (h : ¬ [a, b] <+: c :: (r ++ ['*', '/'])) (t : Text) :
    ∀ u, c = a → r ++ '*' :: '/' :: t = b :: u → False := by
  rintro u rfl hu
  refine h ?_
  cases r with
  | nil =>
      obtain ⟨rfl, -⟩ := List.cons.inj hu
      exact ⟨['/'], rfl⟩
  | cons d r =>
      obtain ⟨rfl, -⟩ := List.cons.inj hu
      exact ⟨r ++ ['*', '/'], rfl⟩

/-- **The scan closes a comment where its body ends**, however many comments are open around it. -/
theorem CommentBody.blockTail_eq {body : Text} (h : CommentBody body) (depth : Nat) (t : Text) :
    blockTail (depth + 1) (body ++ '*' :: '/' :: t) =
      ⟨body ++ '*' :: '/' :: (blockTail depth t).taken, (blockTail depth t).rest,
        (blockTail depth t).closed⟩ := by
  induction h generalizing depth t with
  | nil => rfl
  | @char c r hopen hclose _ ih =>
      rw [List.cons_append, blockTail]
      · rw [ih]
        rfl
      · exact not_mark_of_not_prefix hopen t
      · exact not_mark_of_not_prefix hclose t
  | @comment inner r _ _ ihinner ihr =>
      have hinside := ihinner (depth + 1) (r ++ '*' :: '/' :: t)
      have htext : '/' :: '*' :: (inner ++ '*' :: '/' :: r) ++ '*' :: '/' :: t =
          '/' :: '*' :: (inner ++ '*' :: '/' :: (r ++ '*' :: '/' :: t)) := by simp
      rw [htext, blockTail, hinside, ihr]
      simp [Span.push]

theorem mask_comment {body : Text} (h : CommentBody body) (t : Text) :
    mask ('/' :: '*' :: (body ++ '*' :: '/' :: t)) =
      ('/' :: '*' :: (body ++ ['*', '/'])).map blanked ++ mask t := by
  refine mask_of_blockTail ?_
  rw [h.blockTail_eq 0 t, blockTail]

theorem allBlank_map_blanked (t : Text) : Text.allBlank (t.map blanked) = true := by
  rw [Text.allBlank_iff]
  intro c hc
  obtain ⟨d, -, rfl⟩ := List.mem_map.mp hc
  exact isBlank_blanked d

/-- **A gap is blank in the mask**, and what follows it is masked on its own. -/
theorem Gap.exists_blanks {g : Text} (h : Gap g) :
    ∃ blanks, Text.allBlank blanks = true ∧ blanks.length = g.length ∧
      ∀ t, mask (g ++ t) = blanks ++ mask t := by
  induction h with
  | nil => exact ⟨[], rfl, rfl, fun t => rfl⟩
  | @blank c g hc _ ih =>
      obtain ⟨blanks, hblank, hlength, hmask⟩ := ih
      refine ⟨c :: blanks, by rw [Text.allBlank_cons, hc, hblank]; rfl, by simp [hlength], ?_⟩
      intro t
      have hslash : c ≠ '/' := by
        rintro rfl
        exact absurd hc (by decide)
      have hquote : c ≠ '\"' := by
        rintro rfl
        exact absurd hc (by decide)
      rw [List.cons_append, mask_cons_of_code hslash hquote, hmask]
      rfl
  | @line body g hbody _ ih =>
      obtain ⟨blanks, hblank, hlength, hmask⟩ := ih
      refine ⟨('/' :: '/' :: body).map blanked ++ '\n' :: blanks, ?_, by simp [hlength], ?_⟩
      · have hcomment := allBlank_map_blanked ('/' :: '/' :: body)
        rw [Text.allBlank_append, hcomment, Text.allBlank_cons, hblank]
        rfl
      · intro t
        have hline := mask_lineComment hbody (g ++ t)
        rw [hmask] at hline
        simpa using hline
  | @block body g hbody _ ih =>
      obtain ⟨blanks, hblank, hlength, hmask⟩ := ih
      refine ⟨('/' :: '*' :: (body ++ ['*', '/'])).map blanked ++ blanks, ?_, by simp [hlength], ?_⟩
      · rw [Text.allBlank_append, allBlank_map_blanked, hblank]
        rfl
      · intro t
        have hcomment := mask_comment hbody (g ++ t)
        rw [hmask] at hcomment
        simpa using hcomment

end DocLint.Swift
