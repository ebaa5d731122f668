/-
What is asked of a console that reads markup.

Text in which nothing looks like markup is shown as it is, the name of a style in brackets is not
shown, and with a slash before the name it ends that style, which has to be set.  That is what
`Renderer.ReadsMarkup` says, and nothing about texts of another kind: a console may know more tags,
names of pictures between colons, and characters that it does not show.

The console of the program is of that kind (`Markup.readsMarkup_renderer`).
-/
import Mathlib.Data.List.TakeWhile
import Mathlib.Tactic.Common
import DocLint.Proofs.Text.Blank
import DocLint.Report.Markup

namespace DocLint

/-- Text in which nothing looks like markup. -/
structure MarkupFree (t : Text) : Prop where
  /-- No brackets are opened, nothing is escaped, and nothing controls the console. -/
  chars : ∀ c ∈ t, c ≠ '[' ∧ c ≠ '\\' ∧ ' ' ≤ c
  /-- No name stands between colons. -/
  colons : t.count ':' ≤ 1

instance (t : Text) : Decidable (MarkupFree t) :=
  decidable_of_iff ((∀ c ∈ t, c ≠ '[' ∧ c ≠ '\\' ∧ ' ' ≤ c) ∧ t.count ':' ≤ 1)
    ⟨fun h => ⟨h.1, h.2⟩, fun h => ⟨h.chars, h.colons⟩⟩

/-- Small letters and spaces, a letter first. -/
inductive IsStyle : Text → Prop
  | mk {c : Char} {rest : Text} (hc : 'a' ≤ c ∧ c ≤ 'z')
      (hrest : ∀ d ∈ rest, d = ' ' ∨ 'a' ≤ d ∧ d ≤ 'z') : IsStyle (c :: rest)

/-- How a console is known to show markup. -/
structure Renderer.ReadsMarkup (renderer : Renderer) : Prop where
  plain {t : Text} (ht : MarkupFree t) : renderer.shown t = .ok t
  /-- A style is set, and it need not be ended. -/
  opening {name front back : Text} (hname : IsStyle name) (hfront : MarkupFree front)
    (hback : MarkupFree back) :
    renderer.shown (front ++ '[' :: name ++ ']' :: back) = .ok (front ++ back)
  /-- A style is set and ended. -/
  pair {name t : Text} (hname : IsStyle name) (ht : MarkupFree t) :
    renderer.shown (styled name t) = .ok t
  /-- A style is ended that has not been set. -/
  closing {name front back : Text} (hname : IsStyle name) (hfront : MarkupFree front)
    (hback : MarkupFree back) :
    ∃ e, renderer.shown (front ++ "[/".toList ++ name ++ ']' :: back) = .error e

/-! ### Styles -/

theorem IsStyle.lower {name : Text} (h : IsStyle name) {c : Char} (hc : c ∈ name) :
    c = ' ' ∨ 'a' ≤ c ∧ c ≤ 'z' := by
  obtain ⟨hbegin, hrest⟩ := h
  rcases List.mem_cons.mp hc with rfl | hmem
  · exact Or.inr hbegin
  · exact hrest c hmem

/-- There is nothing in the name of a style that has a meaning in a tag. -/
theorem IsStyle.ne {name : Text} (h : IsStyle name) {c d : Char} (hc : c ∈ name)
    (hd : d ∈ ['[', ']', '=', '/']) : c ≠ d := by
  rintro rfl
  simp only [List.mem_cons, List.not_mem_nil, or_false] at hd
  rcases hd with rfl | rfl | rfl | rfl <;> exact absurd (h.lower hc) (by decide)

namespace Markup

variable {t r tag name back : Text} {fuel position : Nat} {styles : List Text}

/-! ### Steps -/

/-- Characters that begin nothing are shown. -/
theorem shownFrom_plain (h : ∀ c ∈ t, c ≠ '[' ∧ c ≠ '\\' ∧ ' ' ≤ c) :
    shownFrom (fuel + t.length) position styles (t ++ r) =
      (shownFrom fuel (position + t.length) styles r).map (t ++ ·) := by
  induction t generalizing position with
  | nil =>
      change _ = (shownFrom fuel position styles r).map id
      rw [Except.map_id]
      rfl
  | cons c t ih =>
      obtain ⟨hbracket, hslash, -⟩ := h c (by simp)
      have hslashes : (c :: (t ++ r)).takeWhile (· == '\\') = [] :=
        List.takeWhile_cons_of_neg (by simpa using hslash)
      have htag : tag? (c :: (t ++ r)) = none := by
        unfold tag?
        split
        · rename_i heq
          exact absurd (List.cons.inj heq).1 hbracket
        · rfl
      have hmore := @ih (position + 1) fun d hd => h d (List.mem_cons_of_mem _ hd)
      rw [List.cons_append, List.length_cons, ← Nat.add_assoc, shownFrom.eq_3 _ _ _ _ (by simp)]
      simp only [hslashes, List.length_nil, List.drop_zero, htag, List.head?_cons, Nat.add_zero,
        Option.some.injEq, hbracket, if_false]
      change (shownFrom (fuel + t.length) (position + 1) styles (t ++ r)).map _ = _
      rw [hmore, Nat.add_assoc, Nat.add_comm 1]
      cases shownFrom fuel (position + (t.length + 1)) styles r with
      | error e => rfl
      | ok more => rfl

/-- What stands between the brackets of a tag: it begins as a tag does, and there are no brackets in
it. -/
inductive IsTag : Text → Prop
  | mk {c : Char} {body : Text} (hbegin : beginsTag c = true) (hbody : ∀ d ∈ body, d ≠ ']' ∧ d ≠ '[') :
      IsTag (c :: body)

theorem tag?_eq_some (h : IsTag tag) : tag? ('[' :: tag ++ ']' :: back) = some (tag, back) := by
  obtain ⟨hbegin, hbody⟩ := h
  rename_i c body
  have hword : (body ++ ']' :: back).takeWhile (fun d => d != ']' && d != '[') = body := by
    rw [List.takeWhile_append_of_pos (by simpa using hbody), List.takeWhile_cons_of_neg (by simp),
      List.append_nil]
  rw [List.cons_append, List.cons_append, tag?, if_pos hbegin]
  simp only [hword, List.drop_left]

/-- A tag is not shown, and the styles change. -/
theorem shownFrom_tag (h : IsTag tag) :
    shownFrom (fuel + 1) position styles ('[' :: tag ++ ']' :: back) =
      match afterTag? tag styles with
      | some styles => shownFrom fuel (position + tag.length + 2) styles back
      | none => .error ⟨tag, position⟩ := by
  have hslashes : ('[' :: tag ++ ']' :: back).takeWhile (· == '\\') = [] := rfl
  rw [shownFrom.eq_3 _ _ _ _ (by simp)]
  simp only [hslashes, List.length_nil, List.drop_zero, tag?_eq_some h, Nat.add_zero]
  cases afterTag? tag styles with
  | none => rfl
  | some styles => exact congrFun Except.map_id _

/-! ### The tags of a style -/

section Style

variable (h : IsStyle name)

include h

theorem isTag_style : IsTag name := by
  have hbody : ∀ d ∈ name, d ≠ ']' ∧ d ≠ '[' := fun d hd => ⟨h.ne hd (by simp), h.ne hd (by simp)⟩
  obtain ⟨hc, -⟩ := h
  refine .mk ?_ fun d hd => hbody d (List.mem_cons_of_mem _ hd)
  simp [beginsTag, hc]

theorem isTag_end : IsTag ('/' :: name) :=
  .mk rfl fun _ hd => ⟨h.ne hd (by simp), h.ne hd (by simp)⟩

theorem afterTag?_style : afterTag? name styles = some (styleName name :: styles) := by
  have hname : tagName name = name :=
    List.takeWhile_eq_self_iff.mpr fun d hd => by simpa using h.ne hd (by simp)
  rw [afterTag?, hname]
  split
  · exact absurd rfl (h.ne (List.mem_cons_self) (by simp))
  · rfl

theorem afterTag?_end : afterTag? ('/' :: name) styles = endStyle? (Text.trim name) styles := by
  have hname : tagName ('/' :: name) = '/' :: name := by
    refine List.takeWhile_eq_self_iff.mpr (List.forall_mem_cons.mpr ⟨by decide, fun d hd => ?_⟩)
    simpa using h.ne hd (by simp)
  rw [afterTag?, hname]
  rfl

end Style

/-- The end of a style is that of the innermost one, if it has the name. -/
theorem endStyle?_cons (name : Text) (styles : List Text) :
    endStyle? (Text.trim name) (styleName name :: styles) = some styles := by
  have hname : styleName name = styleName (Text.trim name) := by
    rw [styleName, styleName, Text.trim_trim]
  rw [endStyle?, if_pos (Or.inr hname)]

/-! ### Texts -/

/-- All of a text that begins nothing is shown. -/
theorem shownFrom_all (h : MarkupFree t) (hfuel : t.length ≤ fuel) :
    shownFrom fuel position styles t = .ok t := by
  obtain ⟨more, rfl⟩ := Nat.exists_eq_add_of_le' hfuel
  have hshown := @shownFrom_plain t [] more position styles h.chars
  rw [List.append_nil] at hshown
  rw [hshown]
  cases more <;> simp [shownFrom, Except.map]

/-- What stands before a tag is shown, and then it is the tag that counts. -/
theorem shown_append_tag {front : Text} (hfront : MarkupFree front) (htag : IsTag tag) :
    shown (front ++ '[' :: tag ++ ']' :: back) = (match afterTag? tag [] with
      | some styles =>
        shownFrom (tag.length + back.length + 2) (front.length + tag.length + 2) styles back
      | none => .error ⟨tag, front.length⟩).map (front ++ ·) := by
  have hfuel : (front ++ '[' :: tag ++ ']' :: back).length + 1 =
      tag.length + back.length + 2 + 1 + front.length := by
    simp only [List.length_append, List.length_cons]
    omega
  rw [shown, hfuel, List.append_assoc, shownFrom_plain hfront.chars, shownFrom_tag htag,
    Nat.zero_add]

/-- **The console of the program reads markup.** -/
theorem readsMarkup_renderer : renderer.ReadsMarkup where
  plain ht := by
    show (shown _).mapError _ = _
    rw [shown, shownFrom_all ht (Nat.le_succ _)]
    rfl
  opening hname hfront hback := by
    show (shown _).mapError _ = _
    rw [shown_append_tag hfront (isTag_style hname), afterTag?_style hname]
    simp only
    rw [shownFrom_all hback (by omega)]
    rfl
  pair {name t} hname ht := by
    show (shown _).mapError _ = _
    have hsplit : styled name t =
        [] ++ '[' :: name ++ ']' :: (t ++ '[' :: ('/' :: name) ++ [']']) := by
      simp [styled]
    have hfuel : name.length + (t ++ '[' :: ('/' :: name) ++ [']']).length + 2 =
        name.length + name.length + 4 + 1 + t.length := by
      simp only [List.length_append, List.length_cons, List.length_nil]
      omega
    rw [hsplit, shown_append_tag ⟨by simp, by simp⟩ (isTag_style hname), afterTag?_style hname]
    simp only
    rw [hfuel, List.append_assoc, shownFrom_plain ht.chars, shownFrom_tag (isTag_end hname),
      afterTag?_end hname, endStyle?_cons]
    simp [shownFrom, Except.map, Except.mapError]
  closing {name front back} hname hfront hback := by
    have hsplit : front ++ "[/".toList ++ name ++ ']' :: back =
        front ++ '[' :: ('/' :: name) ++ ']' :: back := by simp
    refine ⟨⟨(UnmatchedTag.mk ('/' :: name) front.length).message⟩, ?_⟩
    show (shown _).mapError _ = _
    rw [hsplit, shown_append_tag hfront (isTag_end hname), afterTag?_end hname]
    rfl

end Markup

end DocLint
