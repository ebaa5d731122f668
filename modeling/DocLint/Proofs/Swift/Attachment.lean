/-
Which lines the search for a comment passes over, and which it takes.

The search goes up from a declaration, so lists of lines are given nearest first.
`IsAttribute` says of a group of lines, without the loop, that it is read as an
attribute: counted from below, more parentheses close than open until its top line, and
that line begins with the sign of attributes.  `dropAttributes_append` is the
consequence: attributes are passed over whatever stands above them.

`CommentRun` says which lines the search then takes, and `docRange?_eq_some_iff` that
the range it returns is theirs.
-/
import DocLint.Proofs.Text.Blank
import DocLint.Swift.DocRange

namespace DocLint.Swift

/-! ### Attributes -/

/-- How many more parentheses are closed on the lines than opened. -/
def surplus : List MaskedLine → Int
  | [] => 0
  | l :: more => l.surplus + surplus more

@[simp] theorem surplus_nil : surplus [] = 0 := rfl

@[simp] theorem surplus_cons (l : MaskedLine) (lines : List MaskedLine) :
    surplus (l :: lines) = l.surplus + surplus lines := rfl

/-- Does the code of the line begin with the sign of attributes? -/
def MaskedLine.opensAttribute (l : MaskedLine) : Bool := ['@'].isPrefixOf (Text.trimLeft l.masked)

/-- The lines from `below` up to `top` close `balance` parentheses that are open already, and not
before `top`. -/
structure ClosesAt (balance : Int) (below : List MaskedLine) (top : MaskedLine) : Prop where
  /-- Below the top line some parenthesis is still to be opened. -/
  openBelow : ∀ inner, inner ≠ [] → inner <+: below → 0 < balance + surplus inner
  /-- With the top line all are. -/
  closed : balance + surplus below + top.surplus ≤ 0

/-- A group of lines, nearest first, that is read as one attribute. -/
def IsAttribute (lines : List MaskedLine) : Prop :=
  ∃ below top, lines = below ++ [top] ∧ ClosesAt 0 below top ∧ top.opensAttribute = true

/-- Lines, nearest first, that are read as attributes one above the other. -/
inductive AttributeLines : List MaskedLine → Prop
  | nil : AttributeLines []
  | append {group more : List MaskedLine} (hgroup : IsAttribute group)
      (hmore : AttributeLines more) : AttributeLines (group ++ more)

theorem closesAt_nil {balance : Int} {top : MaskedLine} :
    ClosesAt balance [] top ↔ balance + top.surplus ≤ 0 := by
  constructor
  · intro h
    simpa using h.closed
  · intro h
    refine ⟨?_, by simpa using h⟩
    intro inner hne hprefix
    exact absurd (List.prefix_nil.mp hprefix) hne

theorem closesAt_cons {balance : Int} {l top : MaskedLine} {below : List MaskedLine} :
    ClosesAt balance (l :: below) top ↔
      0 < balance + l.surplus ∧ ClosesAt (balance + l.surplus) below top := by
  constructor
  · intro h
    refine ⟨by simpa using h.openBelow [l] (by simp) (by simp), ?_, ?_⟩
    · intro inner _ hprefix
      have hopen := h.openBelow (l :: inner) (by simp) (List.cons_prefix_cons.mpr ⟨rfl, hprefix⟩)
      simp only [surplus_cons] at hopen
      omega
    · have hclosed := h.closed
      simp only [surplus_cons] at hclosed
      omega
  · rintro ⟨hpos, h⟩
    refine ⟨?_, ?_⟩
    · intro inner hne hprefix
      obtain ⟨x, more, rfl⟩ := List.exists_cons_of_ne_nil hne
      obtain ⟨rfl, hmore⟩ := List.cons_prefix_cons.mp hprefix
      by_cases hmoreNil : more = []
      · simpa [hmoreNil] using hpos
      · have hopen := h.openBelow more hmoreNil hmore
        simp only [surplus_cons]
        omega
    · have hclosed := h.closed
      simp only [surplus_cons]
      omega

/-- The loop finds the group of lines that closes the parentheses, if an attribute opens it. -/
theorem aboveAttribute?_eq_some_iff {balance : Int} {lines above : List MaskedLine} :
    aboveAttribute? balance lines = some above ↔
      ∃ below top, lines = below ++ top :: above ∧ ClosesAt balance below top ∧
        top.opensAttribute = true := by
  induction lines generalizing balance with
  | nil => simp [aboveAttribute?]
  | cons l lines ih =>
      rw [aboveAttribute?]
      by_cases hclosed : balance + l.surplus ≤ 0
      · rw [if_pos hclosed]
        constructor
        · intro h
          split at h
          · rename_i hopens
            cases h
            exact ⟨[], l, rfl, closesAt_nil.mpr hclosed, hopens⟩
          · simp at h
        · rintro ⟨below, top, hlines, hcloses, hopens⟩
          cases below with
          | nil =>
              obtain ⟨rfl, rfl⟩ : l = top ∧ lines = above := by simpa using hlines
              exact if_pos hopens
          | cons x below =>
              obtain ⟨rfl, -⟩ : l = x ∧ lines = below ++ top :: above := by simpa using hlines
              have hopen := (closesAt_cons.mp hcloses).1
              omega
      · rw [if_neg hclosed, ih]
        constructor
        · rintro ⟨below, top, rfl, hcloses, hopens⟩
          exact ⟨l :: below, top, rfl, closesAt_cons.mpr ⟨by omega, hcloses⟩, hopens⟩
        · rintro ⟨below, top, hlines, hcloses, hopens⟩
          cases below with
          | nil =>
              obtain ⟨rfl, -⟩ : l = top ∧ lines = above := by simpa using hlines
              exact absurd (closesAt_nil.mp hcloses) hclosed
          | cons x below =>
              obtain ⟨rfl, rfl⟩ : l = x ∧ lines = below ++ top :: above := by simpa using hlines
              exact ⟨below, top, rfl, (closesAt_cons.mp hcloses).2, hopens⟩

/-- An attribute is passed over, whatever stands above it. -/
theorem aboveAttribute?_append {group : List MaskedLine} (h : IsAttribute group)
    (rest : List MaskedLine) : aboveAttribute? 0 (group ++ rest) = some rest := by
  obtain ⟨below, top, rfl, hcloses, hopens⟩ := h
  exact aboveAttribute?_eq_some_iff.mpr ⟨below, top, by simp, hcloses, hopens⟩

theorem exists_isAttribute {lines above : List MaskedLine}
    (h : aboveAttribute? 0 lines = some above) : ∃ group, lines = group ++ above ∧ IsAttribute group := by
  obtain ⟨below, top, rfl, hcloses, hopens⟩ := aboveAttribute?_eq_some_iff.mp h
  exact ⟨below ++ [top], by simp, below, top, rfl, hcloses, hopens⟩

theorem dropAttributes_of_none {lines : List MaskedLine} (h : aboveAttribute? 0 lines = none) :
    dropAttributes lines = lines := by
  rw [dropAttributes]
  split
  · rename_i above habove
    rw [h] at habove
    simp at habove
  · rfl

theorem dropAttributes_of_some {lines above : List MaskedLine}
    (h : aboveAttribute? 0 lines = some above) : dropAttributes lines = dropAttributes above := by
  rw [dropAttributes]
  split
  · rename_i above' habove
    rw [h] at habove
    cases habove
    rfl
  · rename_i hnone
    rw [h] at hnone
    simp at hnone

/-- **Attributes are passed over, and nothing else is.**  What is left is what stands above them,
and it does not begin with an attribute. -/
theorem exists_attributeLines (lines : List MaskedLine) :
    ∃ attributes, lines = attributes ++ dropAttributes lines ∧ AttributeLines attributes ∧
      aboveAttribute? 0 (dropAttributes lines) = none := by
  fun_induction dropAttributes lines with
  | case1 lines above hfound ih =>
      obtain ⟨attributes, hsplit, hattributes, hnone⟩ := ih
      obtain ⟨group, rfl, hgroup⟩ := exists_isAttribute hfound
      refine ⟨group ++ attributes, ?_, AttributeLines.append hgroup hattributes, hnone⟩
      rw [List.append_assoc, ← hsplit]
  | case2 lines hnone => exact ⟨[], rfl, AttributeLines.nil, hnone⟩

theorem dropAttributes_append {attributes : List MaskedLine} (h : AttributeLines attributes)
    (rest : List MaskedLine) : dropAttributes (attributes ++ rest) = dropAttributes rest := by
  induction h with
  | nil => rfl
  | append hgroup _ ih =>
      rw [List.append_assoc, dropAttributes_of_some (aboveAttribute?_append hgroup _), ih]

/-- A line without code is no attribute, and none ends on it. -/
theorem dropAttributes_cons_of_blank {l : MaskedLine} (h : Text.allBlank l.masked = true)
    (above : List MaskedLine) : dropAttributes (l :: above) = l :: above := by
  refine dropAttributes_of_none ?_
  have hcount : ∀ c, Text.isBlank c = false → l.masked.count c = 0 := by
    intro c hc
    rw [List.count_eq_zero]
    intro hmem
    rw [Text.allBlank_iff.mp h c hmem] at hc
    simp at hc
  have hsurplus : l.surplus = 0 := by
    unfold MaskedLine.surplus
    rw [hcount ')' (by decide), hcount '(' (by decide)]
    rfl
  rw [aboveAttribute?, if_pos (by omega), Text.trimLeft_eq_nil_iff.mpr h]
  rfl

theorem dropAttributes_of_blank {lines : List MaskedLine}
    (h : ∀ l ∈ lines, Text.allBlank l.masked = true) : dropAttributes lines = lines := by
  cases lines with
  | nil => exact dropAttributes_of_none rfl
  | cons l above => exact dropAttributes_cons_of_blank (h l (by simp)) above

/-- The top line of an attribute carries code. -/
theorem AttributeLines.top_code {lines : List MaskedLine} (h : AttributeLines lines) :
    ∀ top, lines.getLast? = some top → Text.allBlank top.masked = false := by
  induction h with
  | nil => simp
  | @append group more hgroup _ ih =>
      intro top htop
      rw [List.getLast?_append] at htop
      cases hmore : more.getLast? with
      | some x =>
          rw [hmore] at htop
          exact ih top (by simpa [hmore] using htop)
      | none =>
          obtain ⟨below, x, rfl, -, hopens⟩ := hgroup
          obtain rfl : x = top := by simpa [hmore] using htop
          cases hblank : Text.allBlank x.masked with
          | false => rfl
          | true =>
              unfold MaskedLine.opensAttribute at hopens
              rw [Text.trimLeft_eq_nil_iff.mpr hblank] at hopens
              simp at hopens

/-! ### The comment above the attributes -/

/-- The lines `run`, nearest first and `rest` above them, that the search takes for a comment. -/
inductive CommentRun : List Line → List Line → Prop
  /-- A run of documentation lines, as long as it can be. -/
  | lines {last : Line} {run rest : List Line}
      (hlast : Doc.isLineDoc last.content = true)
      (hrun : ∀ l ∈ run, Doc.isLineDoc l.content = true)
      (hstop : ∀ l, rest.head? = some l → Doc.isLineDoc l.content = false) :
      CommentRun (last :: run) rest
  /-- The lines from a closing up to the nearest line with an opening. -/
  | block {last first : Line} {below rest : List Line}
      (hhead : (below ++ [first]).head? = some last)
      (hlast : Doc.isLineDoc last.content = false)
      (hclose : Doc.blockClose.isSuffixOf (Text.trim last.content) = true)
      (hbelow : ∀ l ∈ below, Text.hasPart Doc.commentOpen l.content = false)
      (hpart : Text.hasPart Doc.commentOpen first.content = true)
      (hopen : Doc.blockOpen.isPrefixOf (Text.trimLeft first.content) = true)
      (hempty : (Doc.blockOpen ++ ['/']).isPrefixOf (Text.trimLeft first.content) = false) :
      CommentRun (below ++ [first]) rest

/-- The range of some lines, nearest first. -/
def IsRangeOf (range : ByteRange) (run : List Line) : Prop :=
  ∃ first last, run.getLast? = some first ∧ run.head? = some last ∧ range = rangeOfLines first last

theorem stop_rangeOfLines (first last : Line) : (rangeOfLines first last).stop = last.contentEnd := by
  simp only [rangeOfLines, ByteRange.stop]
  omega

theorem lineDocRange_isRangeOf (last : Line) (above : List MaskedLine) :
    IsRangeOf (lineDocRange last above)
      (last :: (above.map MaskedLine.line).takeWhile fun l => Doc.isLineDoc l.content) := by
  unfold lineDocRange
  simp only
  generalize ((above.map MaskedLine.line).takeWhile fun l => Doc.isLineDoc l.content) = run
  refine ⟨run.getLast?.getD last, last, ?_, rfl, rfl⟩
  rw [List.getLast?_cons]

theorem blockDocRange?_eq_some_iff {last : Line} {above : List MaskedLine} {range : ByteRange} :
    blockDocRange? last above = some range ↔
      ∃ below first rest, last :: above.map MaskedLine.line = below ++ first :: rest ∧
        (∀ l ∈ below, Text.hasPart Doc.commentOpen l.content = false) ∧
        Text.hasPart Doc.commentOpen first.content = true ∧
        Doc.blockOpen.isPrefixOf (Text.trimLeft first.content) = true ∧
        (Doc.blockOpen ++ ['/']).isPrefixOf (Text.trimLeft first.content) = false ∧
        range = rangeOfLines first last := by
  unfold blockDocRange?
  simp only [Option.bind_eq_bind, Option.bind_eq_some_iff, List.find?_eq_some_iff_append]
  constructor
  · rintro ⟨first, ⟨hpart, below, rest, hsplit, hbelow⟩, h⟩
    split at h
    · rename_i hmarks
      simp only [Bool.and_eq_true, Bool.not_eq_true'] at hmarks
      simp only [Option.some.injEq] at h
      exact ⟨below, first, rest, hsplit, fun l hl => by simpa using hbelow l hl, hpart,
        hmarks.1, hmarks.2, h.symm⟩
    · simp at h
  · rintro ⟨below, first, rest, hsplit, hbelow, hpart, hopen, hempty, rfl⟩
    refine ⟨first, ⟨hpart, below, rest, hsplit, fun l hl => by simpa using hbelow l hl⟩, ?_⟩
    rw [if_pos (by simp [hopen, hempty])]

theorem IsRangeOf.eq {r s : ByteRange} {run : List Line} (hr : IsRangeOf r run)
    (hs : IsRangeOf s run) : r = s := by
  obtain ⟨first, last, hfirst, hlast, rfl⟩ := hr
  obtain ⟨first', last', hfirst', hlast', rfl⟩ := hs
  rw [hfirst] at hfirst'
  rw [hlast] at hlast'
  cases hfirst'
  cases hlast'
  rfl

/-- Below a documentation line the comment is the run of such lines. -/
theorem commentRun_lines_iff {last : Line} {above : List MaskedLine} {range : ByteRange}
    (hdoc : Doc.isLineDoc last.content = true) :
    (∃ run rest, last :: above.map MaskedLine.line = run ++ rest ∧ CommentRun run rest ∧
      IsRangeOf range run) ↔ lineDocRange last above = range := by
  have hrange := lineDocRange_isRangeOf last above
  constructor
  · rintro ⟨run, rest, hsplit, hrun, hrun'⟩
    cases hrun with
    | @lines x run' _ hx hall hstop =>
        obtain ⟨rfl, habove⟩ : last = x ∧ above.map MaskedLine.line = run' ++ rest := by
          simpa using hsplit
        rw [habove, takeWhile_append_of_stop hall hstop] at hrange
        exact hrange.eq hrun'
    | @block x first below _ hhead hx _ _ _ _ _ =>
        have hlast : (below ++ [first]).head? = some last := by
          have h := congrArg List.head? hsplit
          rw [List.head?_append, hhead] at h
          rw [hhead]
          simpa using h.symm
        rw [hhead] at hlast
        cases hlast
        rw [hdoc] at hx
        simp at hx
  · rintro rfl
    refine ⟨_, (above.map MaskedLine.line).dropWhile fun l => Doc.isLineDoc l.content, ?_, ?_,
      hrange⟩
    · rw [List.cons_append, List.takeWhile_append_dropWhile]
    · refine CommentRun.lines hdoc ?_ ?_
      · intro l hl
        exact List.mem_takeWhile_imp (p := fun l : Line => Doc.isLineDoc l.content) hl
      intro l hl
      have hnot := List.head?_dropWhile_not (fun l => Doc.isLineDoc l.content)
        (above.map MaskedLine.line)
      rw [hl] at hnot
      simpa using hnot

/-- Below any other line the comment is a block that closes on that line. -/
theorem commentRun_block_iff {last : Line} {above : List MaskedLine} {range : ByteRange}
    (hdoc : Doc.isLineDoc last.content = false) :
    (∃ run rest, last :: above.map MaskedLine.line = run ++ rest ∧ CommentRun run rest ∧
      IsRangeOf range run) ↔
      Doc.blockClose.isSuffixOf (Text.trim last.content) = true ∧
        blockDocRange? last above = some range := by
  rw [blockDocRange?_eq_some_iff]
  constructor
  · rintro ⟨run, rest, hsplit, hrun, hrange⟩
    cases hrun with
    | @lines x run' _ hx _ _ =>
        obtain ⟨rfl, -⟩ : last = x ∧ above.map MaskedLine.line = run' ++ rest := by
          simpa using hsplit
        rw [hdoc] at hx
        simp at hx
    | @block x first below _ hhead _ hclose hbelow hpart hopen hempty =>
        have hlast : x = last := by
          have h := congrArg List.head? hsplit
          rw [List.head?_append, hhead] at h
          simpa using h.symm
        subst hlast
        refine ⟨hclose, below, first, rest, by simpa using hsplit, hbelow, hpart, hopen, hempty, ?_⟩
        exact hrange.eq ⟨first, x, by simp, hhead, rfl⟩
  · rintro ⟨hclose, below, first, rest, hsplit, hbelow, hpart, hopen, hempty, rfl⟩
    have hhead : (below ++ [first]).head? = some last := by
      have h := congrArg List.head? hsplit
      rw [show below ++ first :: rest = (below ++ [first]) ++ rest by simp, List.head?_append] at h
      cases hbf : (below ++ [first]).head? with
      | none => simp at hbf
      | some y =>
          rw [hbf] at h
          simpa using h.symm
    exact ⟨below ++ [first], rest, by simpa using hsplit,
      CommentRun.block hhead hdoc hclose hbelow hpart hopen hempty, first, last, by simp, hhead, rfl⟩

/-- **What the search returns is the range of a comment that stands right above the attributes.** -/
theorem docRange?_eq_some_iff {above : List MaskedLine} {range : ByteRange} :
    docRange? above = some range ↔
      ∃ run rest, (dropAttributes above).map MaskedLine.line = run ++ rest ∧
        CommentRun run rest ∧ IsRangeOf range run := by
  unfold docRange?
  cases hdrop : dropAttributes above with
  | nil =>
      constructor
      · intro h
        simp at h
      · rintro ⟨run, rest, hsplit, -, first, last, hfirst, -, -⟩
        have hnil := (List.append_eq_nil_iff.mp hsplit.symm).1
        rw [hnil] at hfirst
        simp at hfirst
  | cons l more =>
      simp only [List.map_cons]
      cases hdoc : Doc.isLineDoc l.line.content with
      | true =>
          rw [if_pos rfl, commentRun_lines_iff hdoc]
          simp
      | false =>
          rw [if_neg (by simp), commentRun_block_iff hdoc]
          simp

/-! ### The ends of a comment -/

theorem allBlank_of_isLineDoc {t : Text} (h : Doc.isLineDoc t = true) :
    Text.allBlank t = false := by
  cases hblank : Text.allBlank t with
  | false => rfl
  | true =>
      unfold Doc.isLineDoc at h
      rw [Text.trimLeft_eq_nil_iff.mpr hblank] at h
      simp [Doc.lineMarker] at h

theorem CommentRun.first_not_blank {run rest : List Line} (h : CommentRun run rest) :
    ∀ first, run.getLast? = some first → Text.allBlank first.content = false := by
  intro first hfirst
  cases h with
  | @lines last run _ hlast hrun _ =>
      have hmem := List.mem_of_getLast? hfirst
      rcases List.mem_cons.mp hmem with rfl | hmem
      · exact allBlank_of_isLineDoc hlast
      · exact allBlank_of_isLineDoc (hrun first hmem)
  | @block _ top below _ _ _ _ _ _ hopen _ =>
      have htop : top = first := by simpa using hfirst
      subst htop
      cases hblank : Text.allBlank top.content with
      | false => rfl
      | true =>
          rw [Text.trimLeft_eq_nil_iff.mpr hblank] at hopen
          simp [Doc.blockOpen] at hopen

theorem CommentRun.last_not_blank {run rest : List Line} (h : CommentRun run rest) :
    ∀ last, run.head? = some last → Text.allBlank last.content = false := by
  intro last hlast
  cases h with
  | @lines x run _ hx _ _ =>
      have hxl : x = last := by simpa using hlast
      subst hxl
      exact allBlank_of_isLineDoc hx
  | @block x top below _ hhead _ hclose _ _ _ _ =>
      obtain rfl : x = last := by
        rw [hhead] at hlast
        simpa using hlast
      cases hblank : Text.allBlank x.content with
      | false => rfl
      | true =>
          have htrim : Text.trim x.content = [] := by
            unfold Text.trim
            rw [Text.trimLeft_eq_nil_iff.mpr hblank]
            rfl
          rw [htrim] at hclose
          simp [Doc.blockClose] at hclose

end DocLint.Swift
