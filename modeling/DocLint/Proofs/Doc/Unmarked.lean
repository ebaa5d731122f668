/-
What is left of a comment without its marks.

`Unmarks` says of the lines of a comment which text each of them has left, and it says so without
the functions that take the marks off: a mark is found where a line is put together from blanks,
the mark and a text.  A line of a line comment has the text behind its slashes.  The first line of a
block has the text behind the opening and the last one the text before the closing, and both are
left out when that is blank; a block of a single line has the text between.  The lines below the
opening may have a gutter, which is one if each line with text has its star (`Starred`).

The main statement (`bodyOf_eq_ok_iff`) is that slicing starts from this text, and that it fails when
the marks leave none.
-/
import DocLint.Doc.Slice
import DocLint.Proofs.Agree
import DocLint.Proofs.Text.Blank

namespace DocLint.Doc

/-! ### Marks -/

/-- A line of a line comment, and the text behind its marker.  A fourth slash would make it a
ruler. -/
inductive BehindMarker : Text → Text → Prop
  | intro {front text : Text} (hfront : Text.allBlank front = true)
      (hruler : text.head? ≠ some '/') : BehindMarker (front ++ (lineMarker ++ text)) text

/-- A line that opens a block, and the text behind the opening. -/
inductive BehindOpening : Text → Text → Prop
  | intro {front text : Text} (hfront : Text.allBlank front = true) :
      BehindOpening (front ++ (blockOpen ++ text)) text

/-- A text that ends with the closing of a block, and what stands before the closing. -/
inductive BeforeClosing : Text → Text → Prop
  | intro {text back : Text} (hback : Text.allBlank back = true) :
      BeforeClosing (text ++ blockClose ++ back) text

/-- A star stands in front of all other text, and is not that of a closing. -/
def BeginsWithStar (t : Text) : Prop :=
  ∃ front rest, t = front ++ '*' :: rest ∧ Text.allBlank front = true ∧ rest.head? ≠ some '/'

/-- Each text that is not blank begins with a star. -/
def Starred (texts : List Text) : Prop :=
  ∀ t ∈ texts, Text.allBlank t = false → BeginsWithStar t

/-- One of the texts below an opening, and what is left of it without the gutter, if there is
one. -/
inductive BehindGutter (texts : List Text) : Text → Text → Prop
  | star {front text : Text} (hall : Starred texts) (hfront : Text.allBlank front = true) :
      BehindGutter texts (front ++ '*' :: text) text
  | blank {text : Text} (hall : Starred texts) (hblank : Text.allBlank text = true) :
      BehindGutter texts text text
  | plain {text : Text} (hnot : ¬Starred texts) : BehindGutter texts text text

/-- The line, if there is text left on it. -/
def Stripped.unlessBlank (s : Stripped) : Option Stripped :=
  if Text.allBlank s.text then none else some s

/-- The lines below an opening: those in front of the last with all of their text, and the last with
what stands before the closing, unless that is blank. -/
def textBelow (inner : List Line) (last : Line) (closing : Text) : List Stripped :=
  inner.map (fun l => ⟨l, l.content⟩) ++ (⟨last, closing⟩ : Stripped).unlessBlank.toList

/-- The lines of a comment, and what is left of them without the marks. -/
inductive Unmarks : List Line → Body → Prop
  | lines {lines : List Line} {rest : List Stripped}
      (h : List.Forall₂ (fun l s => s.line = l ∧ BehindMarker l.content s.text) lines rest) :
      Unmarks lines ⟨none, rest⟩
  | single {l : Line} {behind text : Text} (hopen : BehindOpening l.content behind)
      (hclose : BeforeClosing behind text) : Unmarks [l] ⟨some ⟨l, text⟩, []⟩
  | block {first last : Line} {inner : List Line} {opening closing : Text} {rest : List Stripped}
      (hopen : BehindOpening first.content opening) (hclose : BeforeClosing last.content closing)
      (hrest : List.Forall₂ (fun s u => u.line = s.line ∧
        BehindGutter ((textBelow inner last closing).map Stripped.text) s.text u.text)
        (textBelow inner last closing) rest) :
      Unmarks (first :: (inner ++ [last])) ⟨(⟨first, opening⟩ : Stripped).unlessBlank, rest⟩

variable {t u : Text}

/-! ### Where a mark stands -/

/-- What begins with a character that is not blank is what is left behind the blanks in front. -/
theorem trimLeft_mark {front : Text} {c : Char} (hfront : Text.allBlank front = true)
    (hc : Text.isBlank c = false) (u : Text) : Text.trimLeft (front ++ c :: u) = c :: u :=
  Text.trimLeft_append_of_flush hfront (Text.flush_cons.mpr hc)

theorem isLineDoc_of_trimLeft (h : Text.trimLeft t = lineMarker ++ u) :
    isLineDoc t = true ↔ u.head? ≠ some '/' := by
  unfold isLineDoc
  rw [h]
  cases u with
  | nil => simp [lineMarker, List.isPrefixOf]
  | cons c u => simp [lineMarker, List.isPrefixOf, @eq_comm _ '/' c]

theorem behindMarker_iff :
    BehindMarker t u ↔ isLineDoc t = true ∧ Text.trimLeft t = lineMarker ++ u := by
  constructor
  · intro h
    cases h with
    | intro hfront hruler =>
        have htrim := trimLeft_mark hfront (show Text.isBlank '/' = false by decide) ('/' :: '/' :: u)
        exact ⟨(isLineDoc_of_trimLeft htrim).mpr hruler, htrim⟩
  · rintro ⟨hdoc, htrim⟩
    obtain ⟨front, ht, hfront⟩ := Text.exists_flush t
    rw [ht, htrim]
    exact .intro hfront ((isLineDoc_of_trimLeft htrim).mp hdoc)

theorem isLineDoc_iff : isLineDoc t = true ↔ ∃ u, BehindMarker t u := by
  constructor
  · intro h
    have hmark := h
    unfold isLineDoc at hmark
    rw [Bool.and_eq_true] at hmark
    obtain ⟨u, hu⟩ := List.isPrefixOf_iff_prefix.mp hmark.1
    exact ⟨u, behindMarker_iff.mpr ⟨h, hu.symm⟩⟩
  · rintro ⟨u, hu⟩
    exact (behindMarker_iff.mp hu).1

theorem behindOpening_iff : BehindOpening t u ↔ Text.trimLeft t = blockOpen ++ u := by
  constructor
  · intro h
    cases h with
    | intro hfront =>
        exact trimLeft_mark hfront (show Text.isBlank '/' = false by decide) ('*' :: '*' :: u)
  · intro h
    obtain ⟨front, ht, hfront⟩ := Text.exists_flush t
    rw [ht, h]
    exact .intro hfront

theorem blockOpen_prefix_iff :
    blockOpen.isPrefixOf (Text.trimLeft t) = true ↔ ∃ u, BehindOpening t u := by
  simp only [behindOpening_iff, List.isPrefixOf_iff_prefix]
  constructor
  · rintro ⟨u, hu⟩
    exact ⟨u, hu.symm⟩
  · rintro ⟨u, hu⟩
    exact ⟨u, hu.symm⟩

theorem trimRight_blockClose (t : Text) : Text.trimRight (t ++ blockClose) = t ++ blockClose := by
  have hright := Text.trimRight_append_of_not (t ++ ['*']) []
    (show Text.isBlank '/' = false by decide)
  have hnil : Text.trimRight [] = [] := rfl
  rw [hnil, List.append_assoc] at hright
  exact hright

theorem beforeClosing_iff : BeforeClosing t u ↔ Text.trimRight t = u ++ blockClose := by
  constructor
  · intro h
    cases h with
    | intro hback => rw [Text.trimRight_append_of_allBlank _ hback, trimRight_blockClose]
  · intro h
    obtain ⟨back, ht, hback⟩ := Text.exists_trimRight_append t
    rw [ht, h]
    exact .intro hback

theorem blockClose_suffix_iff :
    blockClose.isSuffixOf (Text.trimRight t) = true ↔ ∃ u, BeforeClosing t u := by
  simp only [beforeClosing_iff, List.isSuffixOf_iff_suffix]
  constructor
  · rintro ⟨u, hu⟩
    exact ⟨u, hu.symm⟩
  · rintro ⟨u, hu⟩
    exact ⟨u, hu.symm⟩

theorem isLineDoc_of_blockOpen (h : blockOpen.isPrefixOf (Text.trimLeft t) = true) :
    isLineDoc t = false := by
  obtain ⟨r, hr⟩ := List.isPrefixOf_iff_prefix.mp h
  unfold isLineDoc
  rw [← hr]
  rfl

/-! ### Gutters -/

theorem beginsWithStar_iff : BeginsWithStar t ↔
    ['*'].isPrefixOf (Text.trimLeft t) = true ∧ blockClose.isPrefixOf (Text.trimLeft t) = false := by
  constructor
  · rintro ⟨front, rest, rfl, hfront, hclose⟩
    rw [trimLeft_mark hfront (by decide)]
    refine ⟨rfl, ?_⟩
    rw [← Bool.not_eq_true, List.isPrefixOf_iff_prefix]
    rintro ⟨more, hmore⟩
    have hrest : rest = '/' :: more := by simpa [blockClose, eq_comm] using hmore
    exact hclose (by rw [hrest]; rfl)
  · rintro ⟨hstar, hclose⟩
    obtain ⟨front, ht, hfront⟩ := Text.exists_flush t
    obtain ⟨rest, hrest⟩ := List.isPrefixOf_iff_prefix.mp hstar
    rw [← hrest] at ht hclose
    refine ⟨front, rest, ht, hfront, ?_⟩
    intro hhead
    obtain ⟨more, rfl⟩ := List.head?_eq_some_iff.mp hhead
    simp [blockClose, List.isPrefixOf] at hclose

theorem hasGutter_iff {lines : List Stripped} : hasGutter lines = true ↔
    (∃ s ∈ lines, Text.allBlank s.text = false) ∧ Starred (lines.map Stripped.text) := by
  unfold hasGutter
  simp only [Bool.and_eq_true, Bool.not_eq_true', List.isEmpty_eq_false_iff, List.all_eq_true]
  refine and_congr ?_ ?_
  · simp [List.filter_eq_nil_iff]
  · unfold Starred
    simp only [List.mem_map, List.mem_filter, Bool.not_eq_true', beginsWithStar_iff]
    constructor
    · rintro h _ ⟨s, hs, rfl⟩ hblank
      exact h _ ⟨s, ⟨hs, hblank⟩, rfl⟩
    · rintro h _ ⟨s, ⟨hs, hblank⟩, rfl⟩
      exact h _ ⟨s, hs, rfl⟩ hblank

/-- A blank line does not count. -/
theorem hasGutter_concat (lines : List Stripped) (s : Stripped) :
    hasGutter (lines ++ [s]) = hasGutter (lines ++ s.unlessBlank.toList) := by
  unfold Stripped.unlessBlank
  cases hblank : Text.allBlank s.text with
  | false => simp
  | true => simp [hasGutter, hblank]

theorem dropStar_of_star {s : Stripped} (h : Text.trimLeft s.text = '*' :: u) :
    dropStar s = ⟨s.line, u⟩ := by
  unfold dropStar
  rw [h]
  rfl

theorem dropStar_of_blank {s : Stripped} (h : Text.allBlank s.text = true) : dropStar s = s := by
  unfold dropStar
  rw [Text.trimLeft_eq_nil_iff.mpr h]

/-- One of the lines below an opening, as it is read. -/
def readBelow (lines : List Stripped) (s : Stripped) : Stripped :=
  if hasGutter lines then dropStar s else s

theorem line_readBelow (lines : List Stripped) (s : Stripped) :
    (readBelow lines s).line = s.line := by
  unfold readBelow dropStar
  split
  · split
    · rfl
    · rfl
  · rfl

/-- Where there is a gutter a line has lost its star, and where there is none it has lost nothing. -/
theorem behindGutter_readBelow {lines : List Stripped} {s : Stripped} (hs : s ∈ lines) :
    BehindGutter (lines.map Stripped.text) s.text (readBelow lines s).text := by
  unfold readBelow
  by_cases hall : Starred (lines.map Stripped.text)
  · cases hblank : Text.allBlank s.text with
    | true =>
        rw [dropStar_of_blank hblank, ite_self]
        exact .blank hall hblank
    | false =>
        obtain ⟨front, rest, htext, hfront, -⟩ := hall s.text (List.mem_map_of_mem hs) hblank
        have htrim : Text.trimLeft s.text = '*' :: rest := by
          rw [htext, trimLeft_mark hfront (by decide)]
        rw [if_pos (hasGutter_iff.mpr ⟨⟨s, hs, hblank⟩, hall⟩), dropStar_of_star htrim, htext]
        exact .star hall hfront
  · rw [if_neg fun hgutter => hall (hasGutter_iff.mp hgutter).2]
    exact .plain hall

/-- Nothing else is left of a line behind the gutter. -/
theorem BehindGutter.eq {lines : List Stripped} {s : Stripped} (hs : s ∈ lines)
    (h : BehindGutter (lines.map Stripped.text) s.text u) : u = (readBelow lines s).text := by
  unfold readBelow
  obtain ⟨l, t⟩ := s
  cases h with
  | @star front text hall hfront =>
      have hgutter : hasGutter lines = true := by
        refine hasGutter_iff.mpr ⟨⟨_, hs, ?_⟩, hall⟩
        exact Text.allBlank_eq_false_of_mem (by simp) (show Text.isBlank '*' = false by decide)
      rw [if_pos hgutter, dropStar_of_star (trimLeft_mark hfront (by decide) u)]
  | blank hall hblank => rw [dropStar_of_blank hblank, ite_self]
  | plain hnot => rw [if_neg fun hgutter => hnot (hasGutter_iff.mp hgutter).2]

/-- The lines below an opening, as they are read, are what is left of them behind the gutter. -/
theorem forall₂_behindGutter_iff {lines rest : List Stripped} :
    List.Forall₂ (fun s u => u.line = s.line ∧
      BehindGutter (lines.map Stripped.text) s.text u.text) lines rest ↔
      rest = lines.map (readBelow lines) := by
  refine forall₂_iff_eq_map ?_
  intro s hs u
  constructor
  · rintro ⟨hline, htext⟩
    obtain ⟨l, t⟩ := u
    obtain rfl : l = s.line := hline
    obtain rfl := htext.eq hs
    rw [← line_readBelow lines s]
  · rintro rfl
    exact ⟨line_readBelow lines s, behindGutter_readBelow hs⟩

/-! ### Lines without their marks -/

theorem stripLineMarker_eq_ok_iff {range : ByteRange} {l : Line} {s : Stripped} :
    stripLineMarker range l = .ok s ↔ s.line = l ∧ BehindMarker l.content s.text := by
  have hdoc : isLineDoc (Text.trimLeft l.content) = isLineDoc l.content := by
    unfold isLineDoc
    rw [(Text.flush_trimLeft _).trimLeft_eq]
  unfold stripLineMarker
  simp only
  rw [hdoc]
  constructor
  · intro h
    split at h
    · rename_i hline
      obtain ⟨text, htext⟩ := isLineDoc_iff.mp hline
      rw [(behindMarker_iff.mp htext).2, List.drop_left] at h
      obtain rfl := Except.ok.inj h
      exact ⟨rfl, htext⟩
    · simp at h
  · rintro ⟨rfl, htext⟩
    obtain ⟨hline, htrim⟩ := behindMarker_iff.mp htext
    rw [if_pos hline, htrim, List.drop_left]

theorem lineBody_eq_ok_iff {range : ByteRange} {lines : List Line} {b : Body} :
    lineBody range lines = .ok b ↔ ∃ rest, b = ⟨none, rest⟩ ∧
      List.Forall₂ (fun l s => s.line = l ∧ BehindMarker l.content s.text) lines rest := by
  simp only [← @stripLineMarker_eq_ok_iff range, ← mapM_eq_ok_iff]
  unfold lineBody
  cases lines.mapM (stripLineMarker range) with
  | error e => simp [Except.map]
  | ok stripped => simp [Except.map, eq_comm]

/-- The closing is taken off a text that ends with it, and off no other. -/
theorem closeLast?_concat_iff {lines closed : List Stripped} {s : Stripped} :
    closeLast? (lines ++ [s]) = some closed ↔
      ∃ text, BeforeClosing s.text text ∧ closed = lines ++ [⟨s.line, text⟩] := by
  induction lines generalizing closed with
  | nil =>
      rw [List.nil_append, closeLast?]
      constructor
      · intro h
        split at h
        · rename_i hclose
          obtain ⟨text, htext⟩ := blockClose_suffix_iff.mp hclose
          rw [beforeClosing_iff.mp htext, List.length_append, Nat.add_sub_cancel, List.take_left] at h
          exact ⟨text, htext, (Option.some.inj h).symm⟩
        · simp at h
      · rintro ⟨text, hclose, rfl⟩
        rw [if_pos (blockClose_suffix_iff.mpr ⟨text, hclose⟩), beforeClosing_iff.mp hclose,
          List.length_append, Nat.add_sub_cancel, List.take_left, List.nil_append]
  | cons x more ih =>
      have hcons : closeLast? (x :: (more ++ [s])) = (closeLast? (more ++ [s])).map (x :: ·) := by
        obtain ⟨y, rest, hmore⟩ := List.exists_cons_of_ne_nil (l := more ++ [s]) (by simp)
        rw [hmore, closeLast?]
        simp
      rw [List.cons_append, hcons, Option.map_eq_some_iff]
      constructor
      · rintro ⟨_, h, rfl⟩
        obtain ⟨text, hclose, rfl⟩ := ih.mp h
        exact ⟨text, hclose, rfl⟩
      · rintro ⟨text, hclose, rfl⟩
        exact ⟨_, ih.mpr ⟨text, hclose, rfl⟩, rfl⟩

theorem dropBlankLast_concat (lines : List Stripped) (s : Stripped) :
    dropBlankLast (lines ++ [s]) = lines ++ s.unlessBlank.toList := by
  induction lines with
  | nil =>
      rw [List.nil_append, dropBlankLast, Stripped.unlessBlank]
      split
      · rfl
      · rfl
  | cons x more ih =>
      obtain ⟨y, rest, hmore⟩ := List.exists_cons_of_ne_nil (l := more ++ [s]) (by simp)
      rw [hmore] at ih
      rw [List.cons_append, hmore, dropBlankLast, ih, List.cons_append]
      simp

/-! ### Blocks -/

theorem map_readBelow (lines : List Stripped) :
    lines.map (readBelow lines) = if hasGutter lines then lines.map dropStar else lines := by
  unfold readBelow
  split
  · rfl
  · exact List.map_id _

/-- A block of several lines is read behind its gutter, if it has one. -/
theorem blockBody?_of_closeLast? {head : Line} {more : List Line} {first last : Stripped}
    {inner : List Stripped}
    (h : closeLast? (⟨head, (Text.trimLeft head.content).drop blockOpen.length⟩
      :: more.map fun l => ⟨l, l.content⟩) = some (first :: (inner ++ [last]))) :
    blockBody? head more = some ⟨first.unlessBlank,
      (inner ++ last.unlessBlank.toList).map (readBelow (inner ++ last.unlessBlank.toList))⟩ := by
  -- Behind the opening there is a line, so the comment is not read as one of a single line.
  obtain ⟨second, rest, hrest⟩ := List.exists_cons_of_ne_nil (l := inner ++ [last]) (by simp)
  unfold blockBody?
  simp only [Option.bind_eq_bind]
  rw [h, Option.bind_some, hrest]
  simp only
  rw [← hrest, hasGutter_concat, dropBlankLast_concat, map_readBelow]
  rfl

theorem blockBody?_nil_iff {l : Line} {behind : Text} {b : Body}
    (hopen : BehindOpening l.content behind) :
    blockBody? l [] = some b ↔ ∃ text, BeforeClosing behind text ∧ b = ⟨some ⟨l, text⟩, []⟩ := by
  unfold blockBody?
  rw [behindOpening_iff.mp hopen, List.drop_left]
  simp only [Option.bind_eq_bind, Option.bind_eq_some_iff, List.map_nil]
  rw [← List.nil_append [(⟨l, behind⟩ : Stripped)]]
  simp only [closeLast?_concat_iff]
  constructor
  · rintro ⟨_, ⟨text, hclose, rfl⟩, h⟩
    exact ⟨text, hclose, (Option.some.inj h).symm⟩
  · rintro ⟨text, hclose, rfl⟩
    exact ⟨_, ⟨text, hclose, rfl⟩, rfl⟩

theorem blockBody?_concat_iff {first last : Line} {inner : List Line} {opening : Text} {b : Body}
    (hopen : BehindOpening first.content opening) :
    blockBody? first (inner ++ [last]) = some b ↔ ∃ closing, BeforeClosing last.content closing ∧
      b = ⟨(⟨first, opening⟩ : Stripped).unlessBlank,
        (textBelow inner last closing).map (readBelow (textBelow inner last closing))⟩ := by
  have hclosed : ∀ closed, closeLast? (⟨first, (Text.trimLeft first.content).drop blockOpen.length⟩
      :: (inner ++ [last]).map fun l => ⟨l, l.content⟩) = some closed ↔
      ∃ closing, BeforeClosing last.content closing ∧
        closed = ⟨first, opening⟩ :: (inner.map (fun l => ⟨l, l.content⟩) ++ [⟨last, closing⟩]) := by
    intro closed
    rw [behindOpening_iff.mp hopen, List.drop_left, List.map_append, ← List.cons_append]
    exact closeLast?_concat_iff
  constructor
  · intro h
    have hbody := h
    unfold blockBody? at hbody
    simp only [Option.bind_eq_bind, Option.bind_eq_some_iff] at hbody
    obtain ⟨closed, hclose, -⟩ := hbody
    obtain ⟨closing, hclosing, rfl⟩ := (hclosed closed).mp hclose
    rw [blockBody?_of_closeLast? hclose] at h
    exact ⟨closing, hclosing, (Option.some.inj h).symm⟩
  · rintro ⟨closing, hclosing, rfl⟩
    exact blockBody?_of_closeLast? ((hclosed _).mpr ⟨closing, hclosing, rfl⟩)

/-- A block is read if its last line closes it. -/
theorem blockBody?_unmarks {head : Line} {more : List Line} {opening : Text} {b : Body}
    (hopen : BehindOpening head.content opening) (h : blockBody? head more = some b) :
    Unmarks (head :: more) b := by
  rcases List.eq_nil_or_concat more with rfl | ⟨inner, last, rfl⟩
  · obtain ⟨text, hclose, rfl⟩ := (blockBody?_nil_iff hopen).mp h
    exact .single hopen hclose
  · rw [List.concat_eq_append] at h ⊢
    obtain ⟨closing, hclose, rfl⟩ := (blockBody?_concat_iff hopen).mp h
    exact .block hopen hclose (forall₂_behindGutter_iff.mpr rfl)

theorem bodyOf_of_behindOpening {head : Line} {more : List Line} {opening : Text} {b : Body}
    (hopen : BehindOpening head.content opening) (h : blockBody? head more = some b)
    (range : ByteRange) : bodyOf range head more = .ok b := by
  have hmark := blockOpen_prefix_iff.mpr ⟨opening, hopen⟩
  unfold bodyOf
  rw [if_neg (by simp [isLineDoc_of_blockOpen hmark]), if_pos hmark, h]

/-- **Slicing starts from what is left of the lines without the marks**, and lines of which the marks
leave nothing are refused. -/
theorem bodyOf_eq_ok_iff {range : ByteRange} {head : Line} {more : List Line} {b : Body} :
    bodyOf range head more = .ok b ↔ Unmarks (head :: more) b := by
  constructor
  · intro h
    unfold bodyOf at h
    split at h
    · obtain ⟨rest, rfl, hrest⟩ := lineBody_eq_ok_iff.mp h
      exact .lines hrest
    split at h
    · rename_i hmark
      obtain ⟨opening, hopening⟩ := blockOpen_prefix_iff.mp hmark
      split at h
      · rename_i body hbody
        obtain rfl := Except.ok.inj h
        exact blockBody?_unmarks hopening hbody
      · simp at h
    · simp at h
  · intro h
    generalize hlines : head :: more = lines at h
    cases h with
    | lines hrest =>
        subst hlines
        obtain ⟨s, -, ⟨-, hs⟩, -, -⟩ := List.forall₂_cons_left_iff.mp hrest
        rw [bodyOf, if_pos (isLineDoc_iff.mpr ⟨_, hs⟩)]
        exact lineBody_eq_ok_iff.mpr ⟨_, rfl, hrest⟩
    | single hopen hclose =>
        obtain ⟨rfl, rfl⟩ := List.cons.inj hlines
        exact bodyOf_of_behindOpening hopen ((blockBody?_nil_iff hopen).mpr ⟨_, hclose, rfl⟩) range
    | block hopen hclose hrest =>
        obtain ⟨rfl, rfl⟩ := List.cons.inj hlines
        obtain rfl := forall₂_behindGutter_iff.mp hrest
        exact bodyOf_of_behindOpening hopen
          ((blockBody?_concat_iff hopen).mpr ⟨_, hclose, rfl⟩) range

/-- The marks leave one text. -/
theorem Unmarks.unique {head : Line} {more : List Line} {b c : Body} (hb : Unmarks (head :: more) b)
    (hc : Unmarks (head :: more) c) : b = c := by
  have hbody := (@bodyOf_eq_ok_iff ⟨0, 0⟩ _ _ _).mpr hb
  rw [bodyOf_eq_ok_iff.mpr hc] at hbody
  exact (Except.ok.inj hbody).symm

end DocLint.Doc
