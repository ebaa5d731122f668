/-
How a clause is cut, and which names are read off the pieces.

The split walks over a clause once and knows three things at each character.  `after` is
what it knows behind a text, and `Reads` says that a text leads from one knowledge to
another without being cut.  A type whose brackets nest is read that way whatever stands
around it (`Nested.reads`): generics count as brackets and arrows do not.  A default value
is read in another mode, where angle brackets compare.  Only its round and square brackets
count there, so one that balances them is left outside all brackets, and the next comma
parts again.

What follows is the meaning of a whole clause (`parameterNames_clauseOf`): every parameter
gives the last word before its colon, and behind it whatever is read off the pieces of its
default value, because that is cut at its commas outside round and square brackets too.
-/
import Mathlib.Data.List.Infix
import DocLint.Proofs.Text.Identifier
import DocLint.Swift.Head
import DocLint.Swift.Parameters

namespace DocLint

/-! ### Balanced brackets -/

/-- Brackets of one family are balanced: each that closes was opened, and all are closed. -/
structure Text.Balanced (opens closes : Char → Bool) (t : Text) : Prop where
  closed_le : ∀ front, front <+: t → front.countP closes ≤ front.countP opens
  total : t.countP closes = t.countP opens

instance (opens closes : Char → Bool) (t : Text) : Decidable (t.Balanced opens closes) :=
  decidable_of_iff
    ((∀ front ∈ t.inits, front.countP closes ≤ front.countP opens) ∧
      t.countP closes = t.countP opens)
    ⟨fun h => ⟨fun front hf => h.1 front ((List.mem_inits front t).mpr hf), h.2⟩,
      fun h => ⟨fun front hf => h.closed_le front ((List.mem_inits front t).mp hf), h.total⟩⟩

namespace Text

variable {opens closes : Char → Bool} {s t : Text}

theorem balanced_nil : Balanced opens closes [] := by
  refine ⟨?_, rfl⟩
  intro front hfront
  rw [List.prefix_nil.mp hfront]
  exact Nat.le_refl _

theorem balanced_of_none (h : ∀ c ∈ t, opens c = false ∧ closes c = false) :
    Balanced opens closes t := by
  have hnone : ∀ front, front <+: t → front.countP closes = 0 := by
    intro front hfront
    refine List.countP_eq_zero.mpr ?_
    intro c hc
    simp [(h c (hfront.subset hc)).2]
  refine ⟨?_, ?_⟩
  · intro front hfront
    rw [hnone front hfront]
    exact Nat.zero_le _
  · rw [hnone t (List.prefix_refl t), eq_comm, List.countP_eq_zero]
    intro c hc
    simp [(h c hc).1]

/-- A beginning of two texts in a row ends in the first or in the second. -/
theorem prefix_append_cases {front : Text} (h : front <+: s ++ t) :
    front <+: s ∨ ∃ more, more <+: t ∧ front = s ++ more := by
  rcases List.prefix_or_prefix_of_prefix h (List.prefix_append s t) with hs | ⟨more, rfl⟩
  · exact Or.inl hs
  · exact Or.inr ⟨more, (List.prefix_append_right_inj s).mp h, rfl⟩

theorem Balanced.append (hs : Balanced opens closes s) (ht : Balanced opens closes t) :
    Balanced opens closes (s ++ t) := by
  refine ⟨?_, ?_⟩
  · intro front hfront
    rcases prefix_append_cases hfront with hfront | ⟨more, hmore, rfl⟩
    · exact hs.closed_le front hfront
    · have hle := ht.closed_le more hmore
      have htotal := hs.total
      rw [List.countP_append, List.countP_append]
      omega
  · rw [List.countP_append, List.countP_append, hs.total, ht.total]

/-- A pair of brackets around a balanced text. -/
theorem Balanced.wrap {o c : Char} (hs : Balanced opens closes s)
    (ho : opens o = true ∧ closes o = false) (hc : opens c = false ∧ closes c = true) :
    Balanced opens closes (o :: (s ++ [c])) := by
  refine ⟨?_, ?_⟩
  · intro front hfront
    rcases List.prefix_cons_iff.mp hfront with rfl | ⟨more, rfl, hmore⟩
    · exact Nat.le_refl _
    · rcases prefix_append_cases hmore with hmore | ⟨last, hlast, rfl⟩
      · have hle := hs.closed_le more hmore
        simp [ho]
        omega
      · have htotal := hs.total
        have hlen : last.countP closes ≤ 1 := List.countP_le_length.trans hlast.length_le
        simp [ho]
        omega
  · have htotal := hs.total
    simp [ho, hc]
    omega

/-- Two families without a bracket in common, taken as one. -/
theorem Balanced.or {opens' closes' : Char → Bool} (h : Balanced opens closes t)
    (h' : Balanced opens' closes' t) (hopens : ∀ c, opens c = true → opens' c = false)
    (hcloses : ∀ c, closes c = true → closes' c = false) :
    Balanced (fun c => opens c || opens' c) (fun c => closes c || closes' c) t := by
  have hsum : ∀ p q : Char → Bool, (∀ c, p c = true → q c = false) → ∀ u : Text,
      u.countP (fun c => p c || q c) = u.countP p + u.countP q := by
    intro p q hpq u
    induction u with
    | nil => rfl
    | cons c u ih =>
        rw [List.countP_cons, List.countP_cons, List.countP_cons, ih]
        cases hp : p c with
        | false => simp; omega
        | true => simp [hpq c hp]; omega
  refine ⟨?_, ?_⟩
  · intro front hfront
    have hle := h.closed_le front hfront
    have hle' := h'.closed_le front hfront
    rw [hsum _ _ hopens, hsum _ _ hcloses]
    omega
  · rw [hsum _ _ hopens, hsum _ _ hcloses, h.total, h'.total]

end Text

namespace Swift

/-- Round and square brackets are one family to the readers of a clause. -/
def opensBracket (c : Char) : Bool := c == '(' || c == '['

def closesBracket (c : Char) : Bool := c == ')' || c == ']'

/-- How many more brackets are opened than closed. -/
def bracketSurplus (t : Text) : Int := t.countP opensBracket - t.countP closesBracket

theorem bracketSurplus_append (s t : Text) :
    bracketSurplus (s ++ t) = bracketSurplus s + bracketSurplus t := by
  unfold bracketSurplus
  rw [List.countP_append, List.countP_append]
  omega

theorem surplus_eq_zero {t : Text} (h : t.Balanced opensBracket closesBracket) :
    bracketSurplus t = 0 := by
  unfold bracketSurplus
  rw [h.total]
  omega

/-- A clause ends at the bracket that closes the one before it. -/
theorem clause?_append_of_open {s : Text} {depth : Nat}
    (hle : ∀ front, front <+: s → front.countP closesBracket ≤ front.countP opensBracket + depth)
    (htotal : s.countP closesBracket = s.countP opensBracket + depth) (t : Text) :
    clause? depth (s ++ ')' :: t) = some s := by
  induction s generalizing depth with
  | nil =>
      obtain rfl : 0 = depth := by simpa using htotal
      rfl
  | cons c s ih =>
      have hback : ∀ front, front <+: s →
          front.countP closesBracket + [c].countP closesBracket ≤
            front.countP opensBracket + [c].countP opensBracket + depth := by
        intro front hfront
        have hfront' := hle (c :: front) ((List.prefix_cons_inj c).mpr hfront)
        rw [← List.singleton_append, List.countP_append, List.countP_append] at hfront'
        omega
      rw [← List.singleton_append, List.countP_append, List.countP_append] at htotal
      have hrest : ∀ depth', depth' + [c].countP closesBracket = depth + [c].countP opensBracket →
          clause? depth' (s ++ ')' :: t) = some s := by
        intro depth' hdepth
        refine ih ?_ (by omega)
        intro front hfront
        have hfront' := hback front hfront
        omega
      rw [List.cons_append, clause?.eq_def]
      simp only
      by_cases hopen : c = '(' ∨ c = '['
      · have hone : [c].countP opensBracket = 1 ∧ [c].countP closesBracket = 0 := by
          rcases hopen with rfl | rfl
          · exact ⟨rfl, rfl⟩
          · exact ⟨rfl, rfl⟩
        rw [if_pos hopen, hrest (depth + 1) (by omega)]
        rfl
      by_cases hclose : c = ')' ∨ c = ']'
      · have hone : [c].countP opensBracket = 0 ∧ [c].countP closesBracket = 1 := by
          rcases hclose with rfl | rfl
          · exact ⟨rfl, rfl⟩
          · exact ⟨rfl, rfl⟩
        -- The bracket closes one that stands open, for there are not more that close in any front.
        have hdepth := hback [] List.nil_prefix
        obtain ⟨outer, rfl⟩ : ∃ outer, depth = outer + 1 := by
          refine ⟨depth - 1, ?_⟩
          simp only [List.countP_nil, hone] at hdepth
          omega
        rw [if_neg hopen, if_pos hclose]
        show (clause? outer (s ++ ')' :: t)).map (c :: ·) = _
        rw [hrest outer (by omega)]
        rfl
      · have hone : [c].countP opensBracket = 0 ∧ [c].countP closesBracket = 0 := by
          simp only [not_or] at hopen hclose
          simp [opensBracket, closesBracket, hopen, hclose]
        rw [if_neg hopen, if_neg hclose, hrest depth (by omega)]
        rfl

/-- **A clause with balanced brackets ends at the parenthesis behind it.** -/
theorem clause?_append {s : Text} (h : s.Balanced opensBracket closesBracket) (t : Text) :
    clause? 0 (s ++ ')' :: t) = some s :=
  clause?_append_of_open h.closed_le h.total t

/-- Every comma stands in round or square brackets. -/
def CommasInside (t : Text) : Prop :=
  ∀ front back, t = front ++ ',' :: back → 0 < bracketSurplus front

instance (t : Text) : Decidable (CommasInside t) :=
  decidable_of_iff
    (∀ front ∈ t.inits, t[front.length]? = some ',' → 0 < bracketSurplus front) <| by
    constructor
    · rintro h front back rfl
      exact h front ((List.mem_inits front _).mpr (List.prefix_append front _)) (by simp)
    · intro h front hfront hcomma
      obtain ⟨more, rfl⟩ := (List.mem_inits front t).mp hfront
      rw [List.getElem?_append_right (Nat.le_refl _), Nat.sub_self] at hcomma
      cases more with
      | nil => simp at hcomma
      | cons c more =>
          obtain rfl : c = ',' := by simpa using hcomma
          exact h front more rfl

theorem commasInside_of_not_mem {t : Text} (h : ',' ∉ t) : CommasInside t := by
  rintro front back rfl
  exact absurd (by simp) h

theorem CommasInside.append {s t : Text} (hs : CommasInside s) (ht : CommasInside t)
    (hbalanced : s.Balanced opensBracket closesBracket) : CommasInside (s ++ t) := by
  intro front back hsplit
  rcases List.append_eq_append_iff.mp hsplit with ⟨more, rfl, hback⟩ | ⟨more, hfront, hback⟩
  · have hinside := ht more back hback
    rw [bracketSurplus_append, surplus_eq_zero hbalanced]
    omega
  · cases more with
    | nil =>
        have hinside := ht [] back hback.symm
        rw [List.append_nil] at hfront
        rw [← hfront, surplus_eq_zero hbalanced]
        exact hinside
    | cons c more =>
        obtain ⟨rfl, -⟩ := List.cons.inj hback
        exact hs front more hfront

/-! ### Reading without a cut -/

namespace ClauseState

/-- What the split knows behind a character.  A comma that parts ends a default value. -/
def next (s : ClauseState) (c : Char) : ClauseState :=
  if s.parts c then { s.step c with inDefault := false } else s.step c

/-- What it knows behind a text. -/
def after (s : ClauseState) (t : Text) : ClauseState := t.foldl next s

/-- The text leads from one knowledge to the other, and is not cut. -/
inductive Reads : ClauseState → Text → ClauseState → Prop
  | nil (s : ClauseState) : Reads s [] s
  | cons {s s' : ClauseState} {c : Char} {r : Text} (hc : s.parts c = false)
      (hr : Reads (s.step c) r s') : Reads s (c :: r) s'

theorem next_of_not_parts {s : ClauseState} {c : Char} (h : s.parts c = false) :
    s.next c = s.step c := by
  rw [next, h]
  rfl

theorem after_append (s : ClauseState) (t u : Text) : s.after (t ++ u) = (s.after t).after u :=
  List.foldl_append

variable {s s' s'' : ClauseState} {t u : Text}

theorem Reads.after_eq (h : Reads s t s') : s.after t = s' := by
  induction h with
  | nil s => rfl
  | @cons s s' c r hc _ ih =>
      rw [after, List.foldl_cons, next_of_not_parts hc]
      exact ih

theorem Reads.append (h : Reads s t s') (h' : Reads s' u s'') : Reads s (t ++ u) s'' := by
  induction h with
  | nil s => exact h'
  | cons hc _ ih => exact Reads.cons hc (ih h')

end ClauseState

open ClauseState

variable {s s' : ClauseState} {t : Text}

theorem pieces_cons (s : ClauseState) (c : Char) (r : Text) :
    pieces s (c :: r) = if s.parts c then [] :: pieces (s.next c) r
      else match pieces (s.next c) r with
        | [] => [[c]]
        | piece :: more => (c :: piece) :: more := by
  rw [pieces]
  unfold ClauseState.next
  split
  · rfl
  · rfl

theorem exists_pieces (s : ClauseState) (t : Text) : ∃ piece more, pieces s t = piece :: more := by
  cases t with
  | nil => exact ⟨[], [], rfl⟩
  | cons c r =>
      rw [pieces_cons]
      split
      · exact ⟨[], _, rfl⟩
      · split
        · exact ⟨[c], [], rfl⟩
        · exact ⟨_, _, rfl⟩

/-- What is read without a cut belongs to the first piece. -/
theorem pieces_append_of_reads {piece : Text} {more : List Text} {r : Text} (h : Reads s t s')
    (hr : pieces s' r = piece :: more) : pieces s (t ++ r) = (t ++ piece) :: more := by
  induction h with
  | nil s => exact hr
  | @cons s s' c u hc _ ih =>
      rw [List.cons_append, pieces_cons, if_neg (by simp [hc]), next_of_not_parts hc, ih hr]
      rfl

theorem pieces_of_reads (h : Reads s t s') : pieces s t = [t] := by
  have hnil := pieces_append_of_reads h (r := []) rfl
  rwa [List.append_nil] at hnil

/-- Outside all brackets a comma parts what stands before it from what stands behind. -/
theorem pieces_append_comma (h : (s.after t).depth = 0) (r : Text) :
    pieces s (t ++ ',' :: r) = pieces s t ++ pieces ⟨0, false, some ','⟩ r := by
  induction t generalizing s with
  | nil =>
      have hdepth : s.depth = 0 := h
      have hparts : s.parts ',' = true := by simp [parts, hdepth]
      have hnext : s.next ',' = ⟨0, false, some ','⟩ := by simp [next, hparts, step, hdepth]
      rw [List.nil_append, pieces_cons, if_pos hparts, hnext]
      rfl
  | cons c t ih =>
      have hback := ih (s := s.next c) h
      obtain ⟨piece, more, hpieces⟩ := exists_pieces (s.next c) t
      rw [List.cons_append, pieces_cons, pieces_cons, hback, hpieces]
      split
      · rfl
      · rfl

/-- Where no bracket is open, the character before does not matter. -/
theorem pieces_outside (q q' : Option Char) (t : Text) :
    pieces ⟨0, false, q⟩ t = pieces ⟨0, false, q'⟩ t := by
  cases t with
  | nil => rfl
  | cons c r =>
      have hstep : step ⟨0, false, q⟩ c = step ⟨0, false, q'⟩ c := by simp [step]
      rw [pieces, pieces, hstep]
      rfl

/-! ### Types -/

/-- The character means nothing to the split and begins no arrow. -/
def isTypeChar (c : Char) : Bool :=
  !(opensBracket c || closesBracket c || c == '<' || c == '>' || c == '=' || c == ',' || c == '-')

/-- The brackets of the text nest, those of generics included, and arrows are none.  Commas and
equals signs stand inside brackets; `inside` says that the text itself does. -/
inductive Nested : Bool → Text → Prop
  | nil (inside : Bool) : Nested inside []
  | char {inside : Bool} {c : Char} {r : Text} (hc : isTypeChar c = true) (hr : Nested inside r) :
      Nested inside (c :: r)
  | comma {r : Text} (hr : Nested true r) : Nested true (',' :: r)
  | equals {r : Text} (hr : Nested true r) : Nested true ('=' :: r)
  | arrow {inside : Bool} {r : Text} (hr : Nested inside r) : Nested inside ('-' :: '>' :: r)
  | group {inside : Bool} {o c : Char} {inner r : Text}
      (hpair : (o, c) ∈ [('(', ')'), ('[', ']'), ('<', '>')]) (hinner : Nested true inner)
      (hr : Nested inside r) : Nested inside (o :: (inner ++ c :: r))

theorem Nested.append {inside : Bool} {s t : Text} (hs : Nested inside s) (ht : Nested inside t) :
    Nested inside (s ++ t) := by
  induction hs with
  | nil inside => exact ht
  | char hc _ ih => exact Nested.char hc (ih ht)
  | comma _ ih => exact Nested.comma (ih ht)
  | equals _ ih => exact Nested.equals (ih ht)
  | arrow _ ih => exact Nested.arrow (ih ht)
  | @group inside o c inner r hpair hinner _ _ ih =>
      rw [List.cons_append, List.append_assoc, List.cons_append]
      exact Nested.group hpair hinner (ih ht)

theorem nested_of_isTypeChar {inside : Bool} {t : Text} (h : ∀ c ∈ t, isTypeChar c = true) :
    Nested inside t := by
  induction t with
  | nil => exact Nested.nil inside
  | cons c t ih => exact Nested.char (h c (by simp)) (ih fun x hx => h x (by simp [hx]))

/-- What may stand outside brackets may stand inside. -/
theorem Nested.of_outside {t : Text} (h : Nested false t) : Nested true t := by
  generalize hinside : false = inside at h
  induction h with
  | nil inside => exact Nested.nil true
  | char hc _ ih => exact Nested.char hc (ih hinside)
  | comma _ ih => exact absurd hinside (by simp)
  | equals _ ih => exact absurd hinside (by simp)
  | arrow _ ih => exact Nested.arrow (ih hinside)
  | group hpair hinner _ _ ih => exact Nested.group hpair hinner (ih hinside)

theorem step_of_isTypeChar {c : Char} (h : isTypeChar c = true) (d : Int) (q : Option Char) :
    step ⟨d, false, q⟩ c = ⟨d, false, some c⟩ ∧ parts ⟨d, false, q⟩ c = false ∧ c ≠ '-' := by
  simp only [isTypeChar, opensBracket, closesBracket, Bool.not_eq_true', Bool.or_eq_false_iff,
    beq_eq_false_iff_ne] at h
  obtain ⟨⟨⟨⟨⟨⟨⟨hround, hsquare⟩, hround', hsquare'⟩, hless⟩, hgreater⟩, hequals⟩, hcomma⟩, hdash⟩ := h
  refine ⟨?_, ?_, hdash⟩
  · simp [step, hround, hsquare, hround', hsquare', hless, hgreater, hequals]
  · simp [parts, hcomma]

/-- An opening bracket is one more that is open, whatever stands in front of it. -/
theorem step_of_open {o c : Char} (hpair : (o, c) ∈ [('(', ')'), ('[', ']'), ('<', '>')]) (d : Nat)
    (q : Option Char) :
    step ⟨d, false, q⟩ o = ⟨(d + 1 : Nat), false, some o⟩ ∧ parts ⟨d, false, q⟩ o = false ∧
      o ≠ '-' := by
  simp only [List.mem_cons, Prod.mk.injEq, List.not_mem_nil, or_false] at hpair
  rcases hpair with ⟨rfl, -⟩ | ⟨rfl, -⟩ | ⟨rfl, -⟩
  · simp [step, parts]
  · simp [step, parts]
  · simp [step, parts]

/-- The closing bracket is one less, unless it makes an arrow with the dash in front. -/
theorem step_of_close {o c : Char} (hpair : (o, c) ∈ [('(', ')'), ('[', ']'), ('<', '>')]) (d : Nat)
    {q : Option Char} (hq : q ≠ some '-') :
    step ⟨(d + 1 : Nat), false, q⟩ c = ⟨d, false, some c⟩ ∧
      parts ⟨(d + 1 : Nat), false, q⟩ c = false ∧ c ≠ '-' := by
  have hpos : (0 : Int) < d + 1 := by omega
  simp only [List.mem_cons, Prod.mk.injEq, List.not_mem_nil, or_false] at hpair
  rcases hpair with ⟨-, rfl⟩ | ⟨-, rfl⟩ | ⟨-, rfl⟩
  · simp [step, parts]
  · simp [step, parts]
  · simp [step, parts, hq, hpos]

/-- **A type is read without a cut, and leaves as many brackets open as there were.** -/
theorem Nested.reads {inside : Bool} {t : Text} (h : Nested inside t) {d : Nat}
    (hinside : inside = true → 0 < d) {q : Option Char} (hq : q ≠ some '-') :
    ∃ q', q' ≠ some '-' ∧ Reads ⟨d, false, q⟩ t ⟨d, false, q'⟩ := by
  induction h generalizing d q with
  | nil inside => exact ⟨q, hq, Reads.nil _⟩
  | @char inside c r hc _ ih =>
      obtain ⟨hstep, hparts, hdash⟩ := step_of_isTypeChar hc d q
      obtain ⟨q', hq', hreads⟩ := ih hinside (q := some c) (by simpa using hdash)
      rw [← hstep] at hreads
      exact ⟨q', hq', Reads.cons hparts hreads⟩
  | @comma r _ ih =>
      have hd : d ≠ 0 := Nat.pos_iff_ne_zero.mp (hinside rfl)
      obtain ⟨q', hq', hreads⟩ := ih hinside (q := some ',') (by simp)
      exact ⟨q', hq', Reads.cons (by simp [parts, hd]) (by simpa [step] using hreads)⟩
  | @equals r _ ih =>
      have hd : ((d : Int) == 0) = false := by simpa using Nat.pos_iff_ne_zero.mp (hinside rfl)
      obtain ⟨q', hq', hreads⟩ := ih hinside (q := some '=') (by simp)
      exact ⟨q', hq', Reads.cons (by simp [parts]) (by simpa [step, hd] using hreads)⟩
  | @arrow inside r _ ih =>
      obtain ⟨q', hq', hreads⟩ := ih hinside (q := some '>') (by simp)
      refine ⟨q', hq', Reads.cons (by simp [parts]) (Reads.cons (by simp [step, parts]) ?_)⟩
      simpa [step] using hreads
  | @group inside o c inner r hpair _ _ ihinner ihr =>
      obtain ⟨hopen, hnocut, hdash⟩ := step_of_open hpair d q
      obtain ⟨qi, hqi, hinner⟩ := ihinner (d := d + 1) (by omega) (q := some o) (by simpa using hdash)
      obtain ⟨hclose, hnocut', hdash'⟩ := step_of_close hpair d hqi
      obtain ⟨q', hq', hr⟩ := ihr hinside (q := some c) (by simpa using hdash')
      rw [← hclose] at hr
      rw [← hopen] at hinner
      exact ⟨q', hq', Reads.cons hnocut (hinner.append (Reads.cons hnocut' hr))⟩

/-- The round and square brackets of a type are balanced. -/
theorem Nested.balanced {inside : Bool} {t : Text} (h : Nested inside t) :
    t.Balanced opensBracket closesBracket := by
  have hone : ∀ {c : Char} {r : Text}, opensBracket c = false ∧ closesBracket c = false →
      r.Balanced opensBracket closesBracket →
      Text.Balanced opensBracket closesBracket (c :: r) := by
    intro c r hc hr
    have hchar : Text.Balanced opensBracket closesBracket [c] :=
      Text.balanced_of_none (by simpa using hc)
    exact hchar.append hr
  induction h with
  | nil inside => exact Text.balanced_nil
  | @char inside c r hc _ ih =>
      refine hone ?_ ih
      simp only [isTypeChar, Bool.not_eq_true', Bool.or_eq_false_iff] at hc
      exact hc.1.1.1.1.1
  | comma _ ih => exact hone (by decide) ih
  | equals _ ih => exact hone (by decide) ih
  | arrow _ ih => exact hone (by decide) (hone (by decide) ih)
  | @group inside o c inner r hpair _ _ ihinner ihr =>
      have hsplit : o :: (inner ++ c :: r) = (o :: (inner ++ [c])) ++ r := by simp
      simp only [List.mem_cons, Prod.mk.injEq, List.not_mem_nil, or_false] at hpair
      rcases hpair with ⟨rfl, rfl⟩ | ⟨rfl, rfl⟩ | ⟨rfl, rfl⟩
      · rw [hsplit]
        exact (ihinner.wrap (by decide) (by decide)).append ihr
      · rw [hsplit]
        exact (ihinner.wrap (by decide) (by decide)).append ihr
      · exact hone (by decide) (ihinner.append (hone (by decide) ihr))

/-! ### Default values -/

/-- In a default value angle brackets compare, and without them they do not matter. -/
theorem depth_step {s : ClauseState} {c : Char} (h : s.inDefault = true ∨ (c ≠ '<' ∧ c ≠ '>')) :
    (s.step c).depth = s.depth + bracketSurplus [c] := by
  by_cases hopen : c = '(' ∨ c = '['
  · have hclose : closesBracket c = false := by
      rcases hopen with rfl | rfl
      · rfl
      · rfl
    simp [step, hopen, bracketSurplus, opensBracket, hclose]
  by_cases hclose : c = ')' ∨ c = ']'
  · simp [step, hopen, hclose, bracketSurplus, opensBracket, closesBracket, Int.sub_eq_add_neg]
  have hless : ¬(c = '<' ∧ (!s.inDefault) = true) := by
    rintro ⟨rfl, hdefault⟩
    rcases h with h | h
    · simp [h] at hdefault
    · exact h.1 rfl
  have hgreater : ¬(c = '>' ∧ (!s.inDefault) = true ∧ s.previous ≠ some '-' ∧ 0 < s.depth) := by
    rintro ⟨rfl, hdefault, -⟩
    rcases h with h | h
    · simp [h] at hdefault
    · exact h.2 rfl
  unfold step
  simp only [if_neg hopen, if_neg hclose, if_neg hless, if_neg hgreater]
  simp [hopen, hclose, bracketSurplus, opensBracket, closesBracket]

/-- Without angle brackets the round and square ones alone are counted. -/
theorem depth_after (h : ∀ c ∈ t, c ≠ '<' ∧ c ≠ '>') :
    (s.after t).depth = s.depth + bracketSurplus t := by
  induction t generalizing s with
  | nil => simp [after, bracketSurplus]
  | cons c t ih =>
      have hnext : (s.next c).depth = (s.step c).depth := by
        unfold ClauseState.next
        split
        · rfl
        · rfl
      calc (s.after (c :: t)).depth
          = ((s.next c).after t).depth := rfl
        _ = (s.next c).depth + bracketSurplus t := ih fun x hx => h x (by simp [hx])
        _ = s.depth + bracketSurplus [c] + bracketSurplus t := by
          rw [hnext, depth_step (Or.inr (h c (by simp)))]
        _ = s.depth + bracketSurplus ([c] ++ t) := by rw [bracketSurplus_append, Int.add_assoc]

/-- A default value is not cut when no comma stands where all brackets are closed. -/
theorem exists_reads_default {d : Int} {q : Option Char}
    (h : ∀ front back, t = front ++ ',' :: back → d + bracketSurplus front ≠ 0) :
    ∃ q', Reads ⟨d, true, q⟩ t ⟨d + bracketSurplus t, true, q'⟩ := by
  induction t generalizing d q with
  | nil => exact ⟨q, by simpa [bracketSurplus] using Reads.nil ⟨d, true, q⟩⟩
  | cons c t ih =>
      have hparts : parts ⟨d, true, q⟩ c = false := by
        by_cases hc : c = ','
        · subst hc
          have hd := h [] t rfl
          simpa [parts, bracketSurplus] using hd
        · simp [parts, hc]
      have hstep : step ⟨d, true, q⟩ c = ⟨d + bracketSurplus [c], true, some c⟩ := by
        rw [← depth_step (s := ⟨d, true, q⟩) (Or.inl rfl)]
        simp [step]
      obtain ⟨q', hreads⟩ := ih (d := d + bracketSurplus [c]) (q := some c) (by
        intro front back hsplit
        have hd := h (c :: front) back (by rw [hsplit]; rfl)
        rwa [show c :: front = [c] ++ front from rfl, bracketSurplus_append, ← Int.add_assoc] at hd)
      rw [← hstep, Int.add_assoc, ← bracketSurplus_append] at hreads
      exact ⟨q', Reads.cons hparts hreads⟩

/-- **A default value that balances its brackets and has its commas inside is read as a whole.** -/
theorem CommasInside.exists_reads (h : CommasInside t)
    (ht : t.Balanced opensBracket closesBracket) (q : Option Char) :
    ∃ q', Reads ⟨0, true, q⟩ t ⟨0, true, q'⟩ := by
  obtain ⟨q', hreads⟩ := exists_reads_default (d := 0) (q := q) (t := t) (by
    intro front back hsplit
    have hpos := h front back hsplit
    omega)
  rw [surplus_eq_zero ht, Int.add_zero] at hreads
  exact ⟨q', hreads⟩

/-! ### Names of pieces -/

/-- The name that is read off a piece of a clause. -/
def pieceName? (piece : Text) : Option Text := parameterName? (Text.trim piece)

theorem parameterNames_eq (clause : Text) :
    parameterNames clause = (pieces {} clause).filterMap pieceName? := by
  unfold parameterNames parameterTexts
  rw [List.filterMap_filter, List.filterMap_map]
  refine List.filterMap_congr ?_
  intro piece _
  cases htrim : Text.trim piece with
  | nil => simp [pieceName?, htrim, parameterName?, Text.beforeChar, Text.lastWord?]
  | cons c r => simp [pieceName?, htrim]

/-- Blanks in front of a text do not change its last word. -/
theorem lastWord?_append_of_allBlank {blanks : Text} (h : Text.allBlank blanks = true) (w : Text) :
    Text.lastWord? (blanks ++ w) = Text.lastWord? w := by
  have hblanks : ∀ c ∈ blanks.reverse, Text.isBlank c = true :=
    fun c hc => Text.allBlank_iff.mp h c (List.mem_reverse.mp hc)
  have hrun : ((blanks ++ w).reverse.dropWhile Text.isBlank).takeWhile (fun c => !Text.isBlank c) =
      (w.reverse.dropWhile Text.isBlank).takeWhile (fun c => !Text.isBlank c) := by
    rw [List.reverse_append, List.dropWhile_append]
    split
    · rename_i hempty
      rw [List.dropWhile_eq_nil_iff.mpr hblanks, List.isEmpty_iff.mp hempty]
    · rw [List.takeWhile_append]
      split
      · rename_i hall
        have hstop : blanks.reverse.takeWhile (fun c => !Text.isBlank c) = [] := by
          cases hreverse : blanks.reverse with
          | nil => rfl
          | cons c r =>
              rw [hreverse] at hblanks
              simp [hblanks c (by simp)]
        rw [hstop, List.append_nil]
        exact ((List.takeWhile_prefix _).eq_of_length hall).symm
      · rfl
  unfold Text.lastWord?
  rw [hrun]

/-- **A piece gives the last word before its first colon**, whatever stands behind that. -/
theorem pieceName?_append_colon {head : Text} (h : ':' ∉ head) (r : Text) :
    pieceName? (head ++ ':' :: r) = (Text.lastWord? head).map withoutBackticks := by
  have hcolon : Text.isBlank ':' = false := by decide
  have hsplit := Text.leadingBlanks_append_trimLeft head
  have hblanks := Text.allBlank_leadingBlanks head
  have hword : Text.lastWord? (Text.trimLeft head) = Text.lastWord? head := by
    conv_rhs => rw [← hsplit]
    rw [lastWord?_append_of_allBlank hblanks]
  have htrim : Text.trim (head ++ ':' :: r) = Text.trimLeft head ++ ':' :: Text.trimRight r := by
    have hleft : Text.trimLeft (head ++ ':' :: r) = Text.trimLeft head ++ ':' :: r := by
      conv_lhs => rw [← hsplit, List.append_assoc, Text.trimLeft_append_of_allBlank _ hblanks]
      cases hhead : Text.trimLeft head with
      | nil => exact Text.trimLeft_cons_of_not r hcolon
      | cons c u =>
          have hc := List.head?_dropWhile_not Text.isBlank head
          unfold Text.trimLeft at hhead
          rw [hhead] at hc
          exact Text.trimLeft_cons_of_not _ (by simpa using hc)
    unfold Text.trim
    rw [hleft, Text.trimRight_append_of_not _ _ hcolon]
  have hnot : ':' ∉ Text.trimLeft head := fun hmem => h ((Text.trimLeft_sublist head).subset hmem)
  unfold pieceName? parameterName?
  rw [htrim, Text.beforeChar_append hnot, hword]

/-! ### Whole clauses -/

/-- A parameter of a clause: what stands before its colon, its type, and its default value if it
has one. -/
structure WrittenParameter where
  head : Text
  type : Text
  default : Option Text

namespace WrittenParameter

/-- The parameter without its default value. -/
def front (p : WrittenParameter) : Text := p.head ++ ':' :: p.type

def text (p : WrittenParameter) : Text :=
  p.front ++ match p.default with
    | none => []
    | some value => '=' :: value

/-- The brackets of the type nest, and those of the default value are balanced.  A default value
with a comma outside of them has no angle brackets. -/
structure WellFormed (p : WrittenParameter) : Prop where
  head_plain : ∀ c ∈ p.head, isTypeChar c = true ∧ c ≠ ':'
  type_nested : Nested false p.type
  default_balanced : ∀ value, p.default = some value → value.Balanced opensBracket closesBracket
  default_plain : ∀ value, p.default = some value →
    CommasInside value ∨ ∀ c ∈ value, c ≠ '<' ∧ c ≠ '>'

/-- The name that stands before the colon. -/
def ownName? (p : WrittenParameter) : Option Text :=
  (Text.lastWord? p.head).map withoutBackticks

end WrittenParameter

/-- The names that are read off a default value: it is cut at its commas outside round and square
brackets, and each piece behind the first is taken for a parameter. -/
def strayNames (value : Text) : List Text :=
  (pieces ⟨0, true, some '='⟩ value).tail.filterMap pieceName?

namespace WrittenParameter

/-- The names that are read off a parameter. -/
def names (p : WrittenParameter) : List Text :=
  p.ownName?.toList ++ match p.default with
    | none => []
    | some value => strayNames value

variable {p : WrittenParameter}

theorem WellFormed.front_nested (h : p.WellFormed) : Nested false p.front := by
  have hhead : Nested false p.head := nested_of_isTypeChar fun c hc => (h.head_plain c hc).1
  exact hhead.append (Nested.char (by decide) h.type_nested)

theorem WellFormed.pieceName?_eq (h : p.WellFormed) (r : Text) :
    pieceName? (p.front ++ r) = p.ownName? := by
  have hcolon : ':' ∉ p.head := fun hmem => (h.head_plain ':' hmem).2 rfl
  rw [front, List.append_assoc, List.cons_append, pieceName?_append_colon hcolon]
  rfl

/-- **A parameter gives its own name and the stray ones**, and leaves all brackets closed. -/
theorem WellFormed.reads (h : p.WellFormed) {q : Option Char} (hq : q ≠ some '-') :
    (pieces ⟨0, false, q⟩ p.text).filterMap pieceName? = p.names ∧
      (after ⟨0, false, q⟩ p.text).depth = 0 := by
  obtain ⟨q', hfront⟩ : ∃ q', Reads ⟨0, false, q⟩ p.front ⟨0, false, q'⟩ := by
    obtain ⟨q', -, hreads⟩ := h.front_nested.reads (d := 0) (by simp) hq
    exact ⟨q', hreads⟩
  cases hdefault : p.default with
  | none =>
      have htext : p.text = p.front := by simp [text, hdefault]
      have hname := h.pieceName?_eq []
      rw [List.append_nil] at hname
      refine ⟨?_, ?_⟩
      · rw [htext, pieces_of_reads hfront, List.filterMap_cons, hname, names, hdefault,
          List.append_nil]
        cases p.ownName? with
        | none => rfl
        | some name => rfl
      · rw [htext, hfront.after_eq]
  | some value =>
      have htext : p.text = (p.front ++ ['=']) ++ value := by simp [text, hdefault]
      have hequals : Reads ⟨0, false, q'⟩ ['='] ⟨0, true, some '='⟩ :=
        Reads.cons (by simp [parts]) (by simpa [step] using Reads.nil ⟨0, true, some '='⟩)
      have hstart := hfront.append hequals
      obtain ⟨piece, more, hpieces⟩ := exists_pieces ⟨0, true, some '='⟩ value
      refine ⟨?_, ?_⟩
      · have hname := h.pieceName?_eq (['='] ++ piece)
        rw [← List.append_assoc] at hname
        have hstray : strayNames value = more.filterMap pieceName? := by
          unfold strayNames
          rw [hpieces, List.tail_cons]
        rw [htext, pieces_append_of_reads hstart hpieces, List.filterMap_cons, hname, names, hdefault]
        show _ = _ ++ strayNames value
        rw [hstray]
        cases p.ownName? with
        | none => rfl
        | some name => rfl
      · rw [htext, after_append, hstart.after_eq]
        have hbalanced := h.default_balanced value hdefault
        rcases h.default_plain value hdefault with hcommas | hangles
        · obtain ⟨q'', hreads⟩ := hcommas.exists_reads hbalanced (some '=')
          rw [hreads.after_eq]
        · rw [depth_after hangles, surplus_eq_zero hbalanced]
          rfl

end WrittenParameter

/-- The clause of parameters: their texts with commas between. -/
def clauseOf (parameters : List WrittenParameter) : Text :=
  Text.join [','] (parameters.map WrittenParameter.text)

theorem WrittenParameter.WellFormed.balanced {p : WrittenParameter} (h : p.WellFormed) :
    p.text.Balanced opensBracket closesBracket := by
  refine h.front_nested.balanced.append ?_
  cases hdefault : p.default with
  | none => exact Text.balanced_nil
  | some value =>
      have hequals : Text.Balanced opensBracket closesBracket ['='] :=
        Text.balanced_of_none (by decide)
      exact hequals.append (h.default_balanced value hdefault)

theorem clauseOf_cons_cons (p next : WrittenParameter) (more : List WrittenParameter) :
    clauseOf (p :: next :: more) = p.text ++ ',' :: clauseOf (next :: more) := by
  simp [clauseOf, Text.join]

theorem balanced_clauseOf {parameters : List WrittenParameter}
    (h : ∀ p ∈ parameters, p.WellFormed) :
    (clauseOf parameters).Balanced opensBracket closesBracket := by
  induction parameters with
  | nil => exact Text.balanced_nil
  | cons p more ih =>
      have hp := (h p (by simp)).balanced
      cases more with
      | nil => exact hp
      | cons next more =>
          have hcomma : Text.Balanced opensBracket closesBracket [','] :=
            Text.balanced_of_none (by decide)
          rw [clauseOf_cons_cons]
          exact hp.append (hcomma.append (ih fun x hx => h x (by simp [hx])))

theorem filterMap_pieces_clauseOf {parameters : List WrittenParameter}
    (h : ∀ p ∈ parameters, p.WellFormed) {q : Option Char} (hq : q ≠ some '-') :
    (pieces ⟨0, false, q⟩ (clauseOf parameters)).filterMap pieceName? =
      parameters.flatMap WrittenParameter.names := by
  induction parameters generalizing q with
  | nil => rfl
  | cons p more ih =>
      obtain ⟨hnames, hdepth⟩ := (h p (by simp)).reads hq
      have hmore := ih (fun x hx => h x (by simp [hx])) (q := some ',') (by simp)
      cases more with
      | nil =>
          change (pieces ⟨0, false, q⟩ p.text).filterMap pieceName? = _
          rw [hnames]
          simp
      | cons next more =>
          rw [clauseOf_cons_cons, pieces_append_comma hdepth, List.filterMap_append, hnames, hmore,
            List.flatMap_cons (x := p)]

/-- **The names of a clause are those of its parameters, in order.** -/
theorem parameterNames_clauseOf {parameters : List WrittenParameter}
    (h : ∀ p ∈ parameters, p.WellFormed) :
    parameterNames (clauseOf parameters) = parameters.flatMap WrittenParameter.names := by
  rw [parameterNames_eq]
  exact filterMap_pieces_clauseOf h (by simp)

/-- A default value without a comma outside brackets adds no name. -/
theorem strayNames_eq_nil {value : Text} (h : CommasInside value)
    (hbalanced : value.Balanced opensBracket closesBracket) : strayNames value = [] := by
  obtain ⟨q, hreads⟩ := h.exists_reads hbalanced (some '=')
  rw [strayNames, pieces_of_reads hreads]
  rfl

/-- Behind the first comma outside brackets a default value is read as a clause of its own. -/
theorem strayNames_append_comma {front : Text} (h : CommasInside front)
    (hbalanced : front.Balanced opensBracket closesBracket) (back : Text) :
    strayNames (front ++ ',' :: back) = parameterNames back := by
  obtain ⟨q, hreads⟩ := h.exists_reads hbalanced (some '=')
  have hdepth : (after ⟨0, true, some '='⟩ front).depth = 0 := by rw [hreads.after_eq]
  unfold strayNames
  rw [pieces_append_comma hdepth, pieces_of_reads hreads, parameterNames_eq, pieces_outside _ none]
  rfl

end Swift

end DocLint
