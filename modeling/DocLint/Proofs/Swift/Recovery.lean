/-
A declaration gives back its parameters.

The clause is read in the mask, where the tokens of its parameters stand with blanks between
them (`Spaced.exists_masked`).  What the grammar derives has brackets that nest, whatever
the blanks are, by induction on the derivation (`Derives.nests`).  So the masked clause is
one of parameters that the split reads as it should (`exists_writtenParameters`), a default
value with its commas inside adds no name, and the matcher of brackets stops where the
clause does.
-/
import DocLint.Proofs.Swift.Declaration
import DocLint.Proofs.Swift.Function
import DocLint.Proofs.Swift.Grammar
import DocLint.Swift.SourceFile

namespace DocLint

/-! ### The last word of a text -/

/-- A word that begins the text or stands behind a blank, and has blanks behind it, is the last. -/
theorem Text.lastWord?_append {front word blanks : Text}
    (hfront : ∀ c, front.getLast? = some c → isBlank c = true) (hne : word ≠ [])
    (hword : ∀ c ∈ word, isBlank c = false) (hblanks : allBlank blanks = true) :
    lastWord? (front ++ (word ++ blanks)) = some word := by
  have hdrop : (front ++ (word ++ blanks)).reverse.dropWhile isBlank = word.reverse ++ front.reverse := by
    rw [List.reverse_append, List.reverse_append, List.append_assoc]
    refine dropWhile_append_of_stop ?_ ?_
    · intro c hc
      exact allBlank_iff.mp hblanks c (List.mem_reverse.mp hc)
    · intro c hc
      cases hreverse : word.reverse with
      | nil => exact absurd (List.reverse_eq_nil_iff.mp hreverse) hne
      | cons d r =>
          rw [hreverse] at hc
          obtain rfl : d = c := by simpa using hc
          exact hword d (List.mem_reverse.mp (by rw [hreverse]; simp))
  have htake : (word.reverse ++ front.reverse).takeWhile (fun c => !isBlank c) = word.reverse := by
    refine takeWhile_append_of_stop ?_ ?_
    · intro c hc
      rw [hword c (List.mem_reverse.mp hc)]
      rfl
    · intro c hc
      rw [List.head?_reverse] at hc
      rw [hfront c hc]
      rfl
  unfold lastWord?
  rw [hdrop, htake, List.reverse_reverse]
  cases word with
  | nil => exact absurd rfl hne
  | cons c r => rfl

namespace Swift

/-! ### Tokens in a mask -/

variable {inside afterMark : Bool} {ks vs : List Token} {m : Text}

theorem Shown.exists_cons {k : Token} (h : Shown afterMark (k :: ks) m) :
    ∃ blanks r, m = blanks ++ (k.masked ++ r) ∧ Text.allBlank blanks = true ∧
      (afterMark = false → k.isMark = false → blanks ≠ []) ∧ Shown k.isMark ks r := by
  cases h with
  | @cons _ g r _ _ hg hapart hr => exact ⟨g, r, rfl, hg, hapart, hr⟩

theorem Shown.blank (h : Shown afterMark [] m) : Text.allBlank m = true := by
  cases h with
  | nil hg => exact hg

/-- A mark parts the text, and the gap in front of it belongs to what stands before. -/
theorem Shown.split_mark {a : Mark} (h : Shown afterMark (ks ++ .mark a :: vs) m) :
    ∃ s r, m = s ++ (a.text ++ r) ∧ Shown afterMark ks s ∧ Shown true vs r := by
  induction ks generalizing afterMark m with
  | nil =>
      obtain ⟨blanks, r, rfl, hblanks, -, hr⟩ := Shown.exists_cons h
      exact ⟨blanks, r, rfl, Spaced.nil hblanks, hr⟩
  | cons k ks ih =>
      obtain ⟨blanks, r, rfl, hblanks, hapart, hr⟩ := Shown.exists_cons h
      obtain ⟨s, u, rfl, hs, hu⟩ := ih hr
      exact ⟨blanks ++ (k.masked ++ s), u, by simp, Spaced.cons hblanks hapart hs, hu⟩

/-! ### Types nest -/

/-- Between brackets or outside, the tokens stand in a mask as a text whose brackets nest. -/
def Nests (inside : Bool) (ks : List Token) : Prop :=
  ∀ afterMark m, Shown afterMark ks m → Nested inside m

theorem isTypeChar_of_isBlank {c : Char} (h : Text.isBlank c = true) : isTypeChar c = true := by
  have hne : ∀ x, Text.isBlank x = false → (c == x) = false := by
    intro x hx
    refine beq_false_of_ne ?_
    rintro rfl
    rw [h] at hx
    exact absurd hx (by simp)
  simp only [isTypeChar, opensBracket, closesBracket, hne '(' rfl, hne '[' rfl, hne ')' rfl,
    hne ']' rfl, hne '<' rfl, hne '>' rfl, hne '=' rfl, hne ',' rfl, hne '-' rfl]
  rfl

theorem isTypeChar_of_isWordChar {c : Char} (h : isWordChar c = true) : isTypeChar c = true := by
  have hne : ∀ x, isWordChar x = false → (c == x) = false :=
    fun x hx => beq_false_of_ne (ne_of_isWordChar h hx)
  simp only [isTypeChar, opensBracket, closesBracket, hne '(' rfl, hne '[' rfl, hne ')' rfl,
    hne ']' rfl, hne '<' rfl, hne '>' rfl, hne '=' rfl, hne ',' rfl, hne '-' rfl]
  rfl

theorem Word.isTypeChar_of_mem {w : Word} {c : Char} (hc : c ∈ w.text) :
    isTypeChar c = true ∧ c ≠ ':' := by
  rcases Word.mem_text hc with hc | rfl
  · exact ⟨isTypeChar_of_isWordChar hc, ne_of_isWordChar hc rfl⟩
  · decide

theorem nested_of_allBlank {blanks : Text} (h : Text.allBlank blanks = true) :
    Nested inside blanks :=
  nested_of_isTypeChar fun c hc => isTypeChar_of_isBlank (Text.allBlank_iff.mp h c hc)

namespace Nests

theorem nil : Nests inside [] := fun _ _ h => nested_of_allBlank (Shown.blank h)

theorem cons {k : Token} (hk : ∀ r, Nested inside r → Nested inside (k.masked ++ r))
    (hks : Nests inside ks) : Nests inside (k :: ks) := by
  intro afterMark m h
  obtain ⟨blanks, r, rfl, hblanks, -, hr⟩ := Shown.exists_cons h
  exact (nested_of_allBlank hblanks).append (hk r (hks _ _ hr))

theorem word (w : Word) (hks : Nests inside ks) : Nests inside (.word w :: ks) := by
  refine cons ?_ hks
  intro r hr
  exact (nested_of_isTypeChar fun c hc => (Word.isTypeChar_of_mem hc).1).append hr

/-- A mark that keeps the nesting of what follows it can stand between. -/
theorem append_mark {a : Mark} (hks : Nests inside ks)
    (hmark : ∀ r, Nested inside r → Nested inside (a.text ++ r)) (hvs : Nests inside vs) :
    Nests inside (ks ++ .mark a :: vs) := by
  intro afterMark m h
  obtain ⟨s, r, rfl, hs, hr⟩ := Shown.split_mark h
  exact (hks _ _ hs).append (hmark r (hvs _ _ hr))

/-- Marks that are neither brackets nor a comma, an arrow or an equals sign. -/
theorem nested_mark {a : Mark} (h : ∀ c ∈ a.text, isTypeChar c = true) (r : Text)
    (hr : Nested inside r) : Nested inside (a.text ++ r) :=
  (nested_of_isTypeChar h).append hr

theorem group {o c : Mark} {open' close : Char} (ho : o.text = [open']) (hc : c.text = [close])
    (hpair : (open', close) ∈ [('(', ')'), ('[', ']'), ('<', '>')]) (hks : Nests true ks)
    (hvs : Nests inside vs) : Nests inside (.mark o :: (ks ++ .mark c :: vs)) := by
  intro afterMark m h
  obtain ⟨blanks, r, rfl, hblanks, -, hr⟩ := Shown.exists_cons h
  obtain ⟨inner, last, rfl, hinner, hlast⟩ := Shown.split_mark hr
  refine (nested_of_allBlank hblanks).append ?_
  show Nested inside (o.text ++ (inner ++ (c.text ++ last)))
  rw [ho, hc]
  exact Nested.group hpair (hks _ _ hinner) (hvs _ _ hlast)

theorem of_outside (h : Nests false ks) : Nests true ks :=
  fun afterMark m hm => (h afterMark m hm).of_outside

end Nests

/-- Lists with commas stand inside of brackets. -/
def Phrase.inBrackets : Phrase → Bool
  | type => false
  | _ => true

/-- **What the grammar derives has brackets that nest**, with commas only inside of them. -/
theorem Derives.nests {phrase : Phrase} (h : Derives phrase ks) : Nests phrase.inBrackets ks := by
  have hround : ('(', ')') ∈ [('(', ')'), ('[', ']'), ('<', '>')] := by simp
  have hsquare : ('[', ']') ∈ [('(', ')'), ('[', ']'), ('<', '>')] := by simp
  have hangle : ('<', '>') ∈ [('(', ')'), ('[', ']'), ('<', '>')] := by simp
  induction h with
  | name w => exact Nests.nil.word w
  | member _ w ih => exact ih.append_mark (Nests.nested_mark (by decide)) (Nests.nil.word w)
  | @generic ts us _ _ iht ihus =>
      intro afterMark m hm
      obtain ⟨s, r, rfl, hs, hr⟩ := Shown.split_mark hm
      obtain ⟨inner, last, rfl, hinner, hlast⟩ := Shown.split_mark hr
      exact (iht _ _ hs).append (Nested.group hangle (ihus _ _ hinner) (Nests.nil _ _ hlast))
  | array _ ih => exact Nests.group rfl rfl hsquare ih.of_outside Nests.nil
  | @dictionary ks vs _ _ ihk ihv =>
      have hinner := ihk.of_outside.append_mark (Nests.nested_mark (a := .colon) (by decide))
        ihv.of_outside
      have hgroup : Nests false (.mark .squareOpen :: ((ks ++ .mark .colon :: vs) ++
          [.mark .squareClose])) := Nests.group rfl rfl hsquare hinner Nests.nil
      simpa [Phrase.inBrackets] using hgroup
  | unit =>
      have hempty : Nests true [] := Nests.nil
      exact Nests.group (o := .roundOpen) rfl rfl hround hempty Nests.nil
  | tuple _ ih => exact Nests.group rfl rfl hround ih Nests.nil
  | function _ _ iht ihu => exact iht.append_mark (fun r hr => Nested.arrow hr) ihu
  | optional _ ih => exact ih.append_mark (Nests.nested_mark (by decide)) Nests.nil
  | unwrapped _ ih => exact ih.append_mark (Nests.nested_mark (by decide)) Nests.nil
  | variadic _ ih => exact ih.append_mark (Nests.nested_mark (by decide)) Nests.nil
  | inout _ ih => exact ih.word inoutWord
  | attributed w _ ih => exact Nests.cons (Nests.nested_mark (a := .sign) (by decide)) (ih.word w)
  | lastType _ ih => exact ih.of_outside
  | moreTypes _ _ iht ihus => exact iht.of_outside.append_mark (a := .comma) (fun r hr => Nested.comma hr) ihus
  | unlabelled _ ih => exact ih.of_outside
  | labelled labels _ ih =>
      have hlabels : Nests true (labels.map Token.word) := by
        induction labels with
        | nil => exact Nests.nil
        | cons w labels ihl => exact ihl.word w
      exact hlabels.append_mark (a := .colon) (Nests.nested_mark (by decide)) ih.of_outside
  | lastElement _ ih => exact ih
  | moreElements _ _ iht ihus => exact iht.append_mark (a := .comma) (fun r hr => Nested.comma hr) ihus

/-! ### Parameters of a masked clause -/

theorem Word.text_ne (w : Word) : w.text ≠ [] := by
  unfold Word.text
  split
  · simp
  · exact w.name_ne

theorem Word.not_blank (w : Word) : ∀ c ∈ w.text, Text.isBlank c = false := by
  intro c hc
  rcases Word.mem_text hc with hc | rfl
  · exact not_blank_of_isWordChar hc
  · decide

theorem Word.withoutBackticks_text (w : Word) : withoutBackticks w.text = w.name := by
  have hname : ∀ s : Text, (∀ c ∈ s, c ∈ w.name) → ∀ t, s ≠ [] →
      (s ++ t).dropWhile (· == '\x60') = s ++ t := by
    intro s hs t hne
    refine dropWhile_append_of_stop (s := []) (by simp) ?_
    intro c hc
    cases s with
    | nil => exact absurd rfl hne
    | cons d r =>
        obtain rfl : d = c := by simpa using hc
        exact beq_false_of_ne (ne_of_isWordChar (w.name_chars d (hs d (by simp))) rfl)
  have hfront := hname w.name fun c hc => hc
  have hback := hname w.name.reverse fun c hc => List.mem_reverse.mp hc
  have hne : w.name.reverse ≠ [] := by simpa using w.name_ne
  unfold withoutBackticks Text.dropEndWhile Word.text
  split
  · rw [List.dropWhile_cons_of_pos (by simp), hfront _ w.name_ne, List.reverse_append,
      List.reverse_singleton, List.singleton_append, List.dropWhile_cons_of_pos (by simp)]
    have hstop := hback [] hne
    rw [List.append_nil] at hstop
    rw [hstop, List.reverse_reverse]
  · have hstop := hfront [] w.name_ne
    have hstop' := hback [] hne
    rw [List.append_nil] at hstop hstop'
    rw [hstop, hstop', List.reverse_reverse]

/-- Words and the blanks between them are nothing to the split, and there is no colon in them. -/
theorem Shown.isTypeChar_of_words {words : List Word} (h : Shown afterMark (words.map .word) m) :
    ∀ c ∈ m, isTypeChar c = true ∧ c ≠ ':' := by
  have hblank : ∀ {blanks : Text}, Text.allBlank blanks = true →
      ∀ c ∈ blanks, isTypeChar c = true ∧ c ≠ ':' := by
    intro blanks hblanks c hc
    have hb := Text.allBlank_iff.mp hblanks c hc
    refine ⟨isTypeChar_of_isBlank hb, ?_⟩
    rintro rfl
    exact absurd hb (by decide)
  induction words generalizing afterMark m with
  | nil => exact hblank (Shown.blank h)
  | cons w words ih =>
      obtain ⟨blanks, r, rfl, hblanks, -, hr⟩ := Shown.exists_cons h
      intro c hc
      rcases List.mem_append.mp hc with hc | hc
      · exact hblank hblanks c hc
      · rcases List.mem_append.mp hc with hc | hc
        · exact Word.isTypeChar_of_mem hc
        · exact ih hr c hc

/-- What stands before the colon of a parameter ends with its name, whatever the blanks are. -/
theorem Parameter.lastWord?_front (p : Parameter) (h : Shown afterMark p.front m) :
    Text.lastWord? m = some p.name.text := by
  have hlast : ∀ {blanks : Text}, Text.allBlank blanks = true →
      ∀ c, blanks.getLast? = some c → Text.isBlank c = true :=
    fun hblanks c hc => Text.allBlank_iff.mp hblanks c (List.mem_of_getLast? hc)
  unfold front at h
  cases hlabel : p.label with
  | none =>
      rw [hlabel] at h
      obtain ⟨blanks, r, rfl, hblanks, -, hr⟩ := Shown.exists_cons h
      exact Text.lastWord?_append (hlast hblanks) p.name.text_ne p.name.not_blank (Shown.blank hr)
  | some label =>
      rw [hlabel] at h
      obtain ⟨blanks, r, rfl, hblanks, -, hr⟩ := Shown.exists_cons h
      obtain ⟨between, u, rfl, hbetween, hapart, hu⟩ := Shown.exists_cons hr
      have hfront : ∀ c, (blanks ++ (label.text ++ between)).getLast? = some c →
          Text.isBlank c = true := by
        intro c hc
        rw [← List.append_assoc, List.getLast?_append_of_ne_nil _ (hapart rfl rfl)] at hc
        exact hlast hbetween c hc
      have hname := Text.lastWord?_append hfront p.name.text_ne p.name.not_blank (Shown.blank hu)
      simpa [Token.masked] using hname

/-- A default value with blanks around it stays balanced, and keeps its commas inside. -/
theorem DefaultValue.surrounded (v : DefaultValue) {front back : Text}
    (hfront : Text.allBlank front = true) (hback : Text.allBlank back = true) :
    Text.Balanced opensBracket closesBracket (front ++ (v.masked ++ back)) ∧
      CommasInside (front ++ (v.masked ++ back)) := by
  have hnone : ∀ {blanks : Text}, Text.allBlank blanks = true →
      Text.Balanced opensBracket closesBracket blanks ∧ CommasInside blanks := by
    intro blanks hblanks
    have hne : ∀ c ∈ blanks, ∀ x, Text.isBlank x = false → (c == x) = false := by
      intro c hc x hx
      refine beq_false_of_ne ?_
      rintro rfl
      rw [Text.allBlank_iff.mp hblanks c hc] at hx
      exact absurd hx (by simp)
    refine ⟨Text.balanced_of_none ?_, commasInside_of_not_mem ?_⟩
    · intro c hc
      have hc := hne c hc
      simp only [opensBracket, closesBracket, hc '(' rfl, hc '[' rfl, hc ')' rfl, hc ']' rfl]
      exact ⟨rfl, rfl⟩
    · intro hc
      exact absurd (hne ',' hc ',' rfl) (by decide)
  obtain ⟨hfrontBalanced, hfrontCommas⟩ := hnone hfront
  obtain ⟨hbackBalanced, hbackCommas⟩ := hnone hback
  refine ⟨hfrontBalanced.append (Text.Balanced.append v.balanced hbackBalanced), ?_⟩
  exact hfrontCommas.append (CommasInside.append v.commas hbackCommas v.balanced) hfrontBalanced

/-- **A parameter in a mask is one that the split reads as it should**: it gives its own name and no
other. -/
theorem Parameter.exists_writtenParameter (p : Parameter) (h : Shown afterMark p.tokens m) :
    ∃ w : WrittenParameter, w.text = m ∧ w.WellFormed ∧ w.names = [p.name.name] := by
  obtain ⟨head, r, rfl, hhead, hr⟩ := Shown.split_mark h
  have hname := p.lastWord?_front hhead
  have hplain := Shown.isTypeChar_of_words hhead
  have hown : ∀ type default, (WrittenParameter.mk head type default).ownName? = some p.name.name := by
    intro type default
    show (Text.lastWord? head).map withoutBackticks = _
    rw [hname, Option.map_some, p.name.withoutBackticks_text]
  have hnests : Nests false p.type := p.type_derives.nests
  unfold back at hr
  cases hdefault : p.default with
  | none =>
      rw [hdefault, List.append_nil] at hr
      refine ⟨⟨head, r, none⟩, ?_, ⟨hplain, hnests _ _ hr, by simp, by simp⟩, ?_⟩
      · simp [WrittenParameter.text, WrittenParameter.front, Mark.text]
      · rw [WrittenParameter.names, hown]
        rfl
  | some value =>
      rw [hdefault] at hr
      obtain ⟨type, u, rfl, htype, hu⟩ := Shown.split_mark hr
      obtain ⟨front, back, rfl, hfront, -, hback⟩ := Shown.exists_cons hu
      obtain ⟨hbalanced, hcommas⟩ := value.surrounded hfront (Shown.blank hback)
      refine ⟨⟨head, type, some (front ++ (value.masked ++ back))⟩, ?_, ⟨hplain, hnests _ _ htype, ?_, ?_⟩, ?_⟩
      · simp [WrittenParameter.text, WrittenParameter.front, Mark.text, Token.masked]
      · intro t ht
        rw [← Option.some.inj ht]
        exact hbalanced
      · intro t ht
        rw [← Option.some.inj ht]
        exact Or.inl hcommas
      · rw [WrittenParameter.names, hown]
        show _ ++ strayNames (front ++ (value.masked ++ back)) = _
        rw [strayNames_eq_nil hcommas hbalanced]
        rfl

/-- A masked clause is one of such parameters. -/
theorem exists_writtenParameters {p : Parameter} {more : List Parameter}
    (h : Shown afterMark (clauseTokens (p :: more)) m) :
    ∃ ws : List WrittenParameter, ws ≠ [] ∧ clauseOf ws = m ∧ (∀ w ∈ ws, w.WellFormed) ∧
      ws.flatMap WrittenParameter.names = (p :: more).map (·.name.name) := by
  induction more generalizing p afterMark m with
  | nil =>
      obtain ⟨w, rfl, hw, hnames⟩ := p.exists_writtenParameter h
      exact ⟨[w], by simp, rfl, by simpa using hw, by simp [hnames]⟩
  | cons next more ih =>
      obtain ⟨s, r, rfl, hs, hr⟩ := Shown.split_mark h
      obtain ⟨w, rfl, hw, hnames⟩ := p.exists_writtenParameter hs
      obtain ⟨ws, hne, rfl, hws, hmore⟩ := ih hr
      obtain ⟨w', ws, rfl⟩ := List.exists_cons_of_ne_nil hne
      refine ⟨w :: w' :: ws, by simp, clauseOf_cons_cons w w' ws, ?_, ?_⟩
      · intro x hx
        rcases List.mem_cons.mp hx with rfl | hx
        · exact hw
        · exact hws x hx
      · rw [List.flatMap_cons, hnames, hmore]
        rfl

/-- **A masked clause gives the names of its parameters**, and its brackets are balanced. -/
theorem parameterNames_shown {ps : List Parameter} (h : Shown afterMark (clauseTokens ps) m) :
    parameterNames m = ps.map (·.name.name) ∧ m.Balanced opensBracket closesBracket := by
  cases ps with
  | nil =>
      have hblank := Shown.blank h
      have hnested : Nested false m := nested_of_allBlank hblank
      obtain ⟨q, -, hreads⟩ := hnested.reads (d := 0) (q := none) (by simp) (by simp)
      have hpieces : pieces {} m = [m] := pieces_of_reads hreads
      have hword : Text.trim m = [] := by
        unfold Text.trim
        rw [Text.trimLeft_eq_nil_iff.mpr hblank]
        rfl
      refine ⟨?_, hnested.balanced⟩
      rw [parameterNames, parameterTexts, hpieces, List.map_singleton, hword]
      rfl
  | cons p more =>
      obtain ⟨ws, -, rfl, hws, hnames⟩ := exists_writtenParameters h
      rw [parameterNames_clauseOf hws, hnames]
      exact ⟨rfl, balanced_clauseOf hws⟩

end Swift

namespace SourceFile

open Swift

/-- **The first declaration has the names of the list**, without backticks and in order, however
the tokens of its parameters are spaced. -/
theorem declarations_written {ps : List Parameter} {clause : Text}
    (h : Written (clauseTokens ps) clause) (path : Option Text) :
    ∃ d, (SourceFile.mk ("func g(".toList ++ (clause ++ ") \x7b\x7d".toList)) path).declarations.head? =
        some d ∧
      d.signature = ⟨.function, "g".toList⟩ ∧ d.parameterNames = ps.map (·.name.name) := by
  obtain ⟨m, hm, hmask⟩ := Spaced.exists_masked h
  obtain ⟨hnames, hbalanced⟩ := parameterNames_shown hm
  have htail : mask ") \x7b\x7d".toList = ") \x7b\x7d".toList := by
    have hcode := mask_append_of_code (s := ") \x7b\x7d".toList) (by decide) []
    rw [mask_nil, List.append_nil] at hcode
    exact hcode
  have hmasked : mask ("func g(".toList ++ (clause ++ ") \x7b\x7d".toList)) =
      'f' :: ("unc g(".toList ++ (m ++ ") \x7b\x7d".toList)) := by
    rw [mask_append_of_code (by decide), hmask _ (by decide), htail]
    rfl
  have hsig : signature? ('f' :: ("unc g(".toList ++ (m ++ ") \x7b\x7d".toList))) =
      some (⟨.function, "g".toList⟩, m ++ ") \x7b\x7d".toList) := rfl
  have hclause : clause? 0 (m ++ ") \x7b\x7d".toList) = some m :=
    clause?_append hbalanced " \x7b\x7d".toList
  rw [declarations_eq]
  unfold heads Swift.heads
  simp only [hmasked]
  rw [headsFrom]
  simp only [mayPrecede, if_true, hsig, hclause]
  rw [List.filterMap_cons]
  refine ⟨_, rfl, rfl, ?_⟩
  exact hnames

/-- The parameter ``for `in`: A<B>``. -/
def labelledParameter : Parameter where
  label := some ⟨"for".toList, false, by decide, by decide⟩
  name := ⟨"in".toList, true, by decide, by decide⟩
  type := [.word ⟨"A".toList, false, by decide, by decide⟩, .mark .less,
    .word ⟨"B".toList, false, by decide, by decide⟩, .mark .greater]
  type_derives := (Derives.name _).generic (Derives.name _).lastType
  default := none

/-- The parameter `b: Int = x < ","`. -/
def defaultParameter : Parameter where
  label := none
  name := ⟨"b".toList, false, by decide, by decide⟩
  type := [.word ⟨"Int".toList, false, by decide, by decide⟩]
  type_derives := Derives.name _
  default := some {
    parts := "x < ".toList.map DefaultPart.code ++ [.literal [',']]
    plain := by decide
    meet := by decide
    last_ne := by decide
    balanced := by decide
    commas := by decide }

/-- The two of them with a comment between. -/
def commentedClause : Text := "for `in`: A<B>, // c\n b: Int = x < \",\"".toList

theorem written_commentedClause :
    Written (clauseTokens [labelledParameter, defaultParameter]) commentedClause := by
  -- A mark needs no gap in front, and nothing needs one behind a mark.
  have mark : ∀ {afterMark more r} (a : Mark), Spaced Gap Token.text true more r →
      Spaced Gap Token.text afterMark (.mark a :: more) (a.text ++ r) :=
    fun a hr => Spaced.cons Gap.nil (fun _ hk => absurd hk (by simp [Token.isMark])) hr
  have touching : ∀ {more r} (k : Token), Spaced Gap Token.text k.isMark more r →
      Spaced Gap Token.text true (k :: more) (k.text ++ r) :=
    fun k hr => Spaced.cons Gap.nil (fun h => absurd h (by simp)) hr
  have spaced : ∀ {afterMark more r} (k : Token), Spaced Gap Token.text k.isMark more r →
      Spaced Gap Token.text afterMark (k :: more) (' ' :: (k.text ++ r)) :=
    fun k hr => Spaced.cons (Gap.nil.blank (c := ' ') rfl) (by simp) hr
  have comment : ∀ {afterMark more r} (k : Token), Spaced Gap Token.text k.isMark more r →
      Spaced Gap Token.text afterMark (k :: more) (" // c\n ".toList ++ (k.text ++ r)) := by
    intro afterMark more r k hr
    have hline := (Gap.nil.blank (c := ' ') rfl).line (show '\n' ∉ " c".toList by decide)
    exact Spaced.cons (hline.blank (c := ' ') rfl) (by simp) hr
  exact touching _ (spaced _ (mark _ (spaced _ (mark _ (touching _ (mark _ (mark _
    (comment _ (mark _ (spaced _ (spaced _ (spaced _ (Spaced.nil Gap.nil)))))))))))))

theorem declarations_written_commentedClause :
    Written (clauseTokens [labelledParameter, defaultParameter]) commentedClause ∧
    ∃ d, (SourceFile.mk ("func g(".toList ++ (commentedClause ++ ") \x7b\x7d".toList))
        none).declarations.head? = some d ∧
      d.signature = ⟨.function, "g".toList⟩ ∧
      d.parameterNames = [labelledParameter, defaultParameter].map (·.name.name) :=
  ⟨written_commentedClause, declarations_written written_commentedClause none⟩

end SourceFile

end DocLint
