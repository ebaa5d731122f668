/-
A grammar of parameters, and what the mask keeps of them.

The grammar says what a parameter is without the readers of the library: words that may
stand in backticks, marks, types that are nested to any depth, and default values of code
and literals of one line.  `Derives` holds the types, a case for each way to make one, and
`Parameter` puts the parts together.  `Spaced` says how tokens are written: with a gap
before, between and behind them, where only a mark may stand right next to another token.

In the mask the tokens are spaced in the same way, with blanks for the gaps and for the
literals (`Spaced.exists_masked`).
-/
import DocLint.Proofs.Swift.Clause
import DocLint.Proofs.Swift.Gap

namespace DocLint.Swift

/-! ### Words and marks -/

/-- ASCII letters and digits, the underscore and the dollar sign, and whatever is neither ASCII nor
blank. -/
def isWordChar (c : Char) : Bool :=
  Text.isNameChar c || c == '$' || (decide (0x80 ≤ c.toNat) && !Text.isBlank c)

/-- A character that is none of a word does not stand in a word. -/
theorem ne_of_isWordChar {c x : Char} (hc : isWordChar c = true) (hx : isWordChar x = false) :
    c ≠ x := by
  rintro rfl
  rw [hc] at hx
  exact absurd hx (by simp)

theorem not_blank_of_isWordChar {c : Char} (h : isWordChar c = true) : Text.isBlank c = false := by
  simp only [isWordChar, Bool.or_eq_true, Bool.and_eq_true, Bool.not_eq_true'] at h
  rcases h with (h | h) | h
  · exact Text.isBlank_of_isNameChar h
  · rw [eq_of_beq h]
    rfl
  · exact h.2

/-- An identifier, with or without backticks around it. -/
structure Word where
  name : Text
  quoted : Bool
  name_ne : name ≠ []
  name_chars : ∀ c ∈ name, isWordChar c = true

def Word.text (w : Word) : Text := if w.quoted then '\x60' :: (w.name ++ ['\x60']) else w.name

inductive Mark where
  | point
  | comma
  | colon
  | equals
  | roundOpen
  | roundClose
  | squareOpen
  | squareClose
  | less
  | greater
  | arrow
  | query
  | bang
  | dots
  | sign
  deriving DecidableEq

def Mark.text : Mark → Text
  | point => ['.']
  | comma => [',']
  | colon => [':']
  | equals => ['=']
  | roundOpen => ['(']
  | roundClose => [')']
  | squareOpen => ['[']
  | squareClose => [']']
  | less => ['<']
  | greater => ['>']
  | arrow => ['-', '>']
  | query => ['?']
  | bang => ['!']
  | dots => ['.', '.', '.']
  | sign => ['@']

/-! ### Default values -/

/-- A part of a default value: a character of code, or a string literal with what stands between
its quotes. -/
inductive DefaultPart where
  | code (c : Char)
  | literal (content : Text)
  deriving DecidableEq

namespace DefaultPart

def text : DefaultPart → Text
  | code c => [c]
  | literal content => '\"' :: (content ++ ['\"'])

/-- The part in the mask. -/
def masked : DefaultPart → Text
  | code c => [c]
  | literal content => List.replicate (content.length + 2) ' '

/-- There is no quote and no backslash, and a literal stays on its line. -/
def IsPlain : DefaultPart → Prop
  | code c => c ≠ '\"' ∧ c ≠ '\\'
  | literal content => ∀ c ∈ content, c ≠ '\"' ∧ c ≠ '\\' ∧ c ≠ '\r' ∧ c ≠ '\n'

instance : DecidablePred IsPlain
  | code c => inferInstanceAs (Decidable (c ≠ '\"' ∧ c ≠ '\\'))
  | literal content => inferInstanceAs
      (Decidable (∀ c ∈ content, c ≠ '\"' ∧ c ≠ '\\' ∧ c ≠ '\r' ∧ c ≠ '\n'))

/-- Neighbours open no comment, and no literal follows another. -/
def MayMeet : DefaultPart → DefaultPart → Prop
  | code c, code d => c = '/' → d ≠ '/' ∧ d ≠ '*'
  | literal _, literal _ => False
  | code _, literal _ => True
  | literal _, code _ => True

instance : DecidableRel MayMeet
  | code c, code d => inferInstanceAs (Decidable (c = '/' → d ≠ '/' ∧ d ≠ '*'))
  | literal _, literal _ => inferInstanceAs (Decidable False)
  | code _, literal _ => inferInstanceAs (Decidable True)
  | literal _, code _ => inferInstanceAs (Decidable True)

end DefaultPart

/-- A default value.  Its round and square brackets are balanced, and its commas stand inside of
them; what stands in a literal does not count. -/
structure DefaultValue where
  parts : List DefaultPart
  plain : ∀ part ∈ parts, part.IsPlain
  meet : parts.IsChain DefaultPart.MayMeet
  last_ne : parts.getLast? ≠ some (.code '/')
  balanced : Text.Balanced opensBracket closesBracket (parts.flatMap DefaultPart.masked)
  commas : CommasInside (parts.flatMap DefaultPart.masked)

namespace DefaultValue

def text (v : DefaultValue) : Text := v.parts.flatMap DefaultPart.text

def masked (v : DefaultValue) : Text := v.parts.flatMap DefaultPart.masked

end DefaultValue

/-! ### Tokens and types -/

inductive Token where
  | word (w : Word)
  | mark (m : Mark)
  | value (v : DefaultValue)

namespace Token

def text : Token → Text
  | word w => w.text
  | mark m => m.text
  | value v => v.text

/-- The token in the mask. -/
def masked : Token → Text
  | word w => w.text
  | mark m => m.text
  | value v => v.masked

def isMark : Token → Bool
  | mark _ => true
  | _ => false

end Token

/-- What the grammar derives: a type, types with commas between, an element of a tuple, and
elements with commas between. -/
inductive Phrase where
  | type
  | types
  | element
  | elements

/-- The word before a type that is passed by reference. -/
def inoutWord : Word := ⟨"inout".toList, false, by decide, by decide⟩

open Token in
/-- The grammar of types. -/
inductive Derives : Phrase → List Token → Prop
  | name (w : Word) : Derives .type [word w]
  | member {ts : List Token} (ht : Derives .type ts) (w : Word) :
      Derives .type (ts ++ [mark .point, word w])
  | generic {ts us : List Token} (ht : Derives .type ts) (hus : Derives .types us) :
      Derives .type (ts ++ mark .less :: (us ++ [mark .greater]))
  | array {ts : List Token} (ht : Derives .type ts) :
      Derives .type (mark .squareOpen :: (ts ++ [mark .squareClose]))
  | dictionary {ks vs : List Token} (hk : Derives .type ks) (hv : Derives .type vs) :
      Derives .type (mark .squareOpen :: (ks ++ mark .colon :: (vs ++ [mark .squareClose])))
  | unit : Derives .type [mark .roundOpen, mark .roundClose]
  | tuple {es : List Token} (he : Derives .elements es) :
      Derives .type (mark .roundOpen :: (es ++ [mark .roundClose]))
  | function {ts us : List Token} (ht : Derives .type ts) (hu : Derives .type us) :
      Derives .type (ts ++ mark .arrow :: us)
  | optional {ts : List Token} (ht : Derives .type ts) : Derives .type (ts ++ [mark .query])
  | unwrapped {ts : List Token} (ht : Derives .type ts) : Derives .type (ts ++ [mark .bang])
  | variadic {ts : List Token} (ht : Derives .type ts) : Derives .type (ts ++ [mark .dots])
  | inout {ts : List Token} (ht : Derives .type ts) : Derives .type (word inoutWord :: ts)
  | attributed (w : Word) {ts : List Token} (ht : Derives .type ts) :
      Derives .type (mark .sign :: word w :: ts)
  | lastType {ts : List Token} (ht : Derives .type ts) : Derives .types ts
  | moreTypes {ts us : List Token} (ht : Derives .type ts) (hus : Derives .types us) :
      Derives .types (ts ++ mark .comma :: us)
  | unlabelled {ts : List Token} (ht : Derives .type ts) : Derives .element ts
  | labelled (labels : List Word) {ts : List Token} (ht : Derives .type ts) :
      Derives .element (labels.map word ++ mark .colon :: ts)
  | lastElement {ts : List Token} (ht : Derives .element ts) : Derives .elements ts
  | moreElements {ts us : List Token} (ht : Derives .element ts) (hus : Derives .elements us) :
      Derives .elements (ts ++ mark .comma :: us)

/-! ### Parameters -/

/-- A parameter of a declaration. -/
structure Parameter where
  /-- The label for callers, if it is not the name. -/
  label : Option Word
  name : Word
  type : List Token
  type_derives : Derives .type type
  default : Option DefaultValue

namespace Parameter

/-- The tokens before the colon. -/
def front (p : Parameter) : List Token := (p.label.toList ++ [p.name]).map Token.word

/-- The tokens behind the type. -/
def back (p : Parameter) : List Token :=
  match p.default with
  | none => []
  | some value => [.mark .equals, .value value]

def tokens (p : Parameter) : List Token := p.front ++ .mark .colon :: (p.type ++ p.back)

end Parameter

/-- The tokens of a clause: those of its parameters with commas between. -/
def clauseTokens : List Parameter → List Token
  | [] => []
  | [p] => p.tokens
  | p :: more => p.tokens ++ .mark .comma :: clauseTokens more

/-- The tokens are written in order with gaps before, between and behind them.  Where no mark is
involved a gap is not empty. -/
inductive Spaced (gap : Text → Prop) (spelling : Token → Text) : Bool → List Token → Text → Prop
  | nil {afterMark : Bool} {g : Text} (hg : gap g) : Spaced gap spelling afterMark [] g
  | cons {afterMark : Bool} {g r : Text} {k : Token} {more : List Token} (hg : gap g)
      (hapart : afterMark = false → k.isMark = false → g ≠ [])
      (hr : Spaced gap spelling k.isMark more r) :
      Spaced gap spelling afterMark (k :: more) (g ++ (spelling k ++ r))

/-- The tokens are written with blanks and closed comments between them, behind a parenthesis. -/
def Written (ks : List Token) (t : Text) : Prop := Spaced Gap Token.text true ks t

/-- The tokens stand in a mask, behind a mark or not. -/
def Shown (afterMark : Bool) (ks : List Token) (t : Text) : Prop :=
  Spaced (fun g => Text.allBlank g = true) Token.masked afterMark ks t

/-! ### What the mask keeps -/

theorem mask_slash {t : Text} (h : ∀ r, t ≠ '/' :: r ∧ t ≠ '*' :: r) :
    mask ('/' :: t) = '/' :: mask t := by
  have hnext : nextLexeme '/' t = (⟨.code, ['/'], true⟩, t) := by
    rw [nextLexeme]
    · exact fun hc => absurd hc (by decide)
    · exact fun r _ hr => (h r).1 hr
    · exact fun r _ hr => (h r).2 hr
    · exact fun _ hc _ => absurd hc (by decide)
  rw [mask_cons, hnext]
  rfl

theorem stringTail_append_quote {s : Text} (h : ∀ c ∈ s, c ≠ '\"' ∧ c ≠ '\\' ∧ c ≠ '\n') (t : Text) :
    stringTail (s ++ '\"' :: t) = ⟨s ++ ['\"'], t, true⟩ := by
  induction s with
  | nil => rfl
  | cons c s ih =>
      obtain ⟨hquote, hescape, hfeed⟩ := h c (by simp)
      rw [List.cons_append, stringTail]
      · rw [if_neg (by simp [hquote, hfeed]), ih fun x hx => h x (by simp [hx])]
        rfl
      · intro d r hc
        exact absurd hc hescape

/-- A string literal of one line is blanked, unless a third quote follows its two. -/
theorem mask_literal {content t : Text} (hplain : (DefaultPart.literal content).IsPlain)
    (ht : t.head? ≠ some '\"') :
    mask ((DefaultPart.literal content).text ++ t) = (DefaultPart.literal content).masked ++ mask t := by
  have htail := stringTail_append_quote (fun c hc => ⟨(hplain c hc).1, (hplain c hc).2.1,
    (hplain c hc).2.2.2⟩) t
  have hnext : nextLexeme '\"' (content ++ '\"' :: t) =
      Lexeme.ofSpan .string ['\"'] (stringTail (content ++ '\"' :: t)) := by
    have hthree : ∀ r, content ++ '\"' :: t ≠ '\"' :: '\"' :: r := by
      intro r hr
      cases content with
      | nil =>
          obtain ⟨-, ht'⟩ := List.cons.inj hr
          exact ht (by rw [ht']; rfl)
      | cons c s => exact (hplain c (by simp)).1 (List.cons.inj hr).1
    rw [nextLexeme]
    exact fun r hr => hthree r hr
  have hblank : ('\"' :: (content ++ ['\"'])).map blanked = List.replicate (content.length + 2) ' ' := by
    rw [List.eq_replicate_iff]
    refine ⟨by simp, ?_⟩
    intro b hb
    obtain ⟨c, hc, rfl⟩ := List.mem_map.mp hb
    rcases List.mem_cons.mp hc with rfl | hc
    · rfl
    · rcases List.mem_append.mp hc with hc | hc
      · obtain ⟨-, -, hcr, hlf⟩ := hplain c hc
        simp [blanked, hcr, hlf]
      · obtain rfl := List.mem_singleton.mp hc
        rfl
  have htext : (DefaultPart.literal content).text ++ t = '\"' :: (content ++ '\"' :: t) := by
    simp [DefaultPart.text]
  rw [htext, mask_cons, hnext, htail]
  show ('\"' :: (content ++ ['\"'])).map blanked ++ mask t = _
  rw [hblank]
  rfl

/-- Behind a slash a neighbour does not begin with what would open a comment. -/
theorem DefaultPart.MayMeet.not_mark {next : DefaultPart} (h : MayMeet (.code '/') next) (t r : Text) :
    next.text ++ t ≠ '/' :: r ∧ next.text ++ t ≠ '*' :: r := by
  cases next with
  | code d =>
      refine ⟨?_, ?_⟩
      · intro hr
        exact (h rfl).1 (List.cons.inj hr).1
      · intro hr
        exact (h rfl).2 (List.cons.inj hr).1
  | literal content =>
      refine ⟨?_, ?_⟩
      · intro hr
        exact absurd (List.cons.inj hr).1 (by decide)
      · intro hr
        exact absurd (List.cons.inj hr).1 (by decide)

/-- Behind a literal a neighbour does not begin with a quote. -/
theorem DefaultPart.MayMeet.head?_ne {content : Text} {next : DefaultPart}
    (h : MayMeet (.literal content) next) (hplain : next.IsPlain) (t : Text) :
    (next.text ++ t).head? ≠ some '\"' := by
  cases next with
  | code d =>
      intro hd
      exact hplain.1 (Option.some.inj hd)
  | literal other => exact absurd h id

/-- **A default value stands in the mask with its literals blanked**, if no quote follows it. -/
theorem mask_parts {parts : List DefaultPart} (hplain : ∀ part ∈ parts, part.IsPlain)
    (hmeet : parts.IsChain DefaultPart.MayMeet) (hlast : parts.getLast? ≠ some (.code '/'))
    {t : Text} (ht : t.head? ≠ some '\"') :
    mask (parts.flatMap DefaultPart.text ++ t) = parts.flatMap DefaultPart.masked ++ mask t := by
  induction parts with
  | nil => rfl
  | cons part more ih =>
      have hmore : mask (more.flatMap DefaultPart.text ++ t) =
          more.flatMap DefaultPart.masked ++ mask t := by
        refine ih (fun x hx => hplain x (by simp [hx])) hmeet.of_cons ?_
        intro hmoreLast
        refine hlast ?_
        rw [List.getLast?_cons, hmoreLast]
        rfl
      have hpart := hplain part (by simp)
      rw [List.flatMap_cons, List.flatMap_cons, List.append_assoc, List.append_assoc, ← hmore]
      cases part with
      | code c =>
          by_cases hslash : c = '/'
          · subst hslash
            refine mask_slash ?_
            cases more with
            | nil => exact absurd rfl hlast
            | cons next more =>
                rw [List.flatMap_cons, List.append_assoc]
                exact (List.isChain_cons_cons.mp hmeet).1.not_mark _
          · exact mask_cons_of_code hslash hpart.1 _
      | literal content =>
          refine mask_literal hpart ?_
          cases more with
          | nil => exact ht
          | cons next more =>
              rw [List.flatMap_cons, List.append_assoc]
              exact (List.isChain_cons_cons.mp hmeet).1.head?_ne (hplain next (by simp)) _

theorem Word.mem_text {w : Word} {c : Char} (hc : c ∈ w.text) : isWordChar c = true ∨ c = '\x60' := by
  unfold Word.text at hc
  split at hc
  · rcases List.mem_cons.mp hc with rfl | hc
    · exact Or.inr rfl
    rcases List.mem_append.mp hc with hc | hc
    · exact Or.inl (w.name_chars c hc)
    · exact Or.inr (List.mem_singleton.mp hc)
  · exact Or.inl (w.name_chars c hc)

theorem Mark.mem_text {m : Mark} {c : Char} (hc : c ∈ m.text) : c ∈ ".,:=()[]<>-?!@".toList := by
  revert c
  cases m <;> decide

theorem Token.mask_append (k : Token) {t : Text} (ht : k.isMark = false → t.head? ≠ some '\"') :
    mask (k.text ++ t) = k.masked ++ mask t := by
  cases k with
  | word w =>
      refine mask_append_of_code ?_ t
      intro c hc
      rcases Word.mem_text hc with hc | rfl
      · exact ⟨ne_of_isWordChar hc rfl, ne_of_isWordChar hc rfl⟩
      · decide
  | mark m =>
      refine mask_append_of_code ?_ t
      intro c hc
      have hmark : ∀ c ∈ ".,:=()[]<>-?!@".toList, c ≠ '/' ∧ c ≠ '\"' := by decide
      exact hmark c (Mark.mem_text hc)
  | value v => exact mask_parts v.plain v.meet v.last_ne (ht rfl)

theorem Gap.head?_ne {g : Text} (h : Gap g) : g.head? ≠ some '\"' := by
  cases h with
  | nil => simp
  | @blank c g hc _ =>
      intro hhead
      obtain rfl : c = '\"' := by simpa using hhead
      exact absurd hc (by decide)
  | line _ _ => simp
  | block _ _ => simp

/-- No quote follows a token that is no mark. -/
theorem Spaced.head?_ne {ks : List Token} {r t : Text} (h : Spaced Gap Token.text false ks r)
    (ht : t.head? ≠ some '\"') : (r ++ t).head? ≠ some '\"' := by
  have happend : ∀ {g u : Text}, Gap g → (g = [] → u.head? ≠ some '\"') →
      (g ++ u).head? ≠ some '\"' := by
    intro g u hg hu
    have hhead := hg.head?_ne
    cases g with
    | nil => exact hu rfl
    | cons c g => exact hhead
  cases h with
  | nil hg => exact happend hg fun _ => ht
  | @cons _ g r k more hg hapart hr =>
      rw [List.append_assoc]
      refine happend hg ?_
      intro hnil
      cases k with
      | mark m => cases m <;> simp [Token.text, Mark.text]
      | word w => exact absurd hnil (hapart rfl rfl)
      | value v => exact absurd hnil (hapart rfl rfl)

/-- **The tokens stand in the mask as they are written**, with blanks in their gaps. -/
theorem Spaced.exists_masked {afterMark : Bool} {ks : List Token} {s : Text}
    (h : Spaced Gap Token.text afterMark ks s) :
    ∃ m, Shown afterMark ks m ∧ ∀ t, t.head? ≠ some '\"' → mask (s ++ t) = m ++ mask t := by
  induction h with
  | nil hg =>
      obtain ⟨blanks, hblank, -, hmask⟩ := hg.exists_blanks
      exact ⟨blanks, Spaced.nil hblank, fun t _ => hmask t⟩
  | @cons afterMark g r k more hg hapart hr ih =>
      obtain ⟨blanks, hblank, hlength, hmask⟩ := hg.exists_blanks
      obtain ⟨m, hm, hback⟩ := ih
      have hblanks : afterMark = false → k.isMark = false → blanks ≠ [] := by
        intro hafter hk hnil
        rw [hnil] at hlength
        exact hapart hafter hk (List.eq_nil_of_length_eq_zero hlength.symm)
      refine ⟨blanks ++ (k.masked ++ m), Spaced.cons hblank hblanks hm, ?_⟩
      intro t ht
      have hk : mask (k.text ++ (r ++ t)) = k.masked ++ mask (r ++ t) := by
        refine k.mask_append ?_
        intro hmark
        rw [hmark] at hr
        exact hr.head?_ne ht
      rw [List.append_assoc, hmask, List.append_assoc, hk, hback t ht]
      simp

end DocLint.Swift
