/-
The grammar of lists of parameters.

What a section holds is said here without the reader.  `IsFirstRun` finds its text and
`IsBody` the lines that are read as a list; `Reads` says of a line which entry it is, and
`Offends` what is wrong with it.  A line at the indentation of the items either reads as an
entry or offends, one before it offends, and one behind it is passed over: `lineRole` is
the case distinction that every later proof makes, and the lemmas on `readItems` say what
the reader does in each case.  The main statement, `ofLines_grammar`, is that a section is
accepted exactly when no line of its body offends, and that otherwise the first line that
does is the one to blame.
-/
import DocLint.Doc.ParameterList
import DocLint.Proofs.Agree
import DocLint.Proofs.Text.Identifier

namespace DocLint

namespace Doc

/-! ### Bullets and keywords -/

/-- The line is a bullet with this text: blanks, the bullet, a space or a tab, perhaps more blanks,
and then the text. -/
inductive Bulleted : Text → Text → Prop
  | intro {front gap text : Text} {bullet space : Char} (hfront : Text.allBlank front = true)
      (hbullet : bullet = '-' ∨ bullet = '*' ∨ bullet = '+') (hspace : space = ' ' ∨ space = '\t')
      (hgap : Text.allBlank gap = true) (htext : text.Flush) :
      Bulleted (front ++ bullet :: space :: (gap ++ text)) text

/-- What an item says without the keyword, which only the flat form knows. -/
inductive BehindKeyword : ListForm → Text → Text → Prop
  | keyword {gap text : Text} (hgap : Text.allBlank gap = true) (htext : text.Flush) :
      BehindKeyword .flat ("Parameter ".toList ++ (gap ++ text)) text
  | plain {form : ListForm} {text : Text} (h : form = .flat → ¬"Parameter ".toList <+: text) :
      BehindKeyword form text text

theorem isBullet_iff {c : Char} : isBullet c = true ↔ c = '-' ∨ c = '*' ∨ c = '+' := by
  simp [isBullet, or_assoc]

theorem not_blank_of_isBullet {c : Char} (h : isBullet c = true) : Text.isBlank c = false := by
  rcases isBullet_iff.mp h with rfl | rfl | rfl
  · decide
  · decide
  · decide

theorem Bulleted.flush {content text : Text} (h : Bulleted content text) : text.Flush := by
  cases h with
  | intro _ _ _ _ htext => exact htext

theorem BehindKeyword.flush {form : ListForm} {text rest : Text} (h : BehindKeyword form text rest)
    (htext : text.Flush) : rest.Flush := by
  cases h with
  | keyword _ hrest => exact hrest
  | plain _ => exact htext

/-- **The reader of bullets finds the text of a bullet**, and nothing on any other line. -/
theorem bulletText?_eq_some_iff {content text : Text} :
    bulletText? content = some text ↔ Bulleted content text := by
  constructor
  · intro h
    obtain ⟨front, hcontent, hfront⟩ := Text.exists_flush content
    unfold bulletText? at h
    split at h
    · rename_i bullet space r htrim
      split at h
      · rename_i hmarks
        rw [Bool.and_eq_true, Bool.or_eq_true, beq_iff_eq, beq_iff_eq, isBullet_iff] at hmarks
        obtain rfl := Option.some.inj h
        obtain ⟨gap, hr, hgap⟩ := Text.exists_flush r
        have htext := Text.flush_trimLeft r
        generalize Text.trimLeft r = text at hr htext ⊢
        rw [hcontent, htrim, hr]
        exact Bulleted.intro hfront hmarks.1 hmarks.2 hgap htext
      · simp at h
    · simp at h
  · intro h
    cases h with
    | @intro front gap text bullet space hfront hbullet hspace hgap htext =>
        have hmark := isBullet_iff.mpr hbullet
        have htrim : Text.trimLeft (front ++ bullet :: space :: (gap ++ text)) =
            bullet :: space :: (gap ++ text) :=
          Text.trimLeft_append_of_flush hfront (Text.flush_cons.mpr (not_blank_of_isBullet hmark))
        unfold bulletText?
        rw [htrim]
        simp only
        rw [if_pos (by simpa [hmark] using hspace), Text.trimLeft_append_of_flush hgap htext]

theorem bulletText?_eq_none_iff {content : Text} :
    bulletText? content = none ↔ ∀ text, ¬Bulleted content text := by
  rw [Option.eq_none_iff_forall_ne_some]
  exact forall_congr' fun text => not_congr bulletText?_eq_some_iff

theorem withoutKeyword_keyword (r : Text) :
    withoutKeyword .flat ("Parameter ".toList ++ r) = Text.trimLeft r := by
  have hprefix : (parameterKeyword ++ [' ']).isPrefixOf ("Parameter ".toList ++ r) = true :=
    List.isPrefixOf_iff_prefix.mpr (List.prefix_append _ _)
  unfold withoutKeyword
  rw [if_pos ⟨rfl, hprefix⟩]
  exact Text.trimLeft_append_of_allBlank r (Text.allBlank_spaces 1)

theorem withoutKeyword_plain {form : ListForm} {text : Text}
    (h : form = .flat → ¬"Parameter ".toList <+: text) : withoutKeyword form text = text := by
  unfold withoutKeyword
  rw [if_neg]
  rintro ⟨hflat, hprefix⟩
  exact h hflat (List.isPrefixOf_iff_prefix.mp hprefix)

/-- **The keyword is taken off where it may stand**, with the blanks behind it. -/
theorem withoutKeyword_eq_iff {form : ListForm} {text rest : Text} :
    withoutKeyword form text = rest ↔ BehindKeyword form text rest := by
  constructor
  · intro h
    by_cases hkeyword : form = .flat ∧ "Parameter ".toList <+: text
    · obtain ⟨rfl, r, rfl⟩ := hkeyword
      obtain ⟨gap, hr, hgap⟩ := Text.exists_flush r
      have hrest := Text.flush_trimLeft r
      rw [withoutKeyword_keyword] at h
      rw [h] at hr hrest
      rw [hr]
      exact BehindKeyword.keyword hgap hrest
    · have hplain : form = .flat → ¬"Parameter ".toList <+: text :=
        fun hflat hprefix => hkeyword ⟨hflat, hprefix⟩
      rw [← h, withoutKeyword_plain hplain]
      exact BehindKeyword.plain hplain
  · intro h
    cases h with
    | keyword hgap htext => rw [withoutKeyword_keyword, Text.trimLeft_append_of_flush hgap htext]
    | plain hplain => exact withoutKeyword_plain hplain

/-! ### Items -/

/-- The line is the item that the entry stands for. -/
structure Reads (form : ListForm) (l : DocLine) (e : Entry) : Prop where
  line : e.line = l
  text : ∃ text, Bulleted l.content text ∧ BehindKeyword form text e.text
  name : ∃ front rest, e.text = front ++ ':' :: rest ∧ ':' ∉ front ∧ Text.allBlank front = false ∧
    e.name = Text.trim front

/-- What is wrong with a line, in a list whose items stand at an indentation. -/
inductive Offends (form : ListForm) (indent : Nat) (l : DocLine) : ListFault → Prop
  | uneven (h : l.indent < indent) : Offends form indent l (.uneven form)
  | notAnItem (h : l.indent = indent) (hnone : ∀ text, ¬Bulleted l.content text) :
      Offends form indent l .notAnItem
  | noColon {text rest : Text} (h : l.indent = indent) (htext : Bulleted l.content text)
      (hrest : BehindKeyword form text rest) (hcolon : ':' ∉ rest) : Offends form indent l .noColon
  | noName {text front rest : Text} (h : l.indent = indent) (htext : Bulleted l.content text)
      (hrest : BehindKeyword form text (front ++ ':' :: rest)) (hcolon : ':' ∉ front)
      (hblank : Text.allBlank front = true) : Offends form indent l .noName

/-- The line is an item that ends a flat list. -/
def IsCalloutAt (indent : Nat) (l : DocLine) : Prop :=
  l.indent = indent ∧ ∃ front rest, Bulleted l.content (front ++ ':' :: rest) ∧ ':' ∉ front ∧
    Text.trim front ∈ callouts

theorem isCallout_iff {text : Text} : isCallout text = true ↔
    ∃ front rest, text = front ++ ':' :: rest ∧ ':' ∉ front ∧ Text.trim front ∈ callouts := by
  unfold isCallout
  rw [Bool.and_eq_true, Text.contains_iff_exists_append, List.contains_iff_mem]
  constructor
  · rintro ⟨⟨front, rest, rfl, hcolon⟩, hmem⟩
    rw [Text.beforeChar_append hcolon] at hmem
    exact ⟨front, rest, rfl, hcolon, hmem⟩
  · rintro ⟨front, rest, rfl, hcolon, hmem⟩
    rw [Text.beforeChar_append hcolon]
    exact ⟨⟨front, rest, rfl, hcolon⟩, hmem⟩

/-- A line is passed over, is an item, or is to blame. -/
inductive LineRole (form : ListForm) (indent : Nat) (l : DocLine) : Prop
  | deeper (h : indent < l.indent)
  | item {e : Entry} (h : l.indent = indent) (he : Reads form l e)
  | offends {fault : ListFault} (h : Offends form indent l fault)

/-- **Every line has its role.** -/
theorem lineRole (form : ListForm) (indent : Nat) (l : DocLine) : LineRole form indent l := by
  rcases Nat.lt_trichotomy l.indent indent with hlt | heq | hgt
  · exact LineRole.offends (Offends.uneven hlt)
  · cases hbullet : bulletText? l.content with
    | none => exact LineRole.offends (Offends.notAnItem heq (bulletText?_eq_none_iff.mp hbullet))
    | some text =>
        have htext := bulletText?_eq_some_iff.mp hbullet
        have hrest : BehindKeyword form text (withoutKeyword form text) :=
          withoutKeyword_eq_iff.mp rfl
        by_cases hcolon : (withoutKeyword form text).contains ':' = true
        · obtain ⟨front, rest, hsplit, hfront⟩ := Text.contains_iff_exists_append.mp hcolon
          rw [hsplit] at hrest
          cases hblank : Text.allBlank front with
          | true => exact LineRole.offends (Offends.noName heq htext hrest hfront hblank)
          | false =>
              refine LineRole.item (e := ⟨Text.trim front, front ++ ':' :: rest, l⟩) heq ?_
              exact ⟨rfl, ⟨text, htext, hrest⟩, front, rest, rfl, hfront, hblank, rfl⟩
        · exact LineRole.offends (Offends.noColon heq htext hrest (by simpa using hcolon))
  · exact LineRole.deeper hgt

theorem Offends.indent_le {form : ListForm} {indent : Nat} {l : DocLine} {fault : ListFault}
    (h : Offends form indent l fault) : l.indent ≤ indent := by
  cases h with
  | uneven h => exact Nat.le_of_lt h
  | notAnItem h _ => exact Nat.le_of_eq h
  | noColon h _ _ _ => exact Nat.le_of_eq h
  | noName h _ _ _ _ => exact Nat.le_of_eq h

/-- An item is not to blame for anything. -/
theorem Reads.not_offends {form : ListForm} {indent : Nat} {l : DocLine} {e : Entry}
    (he : Reads form l e) (h : l.indent = indent) {fault : ListFault} :
    ¬Offends form indent l fault := by
  obtain ⟨text, htext, hkeyword⟩ := he.text
  obtain ⟨front, rest, hsplit, hfront, hblank, -⟩ := he.name
  have hbullet := bulletText?_eq_some_iff.mpr htext
  have hrest := withoutKeyword_eq_iff.mpr hkeyword
  intro hoffends
  cases hoffends with
  | uneven hlt => omega
  | notAnItem _ hnone => exact hnone text htext
  | noColon _ htext' hkeyword' hcolon =>
      rw [bulletText?_eq_some_iff.mpr htext'] at hbullet
      obtain rfl := Option.some.inj hbullet
      rw [withoutKeyword_eq_iff.mpr hkeyword'] at hrest
      rw [hrest, hsplit] at hcolon
      simp at hcolon
  | noName _ htext' hkeyword' hfront' hblank' =>
      rw [bulletText?_eq_some_iff.mpr htext'] at hbullet
      obtain rfl := Option.some.inj hbullet
      rw [withoutKeyword_eq_iff.mpr hkeyword', hsplit] at hrest
      have hbefore := congrArg (Text.beforeChar ':') hrest
      rw [Text.beforeChar_append hfront, Text.beforeChar_append hfront'] at hbefore
      rw [hbefore, hblank] at hblank'
      simp at hblank'

/-! ### Reading one line -/

variable {form : ListForm} {indent : Nat} {l : DocLine} {more body rest : List DocLine}
  {entries : List Entry}

theorem readItems_deeper (h : indent < l.indent) (more : List DocLine) :
    readItems form indent (l :: more) = readItems form indent more := by
  rw [readItems, if_neg (by omega), if_pos h]

theorem readItems_callout (h : IsCalloutAt indent l) (more : List DocLine) :
    readItems .flat indent (l :: more) = .ok [] := by
  obtain ⟨hindent, front, rest, htext, hfront, hmem⟩ := h
  have hcallout : isCallout (front ++ ':' :: rest) = true :=
    isCallout_iff.mpr ⟨front, rest, rfl, hfront, hmem⟩
  rw [readItems, if_neg (by omega), if_neg (by omega), bulletText?_eq_some_iff.mpr htext]
  simp only
  rw [if_pos ⟨trivial, hcallout⟩]

/-- A bullet at the indentation of the items is read as an entry, unless it is a callout. -/
theorem readItems_bullet {text : Text} (hindent : l.indent = indent)
    (htext : Bulleted l.content text) (hcallout : form = .flat → ¬IsCalloutAt indent l)
    (more : List DocLine) : readItems form indent (l :: more) =
      (readEntry form l text >>= fun e => (readItems form indent more).map (e :: ·)) := by
  have hnot : ¬(form = .flat ∧ isCallout text = true) := by
    rintro ⟨hflat, h⟩
    obtain ⟨front, rest, rfl, hfront, hmem⟩ := isCallout_iff.mp h
    exact hcallout hflat ⟨hindent, front, rest, htext, hfront, hmem⟩
  rw [readItems, if_neg (by omega), if_neg (by omega), bulletText?_eq_some_iff.mpr htext]
  simp only
  rw [if_neg hnot]
  cases readEntry form l text with
  | error e => rfl
  | ok e =>
      cases readItems form indent more with
      | error e => rfl
      | ok es => rfl

theorem readItems_item {e : Entry} (hindent : l.indent = indent) (he : Reads form l e)
    (hcallout : form = .flat → ¬IsCalloutAt indent l) (more : List DocLine) :
    readItems form indent (l :: more) = (readItems form indent more).map (e :: ·) := by
  obtain ⟨text, htext, hkeyword⟩ := he.text
  obtain ⟨front, w, hsplit, hfront, hblank, hname⟩ := he.name
  have hentry : readEntry form l text = .ok e := by
    have hne : (Text.trim front).isEmpty = false := by
      rw [List.isEmpty_eq_false_iff, Ne, Text.trim_eq_nil_iff, hblank]
      simp
    unfold readEntry
    simp only
    rw [withoutKeyword_eq_iff.mpr hkeyword, hsplit, Text.beforeChar_append hfront, hne]
    rw [if_neg (by simp), if_neg (by simp), ← hsplit, ← hname, ← he.line]
  rw [readItems_bullet hindent htext hcallout, hentry]
  rfl

/-- A line that offends is to blame, whatever stands below it. -/
theorem readItems_offends {fault : ListFault} (h : Offends form indent l fault)
    (hcallout : form = .flat → ¬IsCalloutAt indent l) (more : List DocLine) :
    readItems form indent (l :: more) = .error ⟨fault, l⟩ := by
  cases h with
  | uneven hlt => rw [readItems, if_pos hlt]
  | notAnItem hindent hnone =>
      rw [readItems, if_neg (by omega), if_neg (by omega), bulletText?_eq_none_iff.mpr hnone]
  | noColon hindent htext hkeyword hcolon =>
      rw [readItems_bullet hindent htext hcallout]
      unfold readEntry
      simp only
      rw [withoutKeyword_eq_iff.mpr hkeyword, if_pos (by simpa using hcolon)]
      rfl
  | noName hindent htext hkeyword hfront hblank =>
      rw [readItems_bullet hindent htext hcallout]
      unfold readEntry
      simp only
      rw [withoutKeyword_eq_iff.mpr hkeyword, Text.beforeChar_append hfront,
        Text.trim_eq_nil_iff.mpr hblank, if_neg (by simp), if_pos (by simp)]
      rfl

/-! ### Reading a body -/

/-- A flat list ends at a callout. -/
theorem readItems_append (hbody : ∀ l ∈ body, ¬IsCalloutAt indent l)
    (hrest : ∀ l, rest.head? = some l → IsCalloutAt indent l) :
    readItems .flat indent (body ++ rest) = readItems .flat indent body := by
  induction body with
  | nil =>
      cases rest with
      | nil => rfl
      | cons l rest => exact readItems_callout (hrest l rfl) rest
  | cons l body ih =>
      have hcallout : ListForm.flat = .flat → ¬IsCalloutAt indent l := fun _ => hbody l (by simp)
      have hmore := ih fun x hx => hbody x (by simp [hx])
      rw [List.cons_append]
      cases lineRole .flat indent l with
      | deeper h => rw [readItems_deeper h, readItems_deeper h, hmore]
      | item h he => rw [readItems_item h he hcallout, readItems_item h he hcallout, hmore]
      | offends h => rw [readItems_offends h hcallout, readItems_offends h hcallout]

/-- A line is not to blame when it is deep enough, and an item if it is no deeper than that. -/
theorem not_offends_iff : (∀ fault, ¬Offends form indent l fault) ↔
    indent ≤ l.indent ∧ (l.indent = indent → ∃ e, Reads form l e) := by
  constructor
  · intro hnot
    cases lineRole form indent l with
    | deeper h => exact ⟨Nat.le_of_lt h, fun heq => absurd heq (by omega)⟩
    | item h he => exact ⟨Nat.le_of_eq h.symm, fun _ => ⟨_, he⟩⟩
    | offends h => exact absurd h (hnot _)
  · rintro ⟨hle, hitem⟩ fault hoffends
    have heq : l.indent = indent := Nat.le_antisymm hoffends.indent_le hle
    obtain ⟨e, he⟩ := hitem heq
    exact he.not_offends heq hoffends

/-- **A body without a line to blame is read as its items; otherwise the first such line is
reported.**  The induction follows the reader, one case for each role of the line. -/
theorem readItems_cases (hbody : form = .flat → ∀ l ∈ body, ¬IsCalloutAt indent l) :
    (∃ entries, readItems form indent body = .ok entries ∧
      (∀ l ∈ body, ∀ fault, ¬Offends form indent l fault) ∧
      List.Forall₂ (Reads form) (body.filter fun l => l.indent = indent) entries) ∨
    ∃ e, readItems form indent body = .error e ∧ ∃ before after, body = before ++ e.line :: after ∧
      (∀ l ∈ before, ∀ fault, ¬Offends form indent l fault) ∧ Offends form indent e.line e.fault := by
  induction body with
  | nil => exact Or.inl ⟨[], rfl, by simp, List.Forall₂.nil⟩
  | cons l body ih =>
      have hcallout : form = .flat → ¬IsCalloutAt indent l := fun hflat => hbody hflat l (by simp)
      have hmore := ih fun hflat x hx => hbody hflat x (by simp [hx])
      cases lineRole form indent l with
      | deeper h =>
          have hl : ∀ fault, ¬Offends form indent l fault := fun _ hoffends =>
            absurd hoffends.indent_le (by omega)
          rw [readItems_deeper h]
          rcases hmore with ⟨entries, hread, hnot, hall⟩ | ⟨e, hread, before, after, rfl, hnot, hoffends⟩
          · refine Or.inl ⟨entries, hread, List.forall_mem_cons.mpr ⟨hl, hnot⟩, ?_⟩
            rwa [List.filter_cons_of_neg (by simp; omega)]
          · exact Or.inr ⟨e, hread, l :: before, after, rfl,
              List.forall_mem_cons.mpr ⟨hl, hnot⟩, hoffends⟩
      | @item x h hx =>
          have hl : ∀ fault, ¬Offends form indent l fault := fun _ => hx.not_offends h
          rw [readItems_item h hx hcallout]
          rcases hmore with ⟨entries, hread, hnot, hall⟩ | ⟨e, hread, before, after, rfl, hnot, hoffends⟩
          · refine Or.inl ⟨x :: entries, by rw [hread]; rfl, List.forall_mem_cons.mpr ⟨hl, hnot⟩, ?_⟩
            rw [List.filter_cons_of_pos (by simpa using h)]
            exact List.Forall₂.cons hx hall
          · exact Or.inr ⟨e, by rw [hread]; rfl, l :: before, after, rfl,
              List.forall_mem_cons.mpr ⟨hl, hnot⟩, hoffends⟩
      | offends h =>
          exact Or.inr ⟨_, readItems_offends h hcallout body, [], body, rfl, by simp, h⟩

/-! ### Bodies -/

/-- The first run of lines with text, behind blank lines if there are any: it goes on until the
next blank line, or to the end of the section. -/
structure IsFirstRun (lines run : List DocLine) : Prop where
  text : ∀ l ∈ run, l.isBlank = false
  place : ∃ blanks rest, lines = blanks ++ run ++ rest ∧ (∀ l ∈ blanks, l.isBlank = true) ∧
    (∀ l, rest.head? = some l → l.isBlank = true) ∧ (run = [] → rest = [])

/-- The lines of a run that are read as a list, its form, and the indentation of its items. -/
inductive IsBody : List DocLine → ListForm → Nat → List DocLine → Prop
  /-- A section without text. -/
  | empty : IsBody [] .flat 0 []
  /-- The lines below the header that are deeper than it. -/
  | nested {header : DocLine} {body rest : List DocLine} {indent : Nat}
      (hheader : Text.trim header.content = parametersHeader)
      (hbody : ∀ l ∈ body, header.indent < l.indent)
      (hrest : ∀ l, rest.head? = some l → l.indent ≤ header.indent)
      (hindent : ∀ l, body.head? = some l → l.indent = indent) :
      IsBody (header :: (body ++ rest)) .nested indent body
  /-- The lines before the first callout. -/
  | flat {first : DocLine} {body rest : List DocLine} (hfirst : (body ++ rest).head? = some first)
      (hheader : Text.trim first.content ≠ parametersHeader)
      (hbody : ∀ l ∈ body, ¬IsCalloutAt first.indent l)
      (hrest : ∀ l, rest.head? = some l → IsCalloutAt first.indent l) :
      IsBody (body ++ rest) .flat first.indent body

theorem IsBody.not_callout {run : List DocLine} (h : IsBody run form indent body) :
    form = .flat → ∀ l ∈ body, ¬IsCalloutAt indent l := by
  intro hflat
  cases h with
  | empty => simp
  | nested _ _ _ _ => exact absurd hflat (by simp)
  | flat _ _ hbody _ => exact hbody

theorem IsBody.subset {run : List DocLine} (h : IsBody run form indent body) : body ⊆ run := by
  cases h with
  | empty => exact List.Subset.refl _
  | nested _ _ _ _ =>
      intro l hl
      simp [hl]
  | flat _ _ _ _ => exact List.subset_append_left _ _

theorem isFirstRun_firstRun (lines : List DocLine) :
    IsFirstRun lines (ParameterList.firstRun lines) := by
  have hsplit := List.takeWhile_append_dropWhile (p := DocLine.isBlank) (l := lines)
  have hhead := List.head?_dropWhile_not DocLine.isBlank lines
  unfold ParameterList.firstRun
  generalize lines.dropWhile DocLine.isBlank = behind at hsplit hhead ⊢
  have hbehind := List.takeWhile_append_dropWhile (p := fun l : DocLine => !l.isBlank) (l := behind)
  have hrest := List.head?_dropWhile_not (fun l : DocLine => !l.isBlank) behind
  refine ⟨?_, lines.takeWhile DocLine.isBlank, behind.dropWhile fun l => !l.isBlank, ?_, ?_, ?_, ?_⟩
  · intro l hl
    simpa using List.mem_takeWhile_imp hl
  · rw [List.append_assoc, hbehind, hsplit]
  · intro l hl
    exact List.mem_takeWhile_imp hl
  · intro l hl
    rw [hl] at hrest
    simpa using hrest
  · intro hnil
    cases behind with
    | nil => rfl
    | cons l behind =>
        have hl : l.isBlank = false := by simpa using hhead
        rw [List.takeWhile_cons_of_pos (by simp [hl])] at hnil
        simp at hnil

/-- There is only one. -/
theorem IsFirstRun.firstRun_eq {lines run : List DocLine} (h : IsFirstRun lines run) :
    ParameterList.firstRun lines = run := by
  obtain ⟨blanks, rest, rfl, hblanks, hrest, hempty⟩ := h.place
  have hdrop : (blanks ++ run ++ rest).dropWhile DocLine.isBlank = run ++ rest := by
    rw [List.append_assoc]
    refine dropWhile_append_of_stop hblanks ?_
    intro l hl
    cases run with
    | nil => simp [hempty rfl] at hl
    | cons x run =>
        obtain rfl : x = l := by simpa using hl
        exact h.text x (by simp)
  unfold ParameterList.firstRun
  rw [hdrop]
  refine takeWhile_append_of_stop ?_ ?_
  · intro l hl
    simp [h.text l hl]
  · intro l hl
    simp [hrest l hl]

/-- A list is what stands before the first element with a property, and a rest. -/
theorem exists_append_first {α : Type} (p : α → Prop) (xs : List α) : ∃ before rest,
    xs = before ++ rest ∧ (∀ x ∈ before, ¬p x) ∧ ∀ x, rest.head? = some x → p x := by
  induction xs with
  | nil => exact ⟨[], [], rfl, by simp, by simp⟩
  | cons x xs ih =>
      by_cases hx : p x
      · exact ⟨[], x :: xs, rfl, by simp, by simpa using hx⟩
      · obtain ⟨before, rest, rfl, hbefore, hrest⟩ := ih
        exact ⟨x :: before, rest, rfl, List.forall_mem_cons.mpr ⟨hx, hbefore⟩, hrest⟩

/-- **Every section has a body, and what is read of the section is what is read of it.** -/
theorem exists_body (lines : List DocLine) : ∃ form indent body,
    IsBody (ParameterList.firstRun lines) form indent body ∧
      ParameterList.ofLines lines = (readItems form indent body).map fun es => ⟨form, es⟩ := by
  unfold ParameterList.ofLines
  cases ParameterList.firstRun lines with
  | nil => exact ⟨.flat, 0, [], IsBody.empty, rfl⟩
  | cons first more =>
      simp only
      by_cases hheader : Text.trim first.content = parametersHeader
      · obtain ⟨body, rest, rfl, hbody, hrest⟩ :=
          exists_append_first (fun l => l.indent ≤ first.indent) more
        have hdeeper : ∀ l ∈ body, first.indent < l.indent := fun l hl => Nat.lt_of_not_le (hbody l hl)
        have htake : (body ++ rest).takeWhile (fun l => decide (first.indent < l.indent)) = body := by
          refine takeWhile_append_of_stop ?_ ?_
          · intro l hl
            simpa using hdeeper l hl
          · intro l hl
            simpa using hrest l hl
        refine ⟨.nested, (body.head?.map DocLine.indent).getD 0, body, ?_, ?_⟩
        · refine IsBody.nested hheader hdeeper hrest ?_
          intro l hl
          rw [hl]
          rfl
        · rw [if_pos hheader]
          unfold ParameterList.nested
          simp only [htake]
          cases readItems .nested ((body.head?.map DocLine.indent).getD 0) body with
          | error e => rfl
          | ok es => rfl
      · obtain ⟨body, rest, hsplit, hbody, hrest⟩ :=
          exists_append_first (IsCalloutAt first.indent) (first :: more)
        rw [if_neg hheader, hsplit, readItems_append hbody hrest]
        exact ⟨.flat, first.indent, body, IsBody.flat (by rw [← hsplit]; rfl) hheader hbody hrest, rfl⟩

/-- **A section without a line to blame is read as the items of its body; otherwise the first such
line is reported.** -/
theorem ofLines_cases (lines : List DocLine) : ∃ form indent body,
    IsBody (ParameterList.firstRun lines) form indent body ∧
      ((∃ entries, ParameterList.ofLines lines = .ok ⟨form, entries⟩ ∧
          (∀ l ∈ body, ∀ fault, ¬Offends form indent l fault) ∧
          List.Forall₂ (Reads form) (body.filter fun l => l.indent = indent) entries) ∨
        ∃ e, ParameterList.ofLines lines = .error e ∧ ∃ before after,
          body = before ++ e.line :: after ∧
          (∀ l ∈ before, ∀ fault, ¬Offends form indent l fault) ∧
          Offends form indent e.line e.fault) := by
  obtain ⟨form, indent, body, hbody, hread⟩ := exists_body lines
  refine ⟨form, indent, body, hbody, ?_⟩
  rcases readItems_cases hbody.not_callout with ⟨entries, hok, hall⟩ | ⟨e, herror, hfirst⟩
  · exact Or.inl ⟨entries, by rw [hread, hok]; rfl, hall⟩
  · exact Or.inr ⟨e, by rw [hread, herror]; rfl, hfirst⟩

/-- Every entry of a list is read on the line that it holds, which is one of the first run. -/
theorem reads_of_mem {lines : List DocLine} {list : ParameterList}
    (h : ParameterList.ofLines lines = .ok list) {e : Entry} (he : e ∈ list.entries) :
    e.line ∈ ParameterList.firstRun lines ∧ Reads list.form e.line e := by
  obtain ⟨form, indent, body, hbody, hcases⟩ := ofLines_cases lines
  rcases hcases with ⟨entries, hok, -, hall⟩ | ⟨error, herror, -⟩
  · rw [hok] at h
    obtain rfl := Except.ok.inj h
    obtain ⟨l, hl, hreads⟩ := exists_left_of_mem hall he
    rw [hreads.line]
    exact ⟨hbody.subset (List.mem_filter.mp hl).1, hreads⟩
  · rw [herror] at h
    simp at h

end Doc

namespace ParameterList

open Doc

/-- Lines that all have text are one run. -/
theorem firstRun_eq {lines : List DocLine} (h : ∀ l ∈ lines, l.isBlank = false) :
    firstRun lines = lines :=
  IsFirstRun.firstRun_eq ⟨h, [], [], by simp, by simp, by simp, by simp⟩

/-- **The lists that are accepted, and what is read of them.**  A section has a body: the lines of
its first run that a list of its form consists of.  It is accepted exactly when every line of the
body is at least as deep as the items and reads as one if it is no deeper.  The entries are then
what these lines read as, in their order.  Otherwise the first line of the body that offends is
reported, and what is wrong with it. -/
theorem ofLines_grammar (lines : List DocLine) : ∃ run form indent body,
    IsFirstRun lines run ∧ IsBody run form indent body ∧
      ((∃ list, ofLines lines = .ok list) ↔
        ∀ l ∈ body, indent ≤ l.indent ∧ (l.indent = indent → ∃ e, Reads form l e)) ∧
      (∀ list, ofLines lines = .ok list → list.form = form ∧
        List.Forall₂ (Reads form) (body.filter fun l => l.indent = indent) list.entries) ∧
      ∀ e, ofLines lines = .error e → ∃ before after, body = before ++ e.line :: after ∧
        (∀ l ∈ before, ∀ fault, ¬Offends form indent l fault) ∧
        Offends form indent e.line e.fault := by
  obtain ⟨form, indent, body, hbody, hcases⟩ := ofLines_cases lines
  refine ⟨firstRun lines, form, indent, body, isFirstRun_firstRun lines, hbody, ?_⟩
  rcases hcases with
    ⟨entries, hok, hnot, hall⟩ | ⟨e, herror, before, after, hsplit, hbefore, hoffends⟩
  · rw [hok]
    refine ⟨?_, ?_, ?_⟩
    · exact ⟨fun _ l hl => not_offends_iff.mp (hnot l hl), fun _ => ⟨_, rfl⟩⟩
    · intro list hlist
      obtain rfl := Except.ok.inj hlist
      exact ⟨rfl, hall⟩
    · intro e he
      simp at he
  · rw [herror]
    refine ⟨?_, ?_, ?_⟩
    · constructor
      · rintro ⟨list, hlist⟩
        simp at hlist
      · intro hall
        have hline := hall e.line (by rw [hsplit]; simp)
        exact absurd hoffends (not_offends_iff.mpr hline e.fault)
    · intro list hlist
      simp at hlist
    · intro e' he'
      obtain rfl := Except.error.inj he'
      exact ⟨before, after, hsplit, hbefore, hoffends⟩

end ParameterList

end DocLint
