/-
What is read of a function that is declared on one line.

Blanks before a head are passed over, and no head begins inside a head or behind the last
opening parenthesis, so there is one head (`heads_function`).  Its clause ends at the first
closing parenthesis, and parameters that are written as a name and a type give their names
back (`parameterNames_join`).
-/
import DocLint.Proofs.Swift.Clause
import DocLint.Proofs.Swift.Head

namespace DocLint.Swift

/-! ### One head -/

theorem signature?_cons_of_blank {c : Char} (h : Text.isBlank c = true) (t : Text) :
    signature? (c :: t) = none := by
  cases hs : signature? (c :: t) with
  | none => rfl
  | some found =>
      obtain ⟨d, u, hcons, hd⟩ := exists_keyword_of_signature? (s := found.1) (r := found.2) hs
      obtain ⟨rfl, -⟩ := List.cons.inj hcons
      rcases hd with rfl | rfl
      · exact absurd h (by decide)
      · exact absurd h (by decide)

theorem headsFrom_append_of_allBlank {s : Text} (h : Text.allBlank s = true) (place : Nat)
    (previous : Option Char) (t : Text) :
    headsFrom place 0 previous (s ++ t) =
      headsFrom (place + s.length) 0 (s.getLast?.or previous) t := by
  induction s generalizing place previous with
  | nil => rfl
  | cons c s ih =>
      rw [Text.allBlank, List.all_cons, Bool.and_eq_true] at h
      have hnone : (if mayPrecede previous then signature? (c :: (s ++ t)) else none) = none := by
        rw [signature?_cons_of_blank h.1, ite_self]
      rw [List.cons_append, headsFrom, hnone]
      simp only
      rw [ih h.2, List.length_cons, List.getLast?_cons, Nat.add_assoc, Nat.add_comm 1]
      cases s.getLast? with
      | none => rfl
      | some _ => rfl

/-- The rest of a head that was found begins no further head. -/
theorem headsFrom_append_skip (s : Text) (place : Nat) (previous : Option Char) (t : Text) :
    headsFrom place s.length previous (s ++ t) =
      headsFrom (place + s.length) 0 (s.getLast?.or previous) t := by
  induction s generalizing place previous with
  | nil => rfl
  | cons c s ih =>
      rw [List.cons_append, List.length_cons, headsFrom, ih, List.getLast?_cons, Nat.add_assoc, Nat.add_comm 1]
      cases s.getLast? with
      | none => rfl
      | some _ => rfl

/-- Behind the last opening parenthesis there is no head. -/
theorem headsFrom_eq_nil {t : Text} (h : '(' ∉ t) (place : Nat) (previous : Option Char) :
    headsFrom place 0 previous t = [] := by
  refine List.eq_nil_iff_forall_not_mem.mpr ?_
  intro head hmem
  obtain ⟨before, rest, after, rfl, -, hsig, -⟩ := mem_headsFrom hmem
  have hsuffix := (of_signature? hsig).2
  exact h (List.mem_append_right _ (hsuffix.subset (by simp)))

/-- **A declaration behind spaces and line feeds is the one head of its text.** -/
theorem heads_function {blanks clause rest : Text} (hblanks : ∀ c ∈ blanks, c = ' ' ∨ c = '\n')
    (hclause : ∀ c ∈ clause, c ≠ '(' ∧ c ≠ '[' ∧ c ≠ ')' ∧ c ≠ ']') (hrest : '(' ∉ rest) :
    heads (blanks ++ ("func f(".toList ++ (clause ++ ')' :: rest))) =
      [⟨⟨.function, "f".toList⟩, blanks.length, blanks.length + 6, some clause⟩] := by
  have hall : Text.allBlank blanks = true := by
    rw [Text.allBlank_iff]
    intro c hc
    rcases hblanks c hc with rfl | rfl
    · rfl
    · rfl
  have hprevious : mayPrecede (blanks.getLast?.or none) = true := by
    cases hlast : blanks.getLast? with
    | none => rfl
    | some c =>
        rcases hblanks c (List.mem_of_getLast? hlast) with rfl | rfl
        · rfl
        · rfl
  have hbalanced : clause.Balanced opensBracket closesBracket := by
    refine Text.balanced_of_none ?_
    intro c hc
    obtain ⟨hround, hsquare, hround', hsquare'⟩ := hclause c hc
    simp [opensBracket, closesBracket, hround, hsquare, hround', hsquare']
  have hsig : signature? ('f' :: ("unc f(".toList ++ (clause ++ ')' :: rest))) =
      some (⟨.function, "f".toList⟩, clause ++ ')' :: rest) := rfl
  have hmore : ("unc f(".toList ++ (clause ++ ')' :: rest)).length
      - (clause ++ ')' :: rest).length = "unc f(".toList.length := by
    rw [List.length_append]
    omega
  have hbehind : '(' ∉ clause ++ ')' :: rest := by
    intro hmem
    rcases List.mem_append.mp hmem with hmem | hmem
    · exact (hclause _ hmem).1 rfl
    · rcases List.mem_cons.mp hmem with hmem | hmem
      · exact absurd hmem (by decide)
      · exact hrest hmem
  unfold heads
  rw [headsFrom_append_of_allBlank hall]
  change headsFrom _ 0 _ ('f' :: ("unc f(".toList ++ (clause ++ ')' :: rest))) = _
  rw [headsFrom]
  simp only [if_pos hprevious, hsig, hmore]
  rw [headsFrom_append_skip, headsFrom_eq_nil hbehind, clause?_append hbalanced]
  simp

/-! ### Names of parameters -/

/-- The text of a parameter of a simple type. -/
def simpleParameter (name : Text) : Text := name ++ ": Int".toList

theorem lastWord?_of_isIdentifier {name : Text} (h : Text.isIdentifier name = true) :
    Text.lastWord? name = some name := by
  have hblank := Text.not_blank_of_isIdentifier h
  have hdrop : name.reverse.dropWhile Text.isBlank = name.reverse := by
    refine dropWhile_append_of_stop (s := []) (by simp) ?_
    intro c hc
    exact hblank c (List.mem_reverse.mp (List.mem_of_head? hc))
  have htake : name.reverse.takeWhile (fun c => !Text.isBlank c) = name.reverse := by
    rw [List.takeWhile_eq_self_iff]
    intro c hc
    rw [hblank c (List.mem_reverse.mp hc)]
    rfl
  obtain ⟨c, r, hcons, -⟩ := Text.exists_cons_of_isIdentifier h
  unfold Text.lastWord?
  rw [hdrop, htake, List.reverse_reverse, hcons]

theorem withoutBackticks_of_isIdentifier {name : Text} (h : Text.isIdentifier name = true) :
    withoutBackticks name = name := by
  have htick : ∀ c ∈ name, (c == '\x60') = false :=
    fun c hc => beq_false_of_ne (Text.ne_of_isIdentifier h hc rfl)
  have hdrop : ∀ s : Text, (∀ c ∈ s, (c == '\x60') = false) → s.dropWhile (· == '\x60') = s := by
    intro s hs
    refine dropWhile_append_of_stop (s := []) (by simp) ?_
    intro c hc
    exact hs c (List.mem_of_head? hc)
  unfold withoutBackticks Text.dropEndWhile
  rw [hdrop name htick, hdrop name.reverse fun c hc => htick c (List.mem_reverse.mp hc),
    List.reverse_reverse]

/-- A simple parameter with the blanks before it, in its parts. -/
def writtenSimple (lead name : Text) : WrittenParameter := ⟨lead ++ name, " Int".toList, none⟩

theorem wellFormed_writtenSimple {lead name : Text} (hlead : ∀ c ∈ lead, c = ' ')
    (h : Text.isIdentifier name = true) : (writtenSimple lead name).WellFormed where
  head_plain := by
    intro c hc
    rcases List.mem_append.mp hc with hc | hc
    · rw [hlead c hc]
      decide
    · have hne : ∀ x, Text.isNameChar x = false → (c == x) = false :=
        fun x hx => beq_false_of_ne (Text.ne_of_isIdentifier h hc hx)
      refine ⟨?_, Text.ne_of_isIdentifier h hc rfl⟩
      simp only [isTypeChar, opensBracket, closesBracket, hne '(' rfl, hne '[' rfl, hne ')' rfl,
        hne ']' rfl, hne '<' rfl, hne '>' rfl, hne '=' rfl, hne ',' rfl, hne '-' rfl]
      rfl
  type_nested := by
    have hint : ∀ c ∈ " Int".toList, isTypeChar c = true := by decide
    exact nested_of_isTypeChar hint
  default_balanced := by
    intro value hvalue
    exact absurd hvalue (by simp [writtenSimple])
  default_plain := by
    intro value hvalue
    exact absurd hvalue (by simp [writtenSimple])

theorem names_writtenSimple {lead name : Text} (hlead : ∀ c ∈ lead, c = ' ')
    (h : Text.isIdentifier name = true) : (writtenSimple lead name).names = [name] := by
  have hblank : Text.allBlank lead = true := by
    rw [Text.allBlank_iff]
    intro c hc
    rw [hlead c hc]
    rfl
  show (Option.map withoutBackticks (Text.lastWord? (lead ++ name))).toList ++ [] = [name]
  rw [lastWord?_append_of_allBlank hblank, lastWord?_of_isIdentifier h, Option.map_some,
    withoutBackticks_of_isIdentifier h]
  rfl

/-- Simple parameters with a comma and a space between are a clause. -/
theorem join_simpleParameter (lead name : Text) (more : List Text) :
    lead ++ Text.join ", ".toList ((name :: more).map simpleParameter) =
      clauseOf (writtenSimple lead name :: more.map (writtenSimple [' '])) := by
  induction more generalizing lead name with
  | nil => simp [Text.join, clauseOf, simpleParameter, writtenSimple, WrittenParameter.text,
      WrittenParameter.front]
  | cons next more ih =>
      rw [List.map_cons (f := writtenSimple [' ']), clauseOf_cons_cons, ← ih]
      simp [Text.join, simpleParameter, writtenSimple, WrittenParameter.text,
        WrittenParameter.front]

/-- **Parameters that are a name and a type give back their names.** -/
theorem parameterNames_join {names : List Text} (h : ∀ n ∈ names, Text.isIdentifier n = true) :
    parameterNames (Text.join ", ".toList (names.map simpleParameter)) = names := by
  cases names with
  | nil => rfl
  | cons name more =>
      have hspace : ∀ c ∈ [' '], c = ' ' := by simp
      have hwell : ∀ p ∈ writtenSimple [] name :: more.map (writtenSimple [' ']), p.WellFormed := by
        intro p hp
        rcases List.mem_cons.mp hp with rfl | hp
        · exact wellFormed_writtenSimple (by simp) (h name (by simp))
        · obtain ⟨n, hn, rfl⟩ := List.mem_map.mp hp
          exact wellFormed_writtenSimple hspace (h n (by simp [hn]))
      have hmore : ∀ ns : List Text, (∀ n ∈ ns, Text.isIdentifier n = true) →
          (ns.map (writtenSimple [' '])).flatMap WrittenParameter.names = ns := by
        intro ns hns
        induction ns with
        | nil => rfl
        | cons n ns ih =>
            rw [List.map_cons, List.flatMap_cons, names_writtenSimple hspace (hns n (by simp)),
              ih fun x hx => hns x (by simp [hx])]
            rfl
      have hclause := join_simpleParameter [] name more
      rw [List.nil_append] at hclause
      rw [hclause, parameterNames_clauseOf hwell, List.flatMap_cons,
        names_writtenSimple (by simp) (h name (by simp)), hmore more fun x hx => h x (by simp [hx])]
      rfl

end DocLint.Swift
