/-
What a default value does to the names of a clause.

A clause gives the names of its parameters in order, so a default value can change them
only by the stray names that are read off the value itself.  Those are the names of what
stands behind its first comma outside round and square brackets, if there is one
(`strayNames_append_comma`); a value that keeps its commas inside adds none.  Braces are
no brackets to the split, and a closure that names two parameters adds a stray name.
-/
import DocLint.Proofs.Swift.Clause

namespace DocLint.Swift

/-- A default value in which brackets of each kind are balanced and angle brackets do not occur. -/
structure IsDefaultValue (value : Text) : Prop where
  round : value.Balanced (· == '(') (· == ')')
  square : value.Balanced (· == '[') (· == ']')
  braces : value.Balanced (· == '\x7b') (· == '\x7d')
  no_angle : ∀ c ∈ value, c ≠ '<' ∧ c ≠ '>'

namespace WrittenParameter

/-- The parameter with another default value. -/
def withDefault (p : WrittenParameter) (value : Text) : WrittenParameter :=
  { p with default := some value }

variable {p : WrittenParameter} {value : Text}

theorem WellFormed.withDefault (hp : p.WellFormed) (h : IsDefaultValue value) :
    (p.withDefault value).WellFormed where
  head_plain := hp.head_plain
  type_nested := hp.type_nested
  default_balanced := by
    intro _ hvalue
    obtain rfl := Option.some.inj hvalue
    refine h.round.or h.square ?_ ?_
    · intro c hc
      rw [eq_of_beq hc]
      rfl
    · intro c hc
      rw [eq_of_beq hc]
      rfl
  default_plain := by
    intro _ hvalue
    obtain rfl := Option.some.inj hvalue
    exact Or.inr h.no_angle

theorem names_withDefault (p : WrittenParameter) (value : Text) :
    (p.withDefault value).names = p.ownName?.toList ++ strayNames value := rfl

end WrittenParameter

variable {before after : List WrittenParameter} {p : WrittenParameter} {value value' : Text}

/-- The names of the other parameters do not depend on a default value, and stray names come
right behind the name of its parameter. -/
theorem parameterNames_withDefault (hbefore : ∀ x ∈ before, x.WellFormed)
    (hafter : ∀ x ∈ after, x.WellFormed) (hp : p.WellFormed) (h : IsDefaultValue value) :
    parameterNames (clauseOf (before ++ p.withDefault value :: after)) =
      before.flatMap WrittenParameter.names ++ p.ownName?.toList ++ strayNames value ++
        after.flatMap WrittenParameter.names := by
  have hall : ∀ x ∈ before ++ p.withDefault value :: after, x.WellFormed := by
    intro x hx
    rcases List.mem_append.mp hx with hx | hx
    · exact hbefore x hx
    · rcases List.mem_cons.mp hx with rfl | hx
      · exact hp.withDefault h
      · exact hafter x hx
  rw [parameterNames_clauseOf hall, List.flatMap_append, List.flatMap_cons,
    WrittenParameter.names_withDefault]
  simp only [List.append_assoc]

/-- **Two default values give the same names exactly when they add the same stray names**, in
particular when both keep their commas in round and square brackets. -/
theorem parameterNames_withDefault_iff (hbefore : ∀ x ∈ before, x.WellFormed)
    (hafter : ∀ x ∈ after, x.WellFormed) (hp : p.WellFormed) (h : IsDefaultValue value)
    (h' : IsDefaultValue value') :
    (parameterNames (clauseOf (before ++ p.withDefault value :: after)) =
        parameterNames (clauseOf (before ++ p.withDefault value' :: after)) ↔
      strayNames value = strayNames value') ∧
    (CommasInside value → strayNames value = []) ∧
    ∀ front back, CommasInside front → front.Balanced opensBracket closesBracket →
      value = front ++ ',' :: back → strayNames value = parameterNames back := by
  refine ⟨?_, ?_, ?_⟩
  · rw [parameterNames_withDefault hbefore hafter hp h,
      parameterNames_withDefault hbefore hafter hp h', List.append_left_inj, List.append_right_inj]
  · intro hcommas
    exact strayNames_eq_nil hcommas ((hp.withDefault h).default_balanced value rfl)
  · rintro front back hcommas hbalanced rfl
    exact strayNames_append_comma hcommas hbalanced back

/-! ### A closure -/

/-- `f: (Int, Int) -> Void`, before its default value. -/
def handler : WrittenParameter := ⟨"f".toList, " (Int, Int) -> Void ".toList, none⟩

theorem wellFormed_handler : handler.WellFormed where
  head_plain := by decide
  type_nested := by
    have hpair : Nested true "Int, Int".toList :=
      have hint : ∀ c ∈ "Int".toList ++ " Int".toList, isTypeChar c = true := by decide
      (nested_of_isTypeChar fun c hc => hint c (List.mem_append_left _ hc)).append
        (Nested.comma (nested_of_isTypeChar fun c hc => hint c (List.mem_append_right _ hc)))
    have hresult : Nested false " -> Void ".toList :=
      have hvoid : ∀ c ∈ " Void ".toList, isTypeChar c = true := by decide
      Nested.char rfl (Nested.arrow (nested_of_isTypeChar hvoid))
    exact Nested.char rfl (Nested.group (o := '(') (c := ')') (by simp) hpair hresult)
  default_balanced := by simp [handler]
  default_plain := by simp [handler]

def limit : WrittenParameter := ⟨" b".toList, " Int".toList, none⟩

theorem wellFormed_limit : limit.WellFormed where
  head_plain := by decide
  type_nested := by
    have hint : ∀ c ∈ " Int".toList, isTypeChar c = true := by decide
    exact nested_of_isTypeChar hint
  default_balanced := by simp [limit]
  default_plain := by simp [limit]

theorem isDefaultValue_closure : IsDefaultValue " \x7b _, _ in \x7d".toList where
  round := by decide
  square := by decide
  braces := by decide
  no_angle := by decide

theorem isDefaultValue_call : IsDefaultValue " max(by: [1, 2])".toList where
  round := by decide
  square := by decide
  braces := by decide
  no_angle := by decide

theorem isDefaultValue_literal : IsDefaultValue " nil".toList where
  round := by decide
  square := by decide
  braces := by decide
  no_angle := by decide

theorem parameterNames_withDefault_call :
    (handler.WellFormed ∧ limit.WellFormed ∧ IsDefaultValue " max(by: [1, 2])".toList ∧
      IsDefaultValue " nil".toList) ∧
    parameterNames (clauseOf ([] ++ handler.withDefault " max(by: [1, 2])".toList :: [limit])) =
      parameterNames (clauseOf ([] ++ handler.withDefault " nil".toList :: [limit])) :=
  ⟨⟨wellFormed_handler, wellFormed_limit, isDefaultValue_call, isDefaultValue_literal⟩,
    (parameterNames_withDefault_iff (by simp) (by simpa using wellFormed_limit) wellFormed_handler
      isDefaultValue_call isDefaultValue_literal).1.mpr (by decide)⟩

/-- The comma between the parameters of a closure parts, and the brace behind it is a name. -/
theorem parameterNames_withDefault_closure :
    (handler.WellFormed ∧ limit.WellFormed ∧ IsDefaultValue " \x7b _, _ in \x7d".toList ∧
      IsDefaultValue " nil".toList) ∧
    parameterNames (clauseOf ([] ++ handler.withDefault " \x7b _, _ in \x7d".toList :: [limit])) ≠
      parameterNames (clauseOf ([] ++ handler.withDefault " nil".toList :: [limit])) :=
  ⟨⟨wellFormed_handler, wellFormed_limit, isDefaultValue_closure, isDefaultValue_literal⟩,
    by decide⟩

end DocLint.Swift
