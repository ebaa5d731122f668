/-
Declaration heads: where in a mask functions and initializers are declared.

A head is the keyword with the name that it declares, type parameters in angle brackets
if there are any, and the parenthesis that opens the parameters.  It is looked for at
each character that neither a word character nor a point stands before, and the search
goes on behind the parenthesis.
-/
import DocLint.Text.Blank
import DocLint.Text.Word

namespace DocLint.Swift

inductive DeclarationKind where
  | function
  | initializer
  deriving Repr, DecidableEq

/-- The kind and the name of a declaration. -/
structure Signature where
  kind : DeclarationKind
  name : Text
  deriving Repr, DecidableEq

/-! ### Recognising a head -/

/-- What follows `word`, if the text begins with it. -/
def after? (word t : Text) : Option Text :=
  if word.isPrefixOf t then some (t.drop word.length) else none

/-- May the character stand among type parameters? -/
def isTypeParameterChar (c : Char) : Bool :=
  !(c == '(' || c == ')' || c == '\x7b' || c == '\x7d')

/-- What follows the opening parenthesis of a declaration, type parameters before it aside.
They close right before the parenthesis, because none can stand among them. -/
def afterParenthesis? (t : Text) : Option Text :=
  match Text.trimLeft t with
  | '(' :: r => some r
  | '<' :: r =>
    match r.dropWhile isTypeParameterChar with
    | '(' :: rest =>
      if (Text.trimRight (r.takeWhile isTypeParameterChar)).getLast? = some '>' then some rest
      else none
    | _ => none
  | _ => none

/-- The name at the front of a text, and what follows: any characters between backticks, or a
word that begins with an ASCII letter or the underscore. -/
def functionName? : Text → Option (Text × Text)
  | [] => none
  | c :: r =>
    if c = '\x60' then
      match r.takeWhile (· != '\x60'), r.dropWhile (· != '\x60') with
      | [], _ => none
      | _, [] => none
      | name, _ :: rest => some (name, rest)
    else if Text.isNameStart c then some (c :: r.takeWhile Text.isWord, r.dropWhile Text.isWord)
    else none

def functionHead? (t : Text) : Option (Signature × Text) := do
  let r ← after? "func".toList t
  if (Text.leadingBlanks r).isEmpty then none
  else
    let (name, r) ← functionName? (Text.trimLeft r)
    return (⟨.function, name⟩, ← afterParenthesis? r)

/-- The head of an initializer, which a mark of failability may follow. -/
def initializerHead? (t : Text) : Option (Signature × Text) := do
  let r ← after? "init".toList t
  let r := match r with
    | '?' :: r => r
    | '!' :: r => r
    | r => r
  return (⟨.initializer, "init".toList⟩, ← afterParenthesis? r)

/-- The head at the front of a text, and what follows its parenthesis. -/
def signature? (t : Text) : Option (Signature × Text) :=
  match functionHead? t with
  | some found => some found
  | none => initializerHead? t

/-- May a keyword begin after the character? -/
def mayPrecede : Option Char → Bool
  | none => true
  | some c => !(c == '.' || Text.isWord c)

/-! ### Finding heads -/

/-- The text up to the bracket that closes as many brackets as are open. -/
def clause? (depth : Nat) : Text → Option Text
  | [] => none
  | c :: r =>
    if c = '(' ∨ c = '[' then (clause? (depth + 1) r).map (c :: ·)
    else if c = ')' ∨ c = ']' then
      match depth with
      | 0 => some []
      | outer + 1 => (clause? outer r).map (c :: ·)
    else (clause? depth r).map (c :: ·)

/-- A head in a mask. -/
structure Head where
  signature : Signature
  /-- The place of the keyword, in characters. -/
  start : Nat
  /-- The place of the parenthesis, in characters. -/
  parenthesis : Nat
  /-- The text between the parentheses, if they are balanced. -/
  clause : Option Text
  deriving Repr, DecidableEq

/-- The heads from a place on, where `skip` characters belong to a head that was found. -/
def headsFrom (place skip : Nat) (previous : Option Char) : Text → List Head
  | [] => []
  | c :: r =>
    match skip with
    | skip + 1 => headsFrom (place + 1) skip (some c) r
    | 0 =>
      match if mayPrecede previous then signature? (c :: r) else none with
      | none => headsFrom (place + 1) 0 (some c) r
      | some (signature, rest) =>
        let more := r.length - rest.length
        ⟨signature, place, place + more, clause? 0 rest⟩ :: headsFrom (place + 1) more (some c) r

/-- The heads of a mask, in order. -/
def heads (masked : Text) : List Head := headsFrom 0 0 none masked

end DocLint.Swift
