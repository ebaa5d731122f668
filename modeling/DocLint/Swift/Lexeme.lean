/-
Lexemes: code, comments and string literals of a Swift text.

`lexemes` cuts a text into pieces, each of one kind, that put together again are the
text.  Code comes one character at a time.  A line comment runs up to the next line
feed, a block comment up to the closing that matches its opening, for block comments
nest.  A string literal of several lines runs between triple quotes; one of a single
line ends at its closing quote, or with the line if that is missing.  What is still
open when the text ends has the text's end for its own, and is not `closed`.
-/
import DocLint.Text.Basic

namespace DocLint.Swift

/-! ### Spans -/

/-- The front of a text up to where something ends, and what follows. -/
structure Span where
  taken : Text
  rest : Text
  /-- Did it end before the text did? -/
  closed : Bool
  deriving Repr, DecidableEq

/-- The span with one more character at its front. -/
def Span.push (c : Char) (s : Span) : Span := { s with taken := c :: s.taken }

/-- Up to the next line feed, which is left to follow. -/
def lineTail : Text → Span
  | [] => ⟨[], [], false⟩
  | c :: r => if c = '\n' then ⟨[], c :: r, true⟩ else (lineTail r).push c

/-- Up to the closing of so many open block comments. -/
def blockTail : Nat → Text → Span
  | 0, t => ⟨[], t, true⟩
  | _ + 1, [] => ⟨[], [], false⟩
  | depth + 1, '/' :: '*' :: r => ((blockTail (depth + 2) r).push '*').push '/'
  | depth + 1, '*' :: '/' :: r => ((blockTail depth r).push '/').push '*'
  | depth + 1, c :: r => (blockTail (depth + 1) r).push c

/-- Through the next triple quotes. -/
def multilineTail : Text → Span
  | [] => ⟨[], [], false⟩
  | '\"' :: '\"' :: '\"' :: r => ⟨['\"', '\"', '\"'], r, true⟩
  | c :: r => (multilineTail r).push c

/-- Through the next quote or line feed that no backslash stands before. -/
def stringTail : Text → Span
  | [] => ⟨[], [], false⟩
  | '\\' :: c :: r => ((stringTail r).push c).push '\\'
  | c :: r => if c = '\"' ∨ c = '\n' then ⟨[c], r, true⟩ else (stringTail r).push c

/-- A span takes from the front of its text and leaves the rest. -/
theorem lineTail_append (t : Text) : (lineTail t).taken ++ (lineTail t).rest = t := by
  induction t with
  | nil => rfl
  | cons c r ih => by_cases h : c = '\n' <;> simp [lineTail, Span.push, h, ih]

theorem blockTail_append (depth : Nat) (t : Text) :
    (blockTail depth t).taken ++ (blockTail depth t).rest = t := by
  fun_induction blockTail depth t <;> simp_all [Span.push]

theorem multilineTail_append (t : Text) : (multilineTail t).taken ++ (multilineTail t).rest = t := by
  fun_induction multilineTail t <;> simp_all [Span.push]

theorem stringTail_append (t : Text) : (stringTail t).taken ++ (stringTail t).rest = t := by
  fun_induction stringTail t <;> simp_all [Span.push]

/-! ### Lexemes -/

/-- What a piece of a text is. -/
inductive LexemeKind where
  | code
  | lineComment
  | blockComment
  | multilineString
  | string
  deriving Repr, DecidableEq

/-- A piece of a text. -/
structure Lexeme where
  kind : LexemeKind
  text : Text
  closed : Bool
  deriving Repr, DecidableEq

/-- The lexeme that opens with `opening` and runs through the span. -/
def Lexeme.ofSpan (kind : LexemeKind) (opening : Text) (s : Span) : Lexeme × Text :=
  (⟨kind, opening ++ s.taken, s.closed⟩, s.rest)

/-- The lexeme that begins with a character, and the text after it. -/
def nextLexeme : Char → Text → Lexeme × Text
  | '/', '/' :: r => Lexeme.ofSpan .lineComment ['/', '/'] (lineTail r)
  | '/', '*' :: r => Lexeme.ofSpan .blockComment ['/', '*'] (blockTail 1 r)
  | '\"', '\"' :: '\"' :: r => Lexeme.ofSpan .multilineString ['\"', '\"', '\"'] (multilineTail r)
  | '\"', r => Lexeme.ofSpan .string ['\"'] (stringTail r)
  | c, r => (⟨.code, [c], true⟩, r)

/-- The lexeme and what follows it are the text. -/
theorem nextLexeme_append (c : Char) (r : Text) :
    (nextLexeme c r).1.text ++ (nextLexeme c r).2 = c :: r := by
  fun_cases nextLexeme c r <;>
    simp [Lexeme.ofSpan, lineTail_append, blockTail_append, multilineTail_append, stringTail_append]

/-- A lexeme takes at least its first character. -/
theorem nextLexeme_rest_length (c : Char) (r : Text) :
    (nextLexeme c r).2.length ≤ r.length := by
  have h := congrArg List.length (nextLexeme_append c r)
  have : 1 ≤ (nextLexeme c r).1.text.length := by
    fun_cases nextLexeme c r <;> simp [Lexeme.ofSpan]
  simp at h
  omega

/-- The lexemes of a text, in order. -/
def lexemes : Text → List Lexeme
  | [] => []
  | c :: r => (nextLexeme c r).1 :: lexemes (nextLexeme c r).2
termination_by t => t.length
decreasing_by
  have := nextLexeme_rest_length c r
  simp
  omega

/-- The lexemes put together are the text. -/
theorem lexemes_flatMap_text (t : Text) : (lexemes t).flatMap Lexeme.text = t := by
  fun_induction lexemes t with
  | case1 => rfl
  | case2 c r ih => rw [List.flatMap_cons, ih, nextLexeme_append]

end DocLint.Swift
