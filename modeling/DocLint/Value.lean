/-
Values of settings files, and how messages show them.

A settings file, whichever its format, holds nothing, truth values, numbers, texts,
lists and maps; some formats have dates, bytes, sets and pairs beside them, which no
setting takes.  A map keeps its entries in order; writing to a key that is there already
keeps the key's place (`Value.put`).  Two keys are the same when they are equal as values,
and numbers are compared by size, a truth value counting as zero or one.
-/
import DocLint.Calendar.Moment
import DocLint.Text.Quoted
import DocLint.Decimal.Notation

namespace DocLint

/-- A value of a settings file or of a report. -/
inductive Value where
  | null
  | bool (b : Bool)
  | int (n : Int)
  | float (x : Float)
  | text (t : Text)
  /-- A text with halves of surrogate pairs in it, by its code points. -/
  | brokenText (codes : List Nat)
  | bytes (b : List UInt8)
  | date (d : Date)
  | moment (m : Moment)
  | list (items : List Value)
  | pair (first second : Value)
  | set (members : List Value)
  | map (entries : List (Value × Value))
  /-- A list or map that encloses this place: a value may contain itself. -/
  | enclosing (isMap : Bool)
  deriving Inhabited

namespace Value

def record (fields : List (Text × Value)) : Value := .map (fields.map fun f => (.text f.1, f.2))

/-- The text of code points. -/
def ofCodes (codes : List Nat) : Value :=
  if codes.all Nat.isValidChar then .text (Text.ofCodes codes) else .brokenText codes

/-! ### Telling values apart -/

/-- The kind of a value, as messages name it. -/
def kind : Value → Text
  | null => "NoneType".toList
  | bool _ => "bool".toList
  | int _ => "int".toList
  | float _ => "float".toList
  | text _ => "str".toList
  | brokenText _ => "str".toList
  | bytes _ => "bytes".toList
  | date _ => "date".toList
  | moment _ => "datetime".toList
  | list _ => "list".toList
  | pair _ _ => "tuple".toList
  | set _ => "set".toList
  | map _ => "dict".toList
  | enclosing isMap => if isMap then "dict".toList else "list".toList

/-- Nothing, false, zero and what is empty count as no value at all. -/
def isVoid : Value → Bool
  | null => true
  | bool b => !b
  | int n => n == 0
  | float x => x == 0.0
  | text t => t.isEmpty
  | bytes b => b.isEmpty
  | list items => items.isEmpty
  | set members => members.isEmpty
  | map entries => entries.isEmpty
  | _ => false

/-- The entries of a map. -/
def entries? : Value → Option (List (Value × Value))
  | map entries => some entries
  | _ => none

/-- A map counts as no value just if there are no entries. -/
theorem isVoid_iff {v : Value} {entries : List (Value × Value)} (h : v.entries? = some entries) :
    v.isVoid = true ↔ entries = [] := by
  cases v with
  | map pairs =>
      obtain rfl := Option.some.inj h
      exact List.isEmpty_iff
  | _ => simp [entries?] at h

/-- The number that a key stands for among the integers. -/
def wholeNumber? : Value → Option Int
  | bool b => some (if b then 1 else 0)
  | int n => some n
  | float x => Decimal.toInt? x
  | _ => none

/-- Are two keys of a map the same?  Values that can change are no keys. -/
def sameKey : Value → Value → Bool
  | null, null => true
  | text s, text t => s == t
  | brokenText s, brokenText t => s == t
  | bytes s, bytes t => s == t
  | date s, date t => s == t
  | moment s, moment t => s.same t
  | float x, float y => x == y || (x.isNaN && y.isNaN)
  | a, b =>
    match a.wholeNumber?, b.wholeNumber? with
    | some m, some n => m == n
    | _, _ => false

/-- The entries with the value of a key replaced, or with the key added at the end. -/
def put (key value : Value) : List (Value × Value) → List (Value × Value)
  | [] => [(key, value)]
  | (k, v) :: more => if k.sameKey key then (k, value) :: more else (k, v) :: put key value more

def get? (key : Text) (entries : List (Value × Value)) : Option Value :=
  (entries.find? fun e => e.1.sameKey (.text key)).map (·.2)

/-! ### Showing values -/

/-- Items with a comma and a space between neighbours. -/
def commaList : List Text → Text := Text.join ", ".toList

mutual

/-- The value as a message shows it, texts quoted. -/
def shown : Value → Text
  | null => "None".toList
  | bool true => "True".toList
  | bool false => "False".toList
  | int n => Text.ofInt n
  | float x => Decimal.text x
  | text t => Text.quoted t
  | brokenText codes => Text.quotedCodes codes
  | bytes b => Text.quotedBytes b
  | date d => d.shown
  | moment m => m.shown
  | list items => ['['] ++ commaList (shownItems items) ++ [']']
  | pair a b => ['('] ++ commaList [shown a, shown b] ++ [')']
  | set [] => "set()".toList
  | set members => ['\x7b'] ++ commaList (shownItems members) ++ ['\x7d']
  | map entries => ['\x7b'] ++ commaList (shownEntries entries) ++ ['\x7d']
  | enclosing isMap => if isMap then ['\x7b', '.', '.', '.', '\x7d'] else "[...]".toList

def shownItems : List Value → List Text
  | [] => []
  | v :: more => shown v :: shownItems more

def shownEntries : List (Value × Value) → List Text
  | [] => []
  | (k, v) :: more => (shown k ++ ": ".toList ++ shown v) :: shownEntries more

end

/-- The value as a text: texts and times stand for themselves, all else as it is shown. -/
def plain : Value → Text
  | text t => t
  | brokenText codes => Text.ofCodes codes
  | date d => d.text
  | moment m => m.text
  | v => v.shown

end Value

end DocLint
