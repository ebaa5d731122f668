/-
Tags: what a node has to be.

A tag is written in front of a node.  Where there is none, the form of a plain scalar
decides: nothing, a truth value, an integer in base two, eight, ten, sixteen or sixty, a
number with a fraction in base ten or sixty, a timestamp, and a text otherwise.
Underscores between digits do not count, and neither does a line feed at the end.
-/
import DocLint.Text.LowerCase
import DocLint.Yaml.Timestamp

namespace DocLint.Yaml

/-- What a node has to be. -/
inductive Tag where
  | null
  | bool
  | int
  | float
  | binary
  | timestamp
  | str
  | seq
  | map
  | omap
  | pairs
  | set
  /-- The key of a mapping whose entries are taken over. -/
  | merge
  /-- The key of a default value. -/
  | default
  /-- Something of which no value can be made. -/
  | other
  deriving Repr, DecidableEq

namespace Tag

/-- How the names of the tags begin that everybody knows. -/
def standard : Text := "tag:yaml.org,2002:".toList

/-- The tags by their names behind that beginning. -/
def names : List (Text × Tag) :=
  [("null".toList, null), ("bool".toList, bool), ("int".toList, int), ("float".toList, float),
    ("binary".toList, binary), ("timestamp".toList, timestamp), ("str".toList, str),
    ("seq".toList, seq), ("map".toList, map), ("omap".toList, omap), ("pairs".toList, pairs),
    ("set".toList, set), ("merge".toList, merge), ("value".toList, default)]

def ofName (name : Text) : Tag :=
  ((names.find? fun entry => standard ++ entry.1 == name).map (·.2)).getD other

end Tag

/-! ### Signs, digits and parts -/

def dropSign : Text → Text
  | '+' :: r => r
  | '-' :: r => r
  | t => t

/-- Is the character a digit or an underscore? -/
def isDigitOrGap (c : Char) : Bool := c.isDigit || c == '_'

/-- Is this a digit, and then digits and underscores? -/
def isNumeral : Text → Bool
  | [] => false
  | c :: r => c.isDigit && r.all isDigitOrGap

/-- Is this a number below sixty, of one digit or two? -/
def isSixtieth : Text → Bool
  | [a] => a.isDigit
  | [a, b] => '0' ≤ a && a ≤ '5' && b.isDigit
  | _ => false

/-- Is this an exponent?  It has to have a sign. -/
def isExponent : Text → Bool
  | e :: sign :: digits =>
    (e == 'e' || e == 'E') && (sign == '+' || sign == '-') && !digits.isEmpty
      && digits.all Char.isDigit
  | _ => false

/-! ### Forms -/

/-- The spellings of the truth values, in lower case. -/
def truthValue? (t : Text) : Option Bool :=
  if ["yes", "true", "on"].any (·.toList == t) then some true
  else if ["no", "false", "off"].any (·.toList == t) then some false
  else none

/-- Is a word in lower case, in upper case, or begun with a capital? -/
def isPlainlyCased (t : Text) : Bool :=
  t.all Char.isLower || t.all Char.isUpper
    || (t.head?.any Char.isUpper && (t.drop 1).all Char.isLower)

/-- Has the text the form of a truth value? -/
def isTruthValue (t : Text) : Bool := isPlainlyCased t && (truthValue? (Text.lower t)).isSome

def isNothing (t : Text) : Bool :=
  t.isEmpty || t == ['~'] || (isPlainlyCased t && Text.lower t == "null".toList)

/-- Has the text the form of an integer? -/
def isInteger (t : Text) : Bool :=
  match dropSign t with
  | '0' :: 'b' :: r => !r.isEmpty && r.all fun c => c == '0' || c == '1' || c == '_'
  | '0' :: 'x' :: r => !r.isEmpty && r.all fun c => (Text.hexValue? c).isSome || c == '_'
  | '0' :: r => r.all fun c => ('0' ≤ c && c ≤ '7') || c == '_'
  | body =>
    match Text.splitChar ':' body with
    | [] => false
    | whole :: sixtieths => isNumeral whole && sixtieths.all isSixtieth

/-- Has the text the form of a number with a fraction? -/
def isFraction (t : Text) : Bool :=
  let special := fun (names : List String) (t : Text) => names.any (·.toList == t)
  if special [".inf", ".Inf", ".INF"] (dropSign t) || special [".nan", ".NaN", ".NAN"] t then true
  else
    match t.span (· != '.') with
    | (_, []) => false
    | (whole, _ :: r) =>
      let more := r.dropWhile isDigitOrGap
      if whole.isEmpty then
        isNumeral (r.takeWhile isDigitOrGap) && (more.isEmpty || isExponent more)
      else
        match Text.splitChar ':' (dropSign whole) with
        | [] => false
        | whole :: sixtieths =>
          isNumeral whole && sixtieths.all isSixtieth
            && (more.isEmpty || (sixtieths.isEmpty && isExponent more))

/-- The text without a line feed at its end. -/
def dropFinalBreak (t : Text) : Text := if t.getLast? = some '\n' then t.dropLast else t

/-- The tag that the form of a plain scalar stands for. -/
def Tag.ofForm (t : Text) : Tag :=
  let form := dropFinalBreak t
  if t = ['\n'] then .str
  else if isTruthValue form then .bool
  else if isFraction form then .float
  else if isInteger form then .int
  else if form = "<<".toList then .merge
  else if isNothing form then .null
  else if Timestamp.isPlain form then .timestamp
  else if form = ['='] then .default
  else if form = ['!'] ∨ form = ['&'] ∨ form = ['*'] then .other
  else .str

end DocLint.Yaml
