/-
Console markup.

Brackets around a word that begins with a small letter are a tag: it sets a style and is
not shown.  A slash before the word ends the style.  Backslashes before a bracket keep
it from being a tag, two of them counting as one that is shown.  Text that is handed to
the console is read this way, whoever wrote it (`Markup.renderer`).
-/
import DocLint.Report.Console
import DocLint.Report.Drawing
import DocLint.Text.Blank
import DocLint.Text.LowerCase

namespace DocLint

/-- A tag that ends a style which has not begun. -/
structure UnmatchedTag where
  /-- What stands between the brackets. -/
  tag : Text
  /-- How many characters come before it. -/
  position : Nat
  deriving Repr, DecidableEq

namespace Markup

def beginsTag (c : Char) : Bool := ('a' ≤ c && c ≤ 'z') || c == '#' || c == '/' || c == '@'

/-- The tag at the beginning of a text, and what follows it. -/
def tag? : Text → Option (Text × Text)
  | '[' :: c :: r =>
    if beginsTag c then
      let body := r.takeWhile fun d => d != ']' && d != '['
      match r.drop body.length with
      | ']' :: rest => some (c :: body, rest)
      | _ => none
    else none
  | _ => none

/-- The name of a style, as names are compared. -/
def styleName (t : Text) : Text := Text.lower (Text.trim t)

/-- The name in a tag, without its parameters. -/
def tagName (tag : Text) : Text := Text.beforeChar '=' tag

/-- The styles that remain when one is ended: the innermost of its name, or the innermost of all
when the tag has no name. -/
def endStyle? (name : Text) : List Text → Option (List Text)
  | [] => none
  | style :: more =>
    if name.isEmpty ∨ style = styleName name then some more
    else (endStyle? name more).map (style :: ·)

/-- The styles that are set after a tag. -/
def afterTag? (tag : Text) (styles : List Text) : Option (List Text) :=
  match tagName tag with
  | '/' :: name => endStyle? (Text.trim name) styles
  | name => some (styleName name :: styles)

/-- What is shown of a text, at a position and with styles set, innermost first. -/
def shownFrom : Nat → Nat → List Text → Text → Except UnmatchedTag Text
  | 0, _, _, _ => .ok []
  | _ + 1, _, _, [] => .ok []
  | fuel + 1, position, styles, t =>
    let slashes := (t.takeWhile (· == '\\')).length
    match tag? (t.drop slashes) with
    | some (tag, rest) =>
      let next := position + slashes + tag.length + 2
      let kept := List.replicate (slashes / 2) '\\'
      if slashes % 2 = 1 then
        (shownFrom fuel next styles rest).map fun more => kept ++ ['['] ++ tag ++ [']'] ++ more
      else
        match afterTag? tag styles with
        | some styles => (shownFrom fuel next styles rest).map fun more => kept ++ more
        | none => .error ⟨tag, position + slashes⟩
    | none =>
      let kept := if (t.drop slashes).head? = some '[' then slashes - 1 else slashes
      (shownFrom fuel (position + slashes + 1) styles (t.drop (slashes + 1))).map fun more =>
        List.replicate kept '\\' ++ (t.drop slashes).take 1 ++ more

/-- What the console shows of a text. -/
def shown (t : Text) : Except UnmatchedTag Text := shownFrom (t.length + 1) 0 [] t

end Markup

/-- A tag without a name ends the innermost style, any other that of its name. -/
def UnmatchedTag.message (e : UnmatchedTag) : Text :=
  let isNamed := !(Text.trim ((Markup.tagName e.tag).drop 1)).isEmpty
  "closing tag '[".toList ++ e.tag ++ "]' at position ".toList ++ Text.ofNat e.position
    ++ (if isNamed then " doesn't match any open tag" else " has nothing to close").toList

/-- The console of the program. -/
def Markup.renderer : Renderer where
  shown t := (shown t).mapError fun e => ⟨e.message⟩
  lines := Table.lines

end DocLint
