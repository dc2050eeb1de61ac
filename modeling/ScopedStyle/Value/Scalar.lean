import ScopedStyle.Field.Basic
import ScopedStyle.Number.Numeral
import ScopedStyle.Value.Resolved

/-!
# Scalars

Values of one text: scalars, colors and alignments. The text of a string is
taken without the blanks around it; a number is written as a CSS numeral. A
choice must be one of the options, a number is brought within the bounds of its
field, and an alignment of the flex axis is put into the words of
`justify-content`.
-/

namespace ScopedStyle

/-- The text of a string, number or truth value in a style sheet. -/
def Json.scalarText? : Json → Option String
  | .str s => some (Text.trim s)
  | .num n => some n.toBinary64.toCss
  | .bool true => some "true"
  | .bool false => some "false"
  | .null | .arr _ | .obj _ => none

/-- The text of a scalar, unless it is empty. -/
def Json.nonEmptyText? (j : Json) : Option String :=
  j.scalarText?.filter (!·.isEmpty)

namespace Scalar

/-- A text alignment in the words of `justify-content`. -/
def flexWord (alignment : String) : String :=
  if alignment = "left" then "flex-start"
  else if alignment = "right" then "flex-end"
  else if alignment = "justify" then "space-between"
  else alignment

/-- A number brought within bounds, first the lower and then the upper one. A
    bound that is no number is none. -/
def clamp (min max : Option Binary64) (x : Binary64) : Binary64 :=
  let x := match min with
    | some m => x.max m
    | none => x
  match max with
  | some m => x.min m
  | none => x

/-- The text of a number field. What is empty stays empty. -/
def numberText? (f : Field) (value : Json) : Option String :=
  let written (x : Binary64) : String := (clamp f.min f.max x).toCss
  match value with
  | .num n => some (written n.toBinary64)
  | .str s =>
    let s := Text.trim s
    if s.isEmpty then some "" else (Binary64.ofText? s).map written
  | _ => none

/-- The text of a choice: empty, or one that the field allows. -/
def choiceText? (f : Field) (value : Json) : Option String :=
  value.scalarText?.filter fun text => text.isEmpty || f.allowsChoice text

/-- The text of a field of one text. -/
def text? (f : Field) (value : Json) : Option String :=
  match f.kind with
  | .number => numberText? f value
  | .select => choiceText? f value
  | .alignment =>
    (choiceText? f value).map fun text => if f.axis = some .flex then flexWord text else text
  | _ => value.scalarText?

/-- The tokens of a field of one text. -/
def tokens (f : Field) (text : String) : Tokens :=
  let t := Tokens.empty.insert Placeholder.value text
  if f.kind.tokenNames.contains Placeholder.unit then
    (t.insert Placeholder.unit (f.unit.getD "")).withSuffix f.unit
  else t

/-- The contribution of a stored value, if it keeps to the rules of its field. -/
def resolve? (f : Field) (value : Json) : Option Resolved :=
  (text? f value).map fun text => .ofTokens (tokens f text)

/-- The contribution of a field without any value. -/
def unset (f : Field) : Resolved :=
  .ofTokens (tokens f "")

end Scalar

end ScopedStyle
