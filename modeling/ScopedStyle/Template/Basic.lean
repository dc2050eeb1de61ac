import ScopedStyle.Template.Token

/-!
# Templates

A template is its text. Its segments are the placeholders and, between them, the
literals, each as long as can be. Rendering replaces every placeholder that the
lookup knows and keeps the others as they are written, so that a mistyped name
shows in the output. What is put in is not read again.
-/

namespace ScopedStyle

/-- The name of the placeholder for the scoping selector. -/
def Placeholder.wrapper : String := "WRAPPER"

/-- The name of the placeholder for the value of a field. -/
def Placeholder.value : String := "VALUE"

/-- The name of the placeholder for the unit of a field. -/
def Placeholder.unit : String := "UNIT"

/-- A placeholder as it is written. -/
def Placeholder.writtenText (name : String) : String :=
  String.ofList (Placeholder.written name.toList)

/-- A piece of a template. -/
inductive Segment where
  /-- Text that stays as it is. -/
  | literal (s : String)
  /-- A placeholder, by its name. -/
  | placeholder (name : String)
  deriving DecidableEq

namespace Segment

/-- The segments with a text in front, as part of the first literal if there is
    one at the front. -/
def consText (s : String) : List Segment → List Segment
  | .literal t :: rest => .literal (s ++ t) :: rest
  | rest => .literal s :: rest

/-- The segments that a row of tokens makes. -/
def ofTokens : List Token → List Segment
  | [] => []
  | .placeholder name :: tokens => .placeholder name :: ofTokens tokens
  | .text s :: tokens => consText s (ofTokens tokens)
  | .brace :: tokens => consText "\x7b" (ofTokens tokens)

/-- The name of a placeholder. -/
def name? : Segment → Option String
  | .literal _ => none
  | .placeholder name => some name

/-- What a segment becomes. -/
def render (lookup : String → Option String) : Segment → String
  | .literal s => s
  | .placeholder name => (lookup name).getD (Placeholder.writtenText name)

end Segment

/-- A text with placeholders. -/
structure Template where
  /-- The text as it was written. -/
  source : String
  deriving DecidableEq

namespace Template

/-- The literals and placeholders in order. -/
def segments (t : Template) : List Segment :=
  Segment.ofTokens (Token.ofText t.source)

/-- The names of the placeholders in order, repeated ones too. -/
def placeholders (t : Template) : List String :=
  t.segments.filterMap Segment.name?

/-- Whether a placeholder with the name occurs. -/
def contains (t : Template) (name : String) : Bool :=
  t.placeholders.contains name

/-- The text with the placeholders replaced. -/
def render (t : Template) (lookup : String → Option String) : String :=
  String.join (t.segments.map (Segment.render lookup))

end Template

end ScopedStyle
