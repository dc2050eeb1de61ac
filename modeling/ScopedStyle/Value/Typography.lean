import ScopedStyle.Value.Scalar

/-!
# Typography

A typography value is an object with a part for each property of a font. A part
is a text, a number, which gets the unit of its property, or an object with a
size and a unit. Every part has a token, and every part that is not empty a
declaration, in the order of the catalog.
-/

namespace ScopedStyle.Typography

/-- A part of a typography value. -/
structure Part where
  /-- The key in a stored value. -/
  key : String
  /-- The name of the placeholder. -/
  token : String
  /-- The name of the property. -/
  property : String
  /-- The unit of a number, empty for none. -/
  unit : String

/-- The parts of a typography value. -/
def parts : List Part :=
  [⟨"font_family", "FONT_FAMILY", "font-family", ""⟩,
    ⟨"font_size", "FONT_SIZE", "font-size", "px"⟩,
    ⟨"font_weight", "FONT_WEIGHT", "font-weight", ""⟩,
    ⟨"line_height", "LINE_HEIGHT", "line-height", ""⟩,
    ⟨"letter_spacing", "LETTER_SPACING", "letter-spacing", "px"⟩,
    ⟨"word_spacing", "WORD_SPACING", "word-spacing", "px"⟩,
    ⟨"text_transform", "TEXT_TRANSFORM", "text-transform", ""⟩,
    ⟨"font_style", "FONT_STYLE", "font-style", ""⟩]

/-- The text of an object with a size and a unit, empty without a size. -/
def sizedText (sized : Json) (unit : String) : String :=
  let size := ((sized.field? "size").bind Json.scalarText?).getD ""
  if size.isEmpty then "" else size ++ ((sized.field? "unit").bind Json.str?).getD unit

/-- The text of what is stored for a part with the given unit. -/
def partText? (unit : String) : Option Json → Option String
  | none | some .null => some ""
  | some (.num n) => some (n.toBinary64.toCss ++ unit)
  | some (.obj entries) => some (sizedText (.obj entries) unit)
  | some other => other.scalarText?

/-- The parts with their texts, unless one has none. -/
def texts? (value : Json) : Option (List (Part × String)) :=
  parts.mapM fun part => (partText? part.unit (value.field? part.key)).map (part, ·)

/-- The declarations of parts with texts. -/
def declarations (texts : List (Part × String)) : List Declaration :=
  texts.filterMap fun (part, text) => if text.isEmpty then none else some ⟨part.property, text⟩

/-- The tokens of parts with texts. -/
def tokens (texts : List (Part × String)) : Tokens :=
  texts.foldl (fun t (part, text) => t.insert part.token text) .empty

/-- The contribution of a stored value. Only an object has parts. -/
def resolve? : Json → Option Resolved
  | .obj entries =>
    (texts? (.obj entries)).map fun texts => ⟨tokens texts, declarations texts, []⟩
  | _ => none

theorem resolve?_eq_some {value : Json} {r : Resolved} (h : resolve? value = some r) :
    ∃ texts, texts? value = some texts ∧ r = ⟨tokens texts, declarations texts, []⟩ := by
  cases value with
  | obj entries =>
    obtain ⟨texts, htexts, rfl⟩ := Option.map_eq_some_iff.1 h
    exact ⟨texts, htexts, rfl⟩
  | _ => cases h

end ScopedStyle.Typography
