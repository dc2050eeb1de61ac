import ScopedStyle.Json.Basic
import ScopedStyle.Number.Reading
import ScopedStyle.Text.Blank

/-!
# Kinds of fields

The kind of a field says what its stored value looks like, which attributes it
can declare, and which placeholders a declaration may use for its value:

* *scalars*, *colors* and *alignments* have one value,
* *dimensions* have one value per side of a box,
* *composites*, the groups for background and typography, also write
  declarations of their own,
* *structured* values are there for the markup alone.
-/

namespace ScopedStyle

/-- The kind of a field. -/
inductive Kind where
  /-- A line of text. -/
  | text
  /-- A longer text. -/
  | textarea
  /-- An address. -/
  | url
  /-- One of a list of options. -/
  | select
  /-- On or off. -/
  | toggle
  /-- A number. -/
  | number
  /-- A color. -/
  | color
  /-- The four sides of a box. -/
  | dimension
  /-- A background with all its parts. -/
  | backgroundGroup
  /-- A font with all its parts. -/
  | typographyGroup
  /-- A text alignment. -/
  | alignment
  /-- An icon. -/
  | icon
  /-- An image. -/
  | image
  /-- A list of items. -/
  | repeater
  /-- A link with its options. -/
  | linkGroup
  deriving DecidableEq

namespace Kind

/-- Every kind. -/
def all : List Kind :=
  [.text, .textarea, .url, .select, .toggle, .number, .color, .dimension, .backgroundGroup,
    .typographyGroup, .alignment, .icon, .image, .repeater, .linkGroup]

/-- The name of a kind in manifests. -/
def name : Kind → String
  | .text => "text"
  | .textarea => "textarea"
  | .url => "url"
  | .select => "select"
  | .toggle => "toggle"
  | .number => "number"
  | .color => "color"
  | .dimension => "dimension"
  | .backgroundGroup => "background_group"
  | .typographyGroup => "typography_group"
  | .alignment => "alignment"
  | .icon => "icon"
  | .image => "image"
  | .repeater => "repeater"
  | .linkGroup => "link_group"

/-- The kind with a name. -/
def ofName? (name : String) : Option Kind :=
  all.find? (·.name = name)

/-- The kind that has the name of a kind is this one. -/
theorem ofName?_name (k : Kind) : ofName? k.name = some k := by
  cases k <;> rfl

/-- The kind with a name has this name. -/
theorem name_of_ofName? {name : String} {k : Kind} (h : ofName? name = some k) : k.name = name := by
  simpa using List.find?_some h

/-- Whether the value is one of a set of options. -/
def isChoice : Kind → Bool
  | .select | .alignment => true
  | _ => false

/-- Whether the value writes declarations of its own. -/
def isComposite : Kind → Bool
  | .backgroundGroup | .typographyGroup => true
  | _ => false

/-- Whether the value is there for the markup alone. -/
def isStructured : Kind → Bool
  | .icon | .image | .repeater | .linkGroup => true
  | _ => false

/-- Whether a unit can be declared. -/
def takesUnit : Kind → Bool
  | .number | .dimension => true
  | _ => false

/-- Whether bounds and a step can be declared. -/
def takesBounds : Kind → Bool
  | .number => true
  | _ => false

/-- Whether the field can contribute to the attributes of the markup. -/
def takesAttributes (k : Kind) : Bool :=
  !k.isStructured && !k.isComposite && k ≠ .dimension

/-- The names of the placeholders that a declaration may use. -/
def tokenNames : Kind → List String
  | .text | .textarea | .url | .select | .toggle | .number => ["VALUE", "UNIT"]
  | .color | .alignment => ["VALUE"]
  | .dimension => ["VALUE.TOP", "VALUE.RIGHT", "VALUE.BOTTOM", "VALUE.LEFT", "UNIT"]
  | .typographyGroup =>
    ["FONT_FAMILY", "FONT_SIZE", "FONT_WEIGHT", "LINE_HEIGHT", "LETTER_SPACING", "WORD_SPACING",
      "TEXT_TRANSFORM", "FONT_STYLE"]
  | .backgroundGroup | .icon | .image | .repeater | .linkGroup => []

/-- Whether a text is a number in a number field: empty, or a number with
    blanks around it. -/
def isNumberText (s : String) : Bool :=
  s.isEmpty || (Binary64.ofText? (Text.trim s)).isSome

/-- Whether a stored value has the shape of the kind. The value `null` never
    has, it stands for no value. -/
def accepts : Kind → Json → Bool
  | .text, j | .textarea, j | .url, j | .select, j =>
    match j with
    | .str _ | .num _ | .bool _ => true
    | _ => false
  | .toggle, j =>
    match j with
    | .bool _ | .str _ => true
    | _ => false
  | .number, j =>
    match j with
    | .num _ => true
    | .str s => isNumberText s
    | _ => false
  | .color, j | .alignment, j => j.str?.isSome
  | .dimension, j | .backgroundGroup, j | .typographyGroup, j | .icon, j | .image, j
  | .linkGroup, j => j.obj?.isSome
  | .repeater, j => j.arr?.isSome

end Kind

/-- The axis of a box that an alignment acts on. -/
inductive Axis where
  /-- The text inside the box, by the words of `text-align`. -/
  | text
  /-- The items of a flex container, by the words of `justify-content`. -/
  | flex
  deriving DecidableEq

/-- The name of an axis in manifests. -/
def Axis.name : Axis → String
  | .text => "text"
  | .flex => "flex"

/-- The axis with a name. -/
def Axis.ofName? (name : String) : Option Axis :=
  [Axis.text, .flex].find? (·.name = name)

end ScopedStyle
