import ScopedStyle.Condition.Basic
import ScopedStyle.Field.Kind
import ScopedStyle.Field.Rule

/-!
# Fields

A field is one control of a widget's settings: where its value is stored, what
it looks like, when it takes part, and what it styles. Fields are made from
attributes (`Field.ofAttributes`), which checks them.
-/

namespace ScopedStyle

/-- One entry of the options of a field. -/
structure Choice where
  /-- The value that is stored. -/
  value : String
  /-- The text that is shown. -/
  label : String
  deriving DecidableEq

/-- A field of a schema. -/
structure Field where
  /-- The last segment of the path of the field. -/
  key : String
  /-- The kind of its values. -/
  kind : Kind
  /-- The text beside the control. -/
  label : String
  /-- A help text. -/
  description : Option String
  /-- The value that counts when none is stored, `null` for none. -/
  default : Json
  /-- The unit of the value. -/
  unit : Option String
  /-- The least number. -/
  min : Option Binary64
  /-- The greatest number. -/
  max : Option Binary64
  /-- The step of the control. -/
  step : Option Binary64
  /-- The values that a choice may have. -/
  options : List Choice
  /-- Whether the value may vary by breakpoint. -/
  responsive : Bool
  /-- When the field takes part. -/
  condition : Option Condition
  /-- What the field styles. -/
  rules : List Rule
  /-- The axis of an alignment. -/
  axis : Option Axis
  /-- The class that the field contributes to the markup. -/
  classTemplate : Option Template
  /-- The declaration that the field contributes to the markup. -/
  styleTemplate : Option Template

namespace Field

/-- The choices of an alignment without options. -/
def alignments : List String := ["left", "center", "right", "justify"]

/-- Whether a kind with the given options allows a choice: without any, an
    alignment has its own words, and other kinds allow everything. -/
def choiceAllowed (kind : Kind) (options : List Choice) (choice : String) : Bool :=
  if options.isEmpty then kind ≠ .alignment || alignments.contains choice
  else options.any (·.value = choice)

/-- Whether the field allows a choice. -/
def allowsChoice (f : Field) (choice : String) : Bool :=
  choiceAllowed f.kind f.options choice

/-- An option as it stands in a manifest. -/
def choiceToJson (c : Choice) : Json :=
  .obj [("label", .str c.label), ("value", .str c.value)]

/-- A list as it stands in a manifest, left out when it is empty. -/
def listToJson? : List Json → Option Json
  | [] => none
  | items => some (.arr items)

/-- The attributes as they stand in a manifest, by ascending name. -/
def attributesToJson (f : Field) : List (String × Option Json) :=
  [("axis", f.axis.map fun a => .str a.name),
    ("class_template", f.classTemplate.map fun t => .str t.source),
    ("condition", f.condition.map Condition.toJson),
    ("default", f.default.nonNull?),
    ("description", f.description.map .str),
    ("key", some (.str f.key)),
    ("label", some (.str f.label)),
    ("max", f.max.map .ofBinary64),
    ("min", f.min.map .ofBinary64),
    ("options", listToJson? (f.options.map choiceToJson)),
    ("responsive", some (.bool f.responsive)),
    ("selectors", listToJson? (f.rules.map Rule.toJson)),
    ("step", f.step.map .ofBinary64),
    ("style_template", f.styleTemplate.map fun t => .str t.source),
    ("type", some (.str f.kind.name)),
    ("unit", f.unit.map .str)]

/-- A field as it stands in a manifest. What is not declared is left out. -/
def toJson (f : Field) : Json :=
  .obj (f.attributesToJson.filterMap fun (name, value?) => value?.map (name, ·))

end Field

end ScopedStyle
