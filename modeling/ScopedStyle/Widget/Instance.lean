import ScopedStyle.Markup.Attributes
import ScopedStyle.Settings.Document

/-!
# Widget instances

Everything that the markup of one instance is made from: its id, its settings
and the two schemas of its widget. Settings are read by their effective values,
responsive ones by their desktop entry, and are escaped where they go into the
markup.
-/

namespace ScopedStyle

/-- One instance of a widget. -/
structure Instance where
  /-- The id of the element. -/
  id : String
  /-- The stored settings. -/
  settings : InstanceSettings
  /-- The schema of content and behaviour. -/
  general : Schema
  /-- The schema of the looks. -/
  style : Schema

namespace Instance

/-- The desktop entry of the effective general setting at a path. -/
def value? (i : Instance) (path : String) : Option Json :=
  (i.general.effective? i.settings.general (.ofText path)).bind Responsive.desktopOf?

/-- A general setting as text, empty when it has none. -/
def text (i : Instance) (path : String) : String :=
  ((i.value? path).bind Json.scalarText?).getD ""

/-- A general setting as it stands in the markup. -/
def escaped (i : Instance) (path : String) : String :=
  Markup.escape (i.text path)

/-- The texts that count as on. -/
def onTexts : List String := ["yes", "true", "1", "on"]

/-- Whether a general setting is on. -/
def flag (i : Instance) (path : String) : Bool :=
  match i.value? path with
  | some (.bool b) => b
  | some (.str s) => onTexts.contains s
  | _ => false

/-- The classes that the settings contribute. -/
def cssClasses (i : Instance) : String :=
  i.general.cssClasses i.settings.general

/-- The inline declarations that the settings contribute. -/
def styleAttribute (i : Instance) : String :=
  i.general.styleAttribute i.settings.general

/-- The effective values of all general fields as a tree. -/
def effectiveGeneral (i : Instance) : Tree :=
  i.general.entries.foldl (fun t e =>
    match i.general.effective? i.settings.general e.path with
    | some value => t.put e.path value
    | none => t) .empty

/-- What a template for the markup is rendered with. -/
def templateContext (i : Instance) : Json :=
  .obj [("classes", .str i.cssClasses), ("id", .str i.id),
    ("settings", i.effectiveGeneral.root), ("style", .str i.styleAttribute)]

/-- An attribute as it stands in a tag. -/
def attributeText (name value : String) : String :=
  name ++ "=\"" ++ value ++ "\""

/-- The attributes of the element: its id, its classes, the given one first, and
    its inline declarations if there are any. -/
def wrapperAttributes (i : Instance) (baseClass : String) : String :=
  let classes := if i.cssClasses.isEmpty then baseClass else baseClass ++ " " ++ i.cssClasses
  let style := if i.styleAttribute.isEmpty then "" else " " ++ attributeText "style" i.styleAttribute
  attributeText "id" (Markup.escape i.id) ++ " " ++ attributeText "class" classes ++ style

end Instance

end ScopedStyle
