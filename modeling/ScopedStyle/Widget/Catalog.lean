import ScopedStyle.Widget.Button
import ScopedStyle.Widget.Heading
import ScopedStyle.Widget.Spacer

/-!
# Catalogs

A catalog holds the types of widgets by name. The schemas of a type are made
when it is registered, and a type whose schemas cannot be made is not taken. A
name is taken once; a registration that fails leaves the catalog as it was.
-/

namespace ScopedStyle

/-- A type of widgets with its schemas made. -/
structure Registered where
  /-- The type. -/
  widget : Widget
  /-- The schema of content and behaviour. -/
  general : Schema
  /-- The schema of the looks. -/
  style : Schema

namespace Registered

/-- The style sheet of an instance: the rules of its general settings and then
    those of its looks. -/
def sheet (r : Registered) (c : Config) (id : String) (settings : InstanceSettings)
    (sectionId : Option String) : Sheet :=
  r.general.compile settings.general c id sectionId ++
    r.style.compile settings.style c id sectionId

/-- The markup of an instance. -/
def render (r : Registered) (id : String) (settings : InstanceSettings) :
    Except RenderError String :=
  r.widget.render ⟨id, settings, r.general, r.style⟩

end Registered

/-- The types of widgets and how their settings are compiled. -/
structure Catalog where
  /-- How settings are compiled. -/
  config : Config
  /-- The types by name. -/
  widgets : Dict Registered

namespace Catalog

/-- Why a catalog cannot do what is asked. -/
inductive Error where
  /-- There is no type with the name. -/
  | unknownWidget (name : String)
  /-- There is a type with the name. -/
  | duplicateWidget (name : String)
  /-- A schema of the type cannot be made. -/
  | schema (name : String) (e : Schema.Error)
  /-- The instance cannot be rendered. -/
  | render (e : RenderError)

/-- The wording of an error. -/
def Error.message : Error → String
  | .unknownWidget name => s!"unknown widget type `{name}`"
  | .duplicateWidget name => s!"widget type `{name}` is already registered"
  | .schema name e => s!"widget `{name}` declares an invalid schema: " ++ e.message
  | .render e => e.message

/-- The catalog without types. -/
def empty (config : Config) : Catalog :=
  ⟨config, []⟩

/-- A type of widgets with its schemas made, the general one first. -/
def build (w : Widget) : Except Error Registered := do
  let general ← w.general.mapError (.schema w.name)
  let style ← w.style.mapError (.schema w.name)
  return ⟨w, general, style⟩

/-- The catalog with one more type. -/
def register (c : Catalog) (w : Widget) : Except Error Catalog :=
  if c.widgets.contains w.name then .error (.duplicateWidget w.name)
  else (build w).map fun r => { c with widgets := c.widgets.put w.name r }

/-- The types that come with the library, in the order of registration. -/
def builtins : List Widget :=
  [Heading.widget none, Button.widget none, Spacer.widget]

/-- The catalog after registering types until one fails, and the error of that
    one. -/
def registerAll (c : Catalog) : List Widget → Catalog × Option Error
  | [] => (c, none)
  | w :: ws =>
    match c.register w with
    | .ok c => registerAll c ws
    | .error e => (c, some e)

/-- A new catalog with the types that come with the library. -/
def withBuiltins : Catalog × Option Error :=
  (empty .standard).registerAll builtins

/-- The names of the types in ascending order. -/
def names (c : Catalog) : List String :=
  c.widgets.keys

/-- The type with a name. -/
def find (c : Catalog) (name : String) : Except Error Registered :=
  match c.widgets.get? name with
  | some r => .ok r
  | none => .error (.unknownWidget name)

/-- The style sheet of an instance as text. -/
def css (c : Catalog) (name id : String) (settings : InstanceSettings)
    (sectionId : Option String) : Except Error String :=
  (c.find name).map fun r => (r.sheet c.config id settings sectionId).toText

/-- The markup of an instance. -/
def render (c : Catalog) (name id : String) (settings : InstanceSettings) :
    Except Error String := do
  (← c.find name).render id settings |>.mapError .render

end Catalog

end ScopedStyle
