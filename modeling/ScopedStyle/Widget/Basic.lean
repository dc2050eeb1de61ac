import ScopedStyle.Schema.Draft
import ScopedStyle.Widget.Instance

/-!
# Widgets

A widget is a name, a schema for each category, and a way to render an instance
as markup. It may leave the rendering to templates outside (`Renderer`), which
it asks for by its name.
-/

namespace ScopedStyle

/-- Why an instance is not rendered. -/
inductive RenderError where
  /-- There is no template with the name. -/
  | missingTemplate (name : String)
  /-- The template with the name failed. -/
  | failedTemplate (name reason : String)
  deriving DecidableEq

/-- The wording of an error. -/
def RenderError.message : RenderError → String
  | .missingTemplate name => s!"no template named `{name}`"
  | .failedTemplate name reason => s!"template `{name}` failed: {reason}"

/-- Templates for markup, by name, rendered with a context. -/
abbrev Renderer := String → Json → Except RenderError String

/-- A type of widgets. -/
structure Widget where
  /-- The name of the type. -/
  name : String
  /-- The schema of content and behaviour. -/
  general : Except Schema.Error Schema
  /-- The schema of the looks. -/
  style : Except Schema.Error Schema
  /-- The markup of an instance. -/
  render : Instance → Except RenderError String

/-- The markup of an instance by the template with a name if there is a
    renderer, else by the widget itself. -/
def Widget.renderThrough (renderer : Option Renderer) (name : String) (own : Instance → String)
    (i : Instance) : Except RenderError String :=
  match renderer with
  | some r => r name i.templateContext
  | none => .ok (own i)

/-- A field declared by its kind, key and label, and its other attributes. -/
def Schema.Step.labelled (kind : Kind) (key label : String)
    (attributes : List Field.Attribute) : Schema.Step :=
  .field kind.name (.key key :: .label label :: attributes)

/-- A rule with one selector, written as texts. -/
def Field.Attribute.styles (selector body : String) : Field.Attribute :=
  .rule (.declared ⟨selector⟩ ⟨body⟩)

/-- A rule for the declarations of the value itself, written as texts. -/
def Field.Attribute.composes (selectors : List String) : Field.Attribute :=
  .rule (.composed (selectors.map Template.mk))

end ScopedStyle
