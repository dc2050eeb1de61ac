import ScopedStyle.Widget.Basic

/-!
# Buttons

A link that looks like a button, with an optional icon in front of its text.
-/

namespace ScopedStyle.Button

/-- The sizes of a button. -/
def sizes : List Choice :=
  [⟨"sm", "Small"⟩, ⟨"md", "Medium"⟩, ⟨"lg", "Large"⟩]

/-- The condition of what depends on the icon being shown. -/
def whenIconShown : Condition :=
  ⟨[⟨.ofText "show_icon", .eq, .bool true⟩]⟩

/-- The fields of content and behaviour. -/
def generalSteps : List Schema.Step :=
  [.openGroup "content" "Content",
    .labelled .text "text" "Text" [.default (.str "Click here")],
    .labelled .url "link" "Link" [.default (.str "#")],
    .labelled .select "size" "Size"
      [.options sizes, .default (.str "md"),
        .classTemplate ⟨"button-\x7b\x7bVALUE\x7d\x7d"⟩],
    .labelled .toggle "full_width" "Full width"
      [.default (.bool false), .classTemplate ⟨"button-block"⟩],
    .closeGroup,
    .openGroup "icon" "Icon",
    .labelled .toggle "show_icon" "Show icon" [.default (.bool false)],
    .labelled .icon "icon" "Icon" [.condition whenIconShown],
    .closeGroup]

/-- The declaration of the padding, with a unit on every side. -/
def paddingBody : String :=
  "padding: \x7b\x7bVALUE.TOP\x7d\x7d\x7b\x7bUNIT\x7d\x7d " ++
    "\x7b\x7bVALUE.RIGHT\x7d\x7d\x7b\x7bUNIT\x7d\x7d " ++
    "\x7b\x7bVALUE.BOTTOM\x7d\x7d\x7b\x7bUNIT\x7d\x7d " ++
    "\x7b\x7bVALUE.LEFT\x7d\x7d\x7b\x7bUNIT\x7d\x7d;"

/-- The selector of the link. -/
def linkSelector : String := "\x7b\x7bWRAPPER\x7d\x7d .button"

/-- The fields of the looks. -/
def styleSteps : List Schema.Step :=
  [.openTab "normal" "Normal",
    .openGroup "colors" "Colors",
    .labelled .color "text_color" "Text Color"
      [.default (.str "#ffffff"), .styles linkSelector "color: \x7b\x7bVALUE\x7d\x7d;"],
    .labelled .backgroundGroup "background" "Background" [.composes [linkSelector]],
    .closeGroup,
    .closeTab,
    .openTab "hover" "Hover",
    .openGroup "colors" "Colors",
    .labelled .color "text_color" "Text Color"
      [.default (.str "#ffffff"),
        .styles (linkSelector ++ ":hover") "color: \x7b\x7bVALUE\x7d\x7d;"],
    .closeGroup,
    .closeTab,
    .openGroup "box" "Box",
    .labelled .dimension "padding" "Padding"
      [.unit "px", .responsive true, .styles linkSelector paddingBody],
    .labelled .number "border_radius" "Border Radius"
      [.unit "px", .min .zero, .default (.ofNat 4),
        .styles linkSelector "border-radius: \x7b\x7bVALUE\x7d\x7d;"],
    .closeGroup]

/-- The markup of an icon, empty if the value names no class. -/
def iconMarkup (icon : Option Json) : String :=
  match (icon.bind (·.field? "value")).bind Json.str? with
  | some s =>
    let iconClass := Text.trim s
    if iconClass.isEmpty then ""
    else "<i class=\"" ++ Markup.escape iconClass ++ "\" aria-hidden=\"true\"></i>"
  | none => ""

/-- The markup of an instance. -/
def markup (i : Instance) : String :=
  let icon := if i.flag "icon.show_icon" then iconMarkup (i.value? "icon.icon") else ""
  "<div " ++ i.wrapperAttributes "widget-button" ++ "><a class=\"button\" href=\"" ++
    i.escaped "content.link" ++ "\">" ++ icon ++ "<span class=\"button-text\">" ++
    i.escaped "content.text" ++ "</span></a></div>"

/-- The widget, with templates for its markup if there is a renderer. -/
def widget (renderer : Option Renderer) : Widget where
  name := "button"
  general := Schema.ofSteps .general generalSteps
  style := Schema.ofSteps .style styleSteps
  render := Widget.renderThrough renderer "button" markup

end ScopedStyle.Button
