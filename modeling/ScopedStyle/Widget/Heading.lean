import ScopedStyle.Widget.Basic

/-!
# Headings

A title in a heading element of any level, with an optional link.
-/

namespace ScopedStyle.Heading

/-- The elements of a heading, each with the text that is shown for it. -/
def tags : List Choice :=
  [⟨"h1", "H1"⟩, ⟨"h2", "H2"⟩, ⟨"h3", "H3"⟩, ⟨"h4", "H4"⟩, ⟨"h5", "H5"⟩, ⟨"h6", "H6"⟩]

/-- The sizes of a heading. -/
def sizes : List Choice :=
  [⟨"default", "Default"⟩, ⟨"small", "Small"⟩, ⟨"large", "Large"⟩]

/-- The fields of content and behaviour. -/
def generalSteps : List Schema.Step :=
  [.openGroup "content" "Content",
    .labelled .text "title" "Title" [.default (.str "Add your heading")],
    .labelled .url "link" "Link" [],
    .labelled .select "tag" "HTML Tag" [.options tags, .default (.str "h2")],
    .labelled .select "size" "Size"
      [.options sizes, .default (.str "default"),
        .classTemplate ⟨"heading-size-\x7b\x7bVALUE\x7d\x7d"⟩],
    .labelled .alignment "align" "Alignment"
      [.default (.str "left"), .responsive true,
        .styles "\x7b\x7bWRAPPER\x7d\x7d" "text-align: \x7b\x7bVALUE\x7d\x7d;"],
    .closeGroup]

/-- The condition of what depends on the heading standing in a line. -/
def whenInline : Condition :=
  ⟨[⟨.ofText "inline", .eq, .bool true⟩]⟩

/-- The fields of the looks. -/
def styleSteps : List Schema.Step :=
  [.openTab "normal" "Normal",
    .openGroup "title" "Title",
    .labelled .color "color" "Text Color"
      [.default (.str "#333333"),
        .styles "\x7b\x7bWRAPPER\x7d\x7d .heading-title" "color: \x7b\x7bVALUE\x7d\x7d;"],
    .labelled .typographyGroup "typography" "Typography"
      [.composes ["\x7b\x7bWRAPPER\x7d\x7d .heading-title"]],
    .closeGroup,
    .closeTab,
    .openTab "hover" "Hover",
    .openGroup "title" "Title",
    .labelled .color "color" "Text Color"
      [.default (.str "#333333"),
        .styles "\x7b\x7bWRAPPER\x7d\x7d .heading-title:hover" "color: \x7b\x7bVALUE\x7d\x7d;"],
    .closeGroup,
    .closeTab,
    .openGroup "flex" "Layout",
    .labelled .toggle "inline" "Inline" [.default (.bool false)],
    .labelled .alignment "justify" "Justify"
      [.axis .flex, .default (.str "left"), .condition whenInline,
        .styles "\x7b\x7bWRAPPER\x7d\x7d"
          "display: flex; justify-content: \x7b\x7bVALUE\x7d\x7d;"],
    .closeGroup,
    .openGroup "spacing" "Spacing",
    .labelled .dimension "margin" "Margin"
      [.unit "px", .responsive true,
        .styles "\x7b\x7bWRAPPER\x7d\x7d"
          ("margin: \x7b\x7bVALUE.TOP\x7d\x7d \x7b\x7bVALUE.RIGHT\x7d\x7d " ++
            "\x7b\x7bVALUE.BOTTOM\x7d\x7d \x7b\x7bVALUE.LEFT\x7d\x7d;")],
    .closeGroup]

/-- The element of an instance, one of the second level if the settings name
    none. -/
def tagOf (i : Instance) : String :=
  let tag := i.text "content.tag"
  if tags.any (·.value = tag) then tag else "h2"

/-- The title, inside a link if there is one. -/
def inner (i : Instance) : String :=
  let title := i.escaped "content.title"
  let link := i.escaped "content.link"
  if link.isEmpty then title else "<a href=\"" ++ link ++ "\">" ++ title ++ "</a>"

/-- The markup of an instance. -/
def markup (i : Instance) : String :=
  let tag := tagOf i
  "<div " ++ i.wrapperAttributes "widget-heading" ++ "><" ++ tag ++ " class=\"heading-title\">" ++
    inner i ++ "</" ++ tag ++ "></div>"

/-- The widget, with templates for its markup if there is a renderer. -/
def widget (renderer : Option Renderer) : Widget where
  name := "heading"
  general := Schema.ofSteps .general generalSteps
  style := Schema.ofSteps .style styleSteps
  render := Widget.renderThrough renderer "heading" markup

end ScopedStyle.Heading
