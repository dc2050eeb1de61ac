import ScopedStyle.Widget.Basic

/-!
# Spacers

Vertical space of a height that may vary by breakpoint.
-/

namespace ScopedStyle.Spacer

/-- The height of a spacer without settings. -/
def standardHeight : Json :=
  .obj [("desktop", .ofNat 50), ("mobile", .ofNat 20)]

/-- The fields of the looks. -/
def styleSteps : List Schema.Step :=
  [.openGroup "size" "Size",
    .labelled .number "height" "Height"
      [.unit "px", .min .zero, .max (.ofInt 1000), .step (.ofInt 1), .responsive true,
        .default standardHeight,
        .styles "\x7b\x7bWRAPPER\x7d\x7d .spacer" "height: \x7b\x7bVALUE\x7d\x7d;"],
    .closeGroup]

/-- The markup of an instance. -/
def markup (i : Instance) : String :=
  "<div " ++ i.wrapperAttributes "widget-spacer" ++ "><div class=\"spacer\"></div></div>"

/-- The widget. -/
def widget : Widget where
  name := "spacer"
  general := .ok (.empty .general)
  style := Schema.ofSteps .style styleSteps
  render i := .ok (markup i)

end ScopedStyle.Spacer
