import ScopedStyle.Json.Basic
import ScopedStyle.Template.Basic

/-!
# Rules

A rule says which selectors a field styles, and with what: either one selector
with a declaration that uses the tokens of the value, or a list of selectors
for the declarations that the value itself writes. Selectors are templates in
which `{{WRAPPER}}` is the selector of the widget instance.
-/

namespace ScopedStyle

/-- How a field maps onto CSS. -/
inductive Rule where
  /-- A declaration for one selector. -/
  | declared (selector body : Template)
  /-- The value's own declarations for every selector. -/
  | composed (selectors : List Template)
  deriving DecidableEq

namespace Rule

/-- The selectors of a rule. -/
def selectors : Rule → List Template
  | .declared selector _ => [selector]
  | .composed selectors => selectors

/-- Whether the rule takes the value's own declarations. -/
def isComposed : Rule → Bool
  | .declared _ _ => false
  | .composed _ => true

/-- A rule as it stands in a manifest. -/
def toJson : Rule → Json
  | .declared selector body =>
    .obj [("selector", .str selector.source), ("template", .str body.source)]
  | .composed selectors => .obj [("selectors", .arr (selectors.map fun s => .str s.source))]

end Rule

end ScopedStyle
