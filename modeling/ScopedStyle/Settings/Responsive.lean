import ScopedStyle.Json.Basic

/-!
# Responsive values

A value may vary by the width of the viewport. It is then stored as an object
whose keys are all breakpoints, `{ "desktop": 4, "mobile": 2 }`; any other value
holds at every width, which is to say from the desktop down. An entry of `null`
counts as absent.
-/

namespace ScopedStyle

/-- A tier of viewport widths, the widest first. -/
inductive Breakpoint where
  /-- Every width. -/
  | desktop
  /-- The width of a tablet and below. -/
  | tablet
  /-- The width of a phone and below. -/
  | mobile
  deriving DecidableEq

namespace Breakpoint

/-- The tiers in the order in which rules are written, so that the narrower one
    wins. -/
def all : List Breakpoint := [.desktop, .tablet, .mobile]

/-- The key of a tier in a stored value. -/
def key : Breakpoint → String
  | .desktop => "desktop"
  | .tablet => "tablet"
  | .mobile => "mobile"

/-- The tier with a key. -/
def ofKey? (key : String) : Option Breakpoint :=
  all.find? (·.key = key)

end Breakpoint

/-- A value that may vary by breakpoint. -/
structure Responsive where
  /-- The value at every width. -/
  desktop : Option Json
  /-- The value at tablet width, if it differs. -/
  tablet : Option Json
  /-- The value at mobile width, if it differs. -/
  mobile : Option Json

namespace Responsive

/-- A value that is the same at every width. -/
def uniform (value : Json) : Responsive :=
  ⟨some value, none, none⟩

/-- Whether a value is an object with entries whose keys are all breakpoints. -/
def isMap : Json → Bool
  | .obj es => !es.isEmpty && es.all fun e => (Breakpoint.ofKey? e.1).isSome
  | _ => false

/-- The entry of a stored object for one breakpoint. -/
def at? (value : Json) (b : Breakpoint) : Option Json :=
  (value.field? b.key).bind Json.nonNull?

/-- The entries of a value that is keyed by breakpoints. -/
def ofMap? (value : Json) : Option Responsive :=
  if isMap value then
    some ⟨at? value .desktop, at? value .tablet, at? value .mobile⟩
  else none

/-- Any stored value, one that is not keyed by breakpoints as a uniform one. -/
def ofStored (value : Json) : Responsive :=
  (ofMap? value).getD (uniform value)

/-- The value for one breakpoint. -/
def get? (r : Responsive) : Breakpoint → Option Json
  | .desktop => r.desktop
  | .tablet => r.tablet
  | .mobile => r.mobile

/-- The value with the desktop entry of another where it has none. -/
def withDesktopOf (r fallback : Responsive) : Responsive :=
  { r with desktop := r.desktop <|> fallback.desktop }

/-- The entries that are there, the widest first. -/
def entries (r : Responsive) : List (Breakpoint × Json) :=
  Breakpoint.all.filterMap fun b => (r.get? b).map (b, ·)

/-- The value as it is stored. -/
def toJson (r : Responsive) : Json :=
  .obj (Dict.ofEntries (r.entries.map fun (b, value) => (b.key, value)))

/-- The desktop entry of a stored value, which stands for the whole where only
    one value is wanted. -/
def desktopOf? (value : Json) : Option Json :=
  (ofStored value).desktop

end Responsive

end ScopedStyle
