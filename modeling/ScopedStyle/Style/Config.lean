import ScopedStyle.Json.Raw
import ScopedStyle.Settings.Responsive

/-!
# Style configuration

How a schema is compiled: up to which widths the narrower breakpoints apply, and
whether comments name the fields. A configuration from a document must have
positive widths, that of the phone below that of the tablet.
-/

namespace ScopedStyle

/-- The greatest widths of the narrower breakpoints, in pixels. -/
structure Widths where
  /-- The greatest width of a tablet. -/
  tablet : Nat
  /-- The greatest width of a phone. -/
  mobile : Nat
  deriving DecidableEq

namespace Widths

/-- The widths that are used without a configuration. -/
def standard : Widths := ⟨1023, 767⟩

/-- The greatest width at which a breakpoint applies, none if it always does. -/
def maxWidth? (w : Widths) : Breakpoint → Option Nat
  | .desktop => none
  | .tablet => some w.tablet
  | .mobile => some w.mobile

end Widths

/-- How a schema is compiled. -/
structure Config where
  /-- The greatest widths. -/
  breakpoints : Widths
  /-- Whether a comment names the field in front of its rules. -/
  comments : Bool
  deriving DecidableEq

namespace Config

/-- The configuration that is used when there is none. -/
def standard : Config := ⟨.standard, false⟩

/-- Why a document is no configuration. -/
inductive Error where
  /-- The text is no document of this form. -/
  | unreadable
  /-- The greatest width of a phone is not below that of a tablet. -/
  | order (w : Widths)
  /-- A width is zero. -/
  | zeroWidth
  deriving DecidableEq

/-- The wording of an error. -/
def Error.message : Error → String
  | .unreadable => "invalid compiler config"
  | .order w =>
    "mobile breakpoint (" ++ Nat.repr w.mobile ++ "px) must be narrower than tablet (" ++
      Nat.repr w.tablet ++ "px)"
  | .zeroWidth => "breakpoint widths must be positive"

/-- The least natural number that does not fit 32 bits. -/
def widthLimit : Nat := .pow 2 32

/-- A width of a document: an integer of 32 bits. -/
def widthOfPart? (standard : Nat) : Option Json.Raw → Option Nat
  | none => some standard
  | some (.num l) =>
    match l.number? with
    | some (.integer n) => if 0 ≤ n && n.toNat < widthLimit then some n.toNat else none
    | _ => none
  | some _ => none

/-- The widths of a document. -/
def widthsOfPart? : Option Json.Raw → Option Widths
  | none => some .standard
  | some raw => do
    match ← raw.parts? ["tablet", "mobile"] with
    | [tablet, mobile] =>
      return ⟨← widthOfPart? Widths.standard.tablet tablet,
        ← widthOfPart? Widths.standard.mobile mobile⟩
    | _ => none

/-- Whether a document turns comments on. -/
def commentsOfPart? : Option Json.Raw → Option Bool
  | none => some false
  | some (.bool b) => some b
  | some _ => none

/-- The configuration of a document's text, not checked yet. -/
def read? (text : String) : Option Config := do
  match ← (← Json.Raw.ofText? text).parts? ["breakpoints", "emit_comments"] with
  | [breakpoints, comments] =>
    return ⟨← widthsOfPart? breakpoints, ← commentsOfPart? comments⟩
  | _ => none

/-- The configuration if its widths are in order. -/
def check (c : Config) : Except Error Config :=
  let w := c.breakpoints
  if w.tablet = 0 || w.mobile = 0 then .error .zeroWidth
  else if w.tablet ≤ w.mobile then .error (.order w)
  else .ok c

/-- The configuration of a document's text. -/
def ofText (text : String) : Except Error Config :=
  match read? text with
  | some c => check c
  | none => .error .unreadable

/-- A configuration as a value. -/
def toJson (c : Config) : Json :=
  .obj [("breakpoints", .obj [("mobile", .ofNat c.breakpoints.mobile),
      ("tablet", .ofNat c.breakpoints.tablet)]),
    ("emit_comments", .bool c.comments)]

end Config

end ScopedStyle
