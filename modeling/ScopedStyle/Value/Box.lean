import ScopedStyle.Value.Scalar

/-!
# Dimensions

A dimension is an object with a value for each side of a box and a unit. A side
that is missing or empty is zero. The unit of the value counts before that of
the field, but it goes without saying only where the field declares one.
-/

namespace ScopedStyle

/-- A side of a box. -/
inductive Side where
  /-- The upper side. -/
  | top
  /-- The right side. -/
  | right
  /-- The lower side. -/
  | bottom
  /-- The left side. -/
  | left
  deriving DecidableEq

namespace Side

/-- The sides in the order of CSS. -/
def all : List Side := [.top, .right, .bottom, .left]

/-- The key of a side in a stored value. -/
def key : Side → String
  | .top => "top"
  | .right => "right"
  | .bottom => "bottom"
  | .left => "left"

/-- The name of the placeholder for a side. -/
def token : Side → String
  | .top => "VALUE.TOP"
  | .right => "VALUE.RIGHT"
  | .bottom => "VALUE.BOTTOM"
  | .left => "VALUE.LEFT"

end Side

namespace Box

/-- The text of what is stored for a side. -/
def sideText? : Option Json → Option String
  | none | some .null => some "0"
  | some (.num n) => some n.toBinary64.toCss
  | some (.str s) =>
    let s := Text.trim s
    some (if s.isEmpty then "0" else s)
  | some _ => none

/-- The unit of a value of a field. -/
def unitOf (f : Field) (value : Json) : String :=
  let own := ((value.field? "unit").bind Json.str?).filter (!·.isEmpty)
  (own <|> f.unit).getD ""

/-- The tokens of the given sides put into a set, unless a side has no text. -/
def addSides? (value : Json) (t : Tokens) (sides : List Side) : Option Tokens :=
  sides.foldlM (fun t side => do return t.insert side.token (← sideText? (value.field? side.key))) t

/-- The contribution of a stored value. Only an object has sides. -/
def resolve? (f : Field) : Json → Option Resolved
  | .obj entries => do
    let value := Json.obj entries
    let t ← addSides? value .empty Side.all
    let unit := unitOf f value
    let t := t.insert Placeholder.unit unit
    return .ofTokens (if f.unit.isSome then t.withSuffix (some unit) else t)
  | _ => none

theorem resolve?_eq_some {f : Field} {value : Json} {r : Resolved} (h : resolve? f value = some r) :
    ∃ t, addSides? value .empty Side.all = some t ∧
      r = .ofTokens (if f.unit.isSome then
        (t.insert Placeholder.unit (unitOf f value)).withSuffix (some (unitOf f value))
      else t.insert Placeholder.unit (unitOf f value)) := by
  cases value with
  | obj entries =>
    obtain ⟨t, ht, h⟩ := Option.bind_eq_some_iff.1 h
    exact ⟨t, ht, (Option.some.inj h).symm⟩
  | _ => cases h

end Box

end ScopedStyle
