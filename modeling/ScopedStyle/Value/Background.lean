import ScopedStyle.Value.Scalar

/-!
# Backgrounds

A background is an object whose type says what it shows: nothing, a color with
an image, or a color with a gradient. Without a type it shows its gradient if it
has one. An image is an address, or an object with the address and how the
image is placed; a gradient is a CSS image, or an object with its two stops. A
second background under `hover` counts while the pointer is above the element.

An address is quoted so that it cannot leave the quotes (`quoteUrl`).
-/

namespace ScopedStyle.Background

/-- What a background shows. -/
inductive Show where
  /-- Nothing. -/
  | nothing
  /-- A color and an image. -/
  | image
  /-- A color and a gradient. -/
  | gradient
  deriving DecidableEq

/-- What the type of a background says, none for a type that there is not. -/
def shows? (value : Json) : Option Show :=
  match ((value.field? "type").bind Json.str?).filter (!·.isEmpty) with
  | some type =>
    if type = "none" then some .nothing
    else if type = "classic" then some .image
    else if type = "gradient" then some .gradient
    else none
  | none =>
    if ((value.field? "gradient").bind Json.nonNull?).isSome then some .gradient else some .image

/-- The text under a key, unless there is none or it is empty. -/
def textOf? (value : Json) (key : String) : Option String :=
  (value.field? key).bind Json.nonEmptyText?

/-- A declaration for the text under a key, if there is one. -/
def declaration? (property : String) (value : Json) (key : String) : Option Declaration :=
  (textOf? value key).map (⟨property, ·⟩)

/-- A character of an address inside quotes. -/
def quoteChar (c : Char) : List Char :=
  if c = '\\' then ['\\', '\\']
  else if c = '"' then ['%', '2', '2']
  else if c = '\n' then ['%', '0', 'A']
  else if c = '\x0d' then ['%', '0', 'D']
  else if c = '\x0c' then ['%', '0', 'C']
  else [c]

/-- An address as a CSS value. -/
def quoteUrl (url : String) : String :=
  "url(\"" ++ String.ofList (url.toList.flatMap quoteChar) ++ "\")"

/-- How an image is placed: the keys of an image with the properties for them. -/
def placements : List (String × String) :=
  [("position", "background-position"), ("size", "background-size"),
    ("repeat", "background-repeat"), ("attachment", "background-attachment")]

/-- A declaration that shows the image at an address. -/
def imageAt (url : String) : Declaration :=
  ⟨"background-image", quoteUrl url⟩

/-- The declarations for an image. -/
def imageDeclarations : Option Json → List Declaration
  | some (.str s) => if (Text.trim s).isEmpty then [] else [imageAt (Text.trim s)]
  | some (.obj entries) =>
    match textOf? (.obj entries) "url" with
    | some url =>
      imageAt url :: placements.filterMap fun (key, property) =>
        declaration? property (.obj entries) key
    | none => []
  | _ => []

/-- A stop of a gradient: a color and how far along it stands. -/
def stopText (gradient : Json) (colorKey positionKey : String) (otherwise : Int) : String :=
  let position := ((gradient.field? positionKey).bind Json.number?).getD (.ofInt otherwise)
  (textOf? gradient colorKey).getD "transparent" ++ " " ++ position.toCss ++ "%"

/-- The text of a gradient with two stops. -/
def stopsText (gradient : Json) : String :=
  stopText gradient "start_color" "start_position" 0 ++ ", " ++
    stopText gradient "end_color" "end_position" 100

/-- A gradient as a CSS value. -/
def gradientText? : Option Json → Option String
  | some (.str s) => if (Text.trim s).isEmpty then none else some (Text.trim s)
  | some (.obj entries) =>
    let gradient := Json.obj entries
    if (gradient.field? "type").bind Json.str? = some "radial" then
      let position := (textOf? gradient "position").getD "center center"
      some ("radial-gradient(at " ++ position ++ ", " ++ stopsText gradient ++ ")")
    else
      let angle := ((gradient.field? "angle").bind Json.number?).getD (.ofInt 180)
      some ("linear-gradient(" ++ angle.toCss ++ "deg, " ++ stopsText gradient ++ ")")
  | _ => none

/-- The declarations of a background. -/
def declarations? (value : Json) : Option (List Declaration) :=
  let color := (declaration? "background-color" value "color").toList
  (shows? value).map fun
    | .nothing => []
    | .image => color ++ imageDeclarations (value.field? "image")
    | .gradient =>
      color ++ ((gradientText? (value.field? "gradient")).map (⟨"background-image", ·⟩)).toList

/-- The declarations of the background under `hover`, none if it is malformed. -/
def hoverDeclarations (value : Json) : List Declaration :=
  match value.field? "hover" with
  | some (.obj entries) => (declarations? (.obj entries)).getD []
  | _ => []

/-- The contribution of a stored value. Only an object is a background. -/
def resolve? : Json → Option Resolved
  | .obj entries =>
    let value := Json.obj entries
    (declarations? value).map fun ds => ⟨.empty, ds, hoverDeclarations value⟩
  | _ => none

theorem resolve?_eq_some {value : Json} {r : Resolved} (h : resolve? value = some r) :
    ∃ ds, declarations? value = some ds ∧ r = ⟨.empty, ds, hoverDeclarations value⟩ := by
  cases value with
  | obj entries =>
    obtain ⟨ds, hds, rfl⟩ := Option.map_eq_some_iff.1 h
    exact ⟨ds, hds, rfl⟩
  | _ => cases h

end ScopedStyle.Background
