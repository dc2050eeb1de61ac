import ScopedStyle.Markup.Escape
import ScopedStyle.Style.Compile

/-!
# Attributes of the markup

General fields can contribute a class or an inline declaration to the element of
their widget. They do so with their desktop value while their condition holds,
a toggle only when it is on, any other field when its value is not empty.
-/

namespace ScopedStyle

namespace Markup

/-- The texts that turn a toggle off, in lower case. -/
def offTexts : List String := ["", "false", "0", "no", "off"]

/-- Whether the text of a toggle turns it on. -/
def isOn (text : String) : Bool :=
  !offTexts.contains (String.ofList ((Text.trim text).toList.map Char.toLower))

/-- Whether a field with the given value contributes. -/
def contributes (f : Field) (v : Resolved) : Bool :=
  let text := (v.tokens.get? Placeholder.value).getD ""
  if f.kind = .toggle then isOn text else !text.isEmpty

end Markup

/-- The contribution of a field with its desktop value. -/
def Field.resolveDesktop? (f : Field) (stored : Option Json) : Option Resolved :=
  match f.resolve (stored.bind Responsive.desktopOf?) (Responsive.desktopOf? f.default) with
  | .ok v => some v
  | .error _ => none

/-- The text of a template of a field, escaped, unless the field does not
    contribute or the text is empty. -/
def Entry.markup? (e : Entry) (s : Schema) (t : Tree) (template : Template) : Option String := do
  guard (e.active s t)
  let v ← e.field.resolveDesktop? (t.get? e.path)
  guard (Markup.contributes e.field v)
  let text := Markup.escape (Text.trim (v.tokens.render template))
  guard !text.isEmpty
  return text

namespace Schema

/-- The texts that the fields contribute by one of their templates. Only general
    fields do. -/
def markupTexts (s : Schema) (t : Tree) (templateOf : Field → Option Template) : List String :=
  match s.category with
  | .general => s.entries.filterMap fun e => (templateOf e.field).bind (e.markup? s t)
  | .style => []

/-- The classes of the element. -/
def cssClasses (s : Schema) (t : Tree) : String :=
  " ".intercalate (s.markupTexts t Field.classTemplate)

/-- A declaration without the semicolons and blanks at its end. -/
def bareDeclaration (text : String) : String :=
  String.ofList (Text.trimChars (Text.dropEndWhile (· = ';') text.toList))

/-- The inline declarations of the element. -/
def styleAttribute (s : Schema) (t : Tree) : String :=
  let declarations := (s.markupTexts t Field.styleTemplate).map bareDeclaration
  "; ".intercalate (declarations.filter (!·.isEmpty))

end Schema

end ScopedStyle
