import ScopedStyle.Dict
import ScopedStyle.Number.Reading
import ScopedStyle.Template.Basic

/-!
# Token sets

The tokens of a value are the texts that stand for placeholders in its
declarations. A set may carry a unit that goes without saying: a template that
does not place `{{UNIT}}` itself gets the unit behind each token of the value
that is a number.
-/

namespace ScopedStyle

/-- Named texts for the placeholders of a template. -/
structure Tokens where
  /-- The texts by name. -/
  texts : Dict String
  /-- The unit that goes without saying. -/
  suffix : Option String

namespace Tokens

/-- The set without tokens. -/
def empty : Tokens := ⟨[], none⟩

/-- The set with the text of a token. -/
def insert (t : Tokens) (name text : String) : Tokens :=
  { t with texts := t.texts.put name text }

/-- The set with an unsaid unit; an empty one is none. -/
def withSuffix (t : Tokens) (unit : Option String) : Tokens :=
  { t with suffix := unit.filter (!·.isEmpty) }

/-- The text of a token. -/
def get? (t : Tokens) (name : String) : Option String :=
  t.texts.get? name

/-- Whether the set has no tokens. -/
def isEmpty (t : Tokens) : Bool :=
  t.texts.isEmpty

/-- Whether a name is that of the value or of a part of it. -/
def isValueName (name : String) : Bool :=
  match List.isPrefixOf? Placeholder.value.toList name.toList with
  | some [] => true
  | some (c :: _) => c = '.'
  | none => false

/-- Whether a text is a number as it stands. -/
def isNumber (text : String) : Bool :=
  (Binary64.ofText? text).isSome

/-- The text that a token has with a unit behind numbers of the value. -/
def withUnit (unit name text : String) : String :=
  if isValueName name && isNumber text then text ++ unit else text

/-- The text for a placeholder of a template. -/
def lookup (t : Tokens) (template : Template) (name : String) : Option String :=
  (t.get? name).map fun text =>
    match t.suffix with
    | some unit =>
      if template.contains Placeholder.unit then text else withUnit unit name text
    | none => text

/-- A template with the tokens put in. -/
def render (t : Tokens) (template : Template) : String :=
  template.render (t.lookup template)

end Tokens

end ScopedStyle
