import ScopedStyle.Template.Strict

/-!
# Written rule lists

A list of rules that is written in a program is checked before the program runs
and then replaced by the expression that makes the rules. A selector may have
the placeholder of the wrapper alone, a declaration those of any kind of field,
and a rule for the value's own declarations needs a selector.

The expression is a row of tokens with a blank between them, as code generators
print it.
-/

namespace ScopedStyle

/-- A rule as it is written in a program. -/
inductive WrittenRule where
  /-- A declaration for one selector. -/
  | declared (selector body : String)
  /-- The value's own declarations for every selector. -/
  | composed (selectors : List String)

namespace WrittenRule

/-- The placeholders that a declaration may have. -/
def bodyNames : List String :=
  ["VALUE", "UNIT", "VALUE.TOP", "VALUE.RIGHT", "VALUE.BOTTOM", "VALUE.LEFT", "FONT_FAMILY",
    "FONT_SIZE", "FONT_WEIGHT", "LINE_HEIGHT", "LETTER_SPACING", "WORD_SPACING", "TEXT_TRANSFORM",
    "FONT_STYLE"]

/-- The placeholders that a selector may have. -/
def selectorNames : List String := ["WRAPPER"]

/-- A text of a rule. -/
inductive Place where
  /-- A selector. -/
  | selector
  /-- A declaration. -/
  | body
  deriving DecidableEq

namespace Place

/-- What a text of a rule is called. -/
def description : Place → String
  | .selector => "a selector"
  | .body => "a declaration template"

/-- The placeholders that a text of a rule may have. -/
def names : Place → List String
  | .selector => selectorNames
  | .body => bodyNames

end Place

/-- Why a list of rules is refused. -/
inductive Error where
  /-- A rule for the value's own declarations has no selector. -/
  | noSelector
  /-- The braces of a text are wrong. -/
  | mistake (m : Placeholder.Mistake)
  /-- A text has a placeholder that it may not have. -/
  | forbidden (place : Place) (name : String)
  deriving DecidableEq

/-- The wording of an error. -/
def Error.message : Error → String
  | .noSelector => "composite rule needs at least one selector"
  | .mistake m => m.message
  | .forbidden place name =>
    place.description ++ " may not use `\x7b\x7b" ++ name ++ "\x7d\x7d`"

/-- Checks a text of a rule. -/
def checkText (place : Place) (text : String) : Except Error Unit :=
  match Placeholder.strictNames text with
  | .error m => .error (.mistake m)
  | .ok names =>
    match names.find? (!place.names.contains ·) with
    | some name => .error (.forbidden place name)
    | none => .ok ()

/-- Checks the texts of a rule in order. -/
def check : WrittenRule → Except Error Unit
  | .declared selector body => do
    checkText .selector selector
    checkText .body body
  | .composed selectors => selectors.forM (checkText .selector)

/-- Whether the rule is one for the value's own declarations without a
    selector. -/
def lacksSelector : WrittenRule → Bool
  | .declared _ _ => false
  | .composed selectors => selectors.isEmpty

/-- A character of a string literal. Quotes, backslashes and the control characters
    that have an escape of their own are escaped. -/
def literalChar (c : Char) : List Char :=
  if c = '\\' then ['\\', '\\']
  else if c = '"' then ['\\', '"']
  else if c = '\n' then ['\\', 'n']
  else if c = '\x0d' then ['\\', 'r']
  else if c = '\t' then ['\\', 't']
  else if c = '\x00' then ['\\', '0']
  else [c]

/-- A string literal of the expression. -/
def literal (text : String) : String :=
  "\"" ++ String.ofList (text.toList.flatMap literalChar) ++ "\""

/-- The path of what makes a rule. -/
def makerPath : String := ":: widget_style :: field :: SelectorRule :: "

/-- The expression that makes a rule. -/
def expression : WrittenRule → String
  | .declared selector body =>
    makerPath ++ "template (" ++ literal selector ++ " , " ++ literal body ++ ")"
  | .composed selectors =>
    makerPath ++ "composite ([" ++ " , ".intercalate (selectors.map literal) ++ "])"

/-- The expression that makes a list of rules. A rule without a selector is
    found before any text is checked. -/
def expand (rules : List WrittenRule) : Except Error String := do
  if rules.any lacksSelector then throw .noSelector
  rules.forM check
  return ":: std :: vec ! [" ++ " , ".intercalate (rules.map expression) ++ "]"

end WrittenRule

end ScopedStyle
