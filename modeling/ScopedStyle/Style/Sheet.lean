/-!
# Style sheets

What a compiled schema is written as: declarations, rules, and the blocks of a
sheet, each on a line of its own. Nothing is left out or moved, so the order of
the blocks is that of the cascade.

A comment cannot be closed from inside: a blank parts every `*/` in its text.
-/

namespace ScopedStyle

/-- A property with its value. -/
structure Declaration where
  /-- The name of the property. -/
  property : String
  /-- The value as it is written. -/
  value : String
  deriving DecidableEq

namespace Declaration

/-- A declaration as it is written. -/
def toText (d : Declaration) : String :=
  d.property ++ ": " ++ d.value ++ ";"

/-- Declarations as the body of a rule. -/
def joined (ds : List Declaration) : String :=
  " ".intercalate (ds.map toText)

end Declaration

/-- A selector with the body that it applies to. -/
structure StyleRule where
  /-- The selector. -/
  selector : String
  /-- The declarations between the braces. -/
  body : String
  deriving DecidableEq

/-- A rule as it is written. -/
def StyleRule.toText (r : StyleRule) : String :=
  r.selector ++ " \x7b " ++ r.body ++ " \x7d"

/-- A block of a sheet. -/
inductive Block where
  /-- A rule for every width. -/
  | rule (r : StyleRule)
  /-- Rules for viewports up to a width. -/
  | media (maxWidth : Nat) (rules : List StyleRule)
  /-- A remark. -/
  | comment (text : String)
  deriving DecidableEq

namespace Block

/-- The text of a comment, in which a blank parts every end of a comment. -/
def partEnds : List Char → List Char
  | '*' :: '/' :: cs => '*' :: ' ' :: '/' :: partEnds cs
  | c :: cs => c :: partEnds cs
  | [] => []

/-- A block as it is written. -/
def toText : Block → String
  | .rule r => r.toText
  | .media maxWidth rules =>
    "@media (max-width: " ++ Nat.repr maxWidth ++ "px) \x7b" ++
      String.join (rules.map fun r => " " ++ r.toText) ++ " \x7d"
  | .comment text => "/* " ++ String.ofList (partEnds text.toList) ++ " */"

/-- The number of rules in a block. -/
def ruleCount : Block → Nat
  | .rule _ => 1
  | .media _ rules => rules.length
  | .comment _ => 0

end Block

/-- A style sheet: its blocks in the order in which they are written. -/
abbrev Sheet := List Block

namespace Sheet

/-- A sheet as it is written, a line for each block. -/
def toText (s : Sheet) : String :=
  String.join (s.map fun b => b.toText ++ "\n")

/-- Two sheets in a row are written one after the other. -/
theorem toText_append (s s' : Sheet) : toText (s ++ s') = s.toText ++ s'.toText := by
  rw [toText, List.map_append, String.join_append]
  rfl

/-- The number of rules, those inside media blocks included. -/
def ruleCount (s : Sheet) : Nat :=
  s.foldr (fun b n => b.ruleCount + n) 0

end Sheet

end ScopedStyle
