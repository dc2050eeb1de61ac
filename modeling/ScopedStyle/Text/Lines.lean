import ScopedStyle.Text.Blank

/-!
# Lines

The lines of a style sheet as they are compared: without the blanks around them,
and without those that are empty then. A carriage return in front of a line feed
is such a blank.
-/

namespace ScopedStyle.Text

/-- The lines of a text that are not blank, each without the blanks around it. -/
def lines (s : String) : List String :=
  let trimmed := (s.toList.splitOnP (· == '\n')).map trimChars
  (trimmed.filter (!·.isEmpty)).map String.ofList

end ScopedStyle.Text
