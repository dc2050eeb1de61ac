import ScopedStyle.Condition.Basic
import ScopedStyle.Number.Reading
import ScopedStyle.Settings.Responsive
import ScopedStyle.Settings.Tree
import ScopedStyle.Text.Blank

/-!
# Evaluation of conditions

A condition is evaluated over a source of values, from the group of the field
that has it. A responsive value is compared by its desktop entry. A clause about
what is no field does not hold. A clause about a field without a value holds
only if it asks for something else than a value that is not empty.
-/

namespace ScopedStyle

namespace Clause

/-- The path of the field that a clause compares, seen from a group. -/
def target (c : Clause) (group : Path) : Path :=
  if c.field.length = 1 then group ++ c.field else c.field

/-- The value that a clause compares: of a responsive value the desktop
    entry. -/
def compared? (value : Json) : Option Json :=
  if Responsive.isMap value then (value.field? "desktop").bind Json.nonNull? else some value

/-- The number that a value stands for: a number, or a text that is one. -/
def numberOf? : Json → Option Binary64
  | .num n => some n.toBinary64
  | .str s => Binary64.ofText? (Text.trim s)
  | _ => none

/-- How two values compare as numbers. -/
def compareNumbers? (a b : Json) : Option Ordering := do
  (← numberOf? a).compare? (← numberOf? b)

/-- Whether a value is `null` or an empty string, list or object. -/
def isEmptyValue : Json → Bool
  | .null => true
  | .str s => s.isEmpty
  | .arr items => items.isEmpty
  | .obj entries => entries.isEmpty
  | .bool _ | .num _ => false

/-- Whether an actual value compares as an operator asks. -/
def compares (op : Operator) (actual expected : Json) : Bool :=
  match op with
  | .eq => actual.same expected
  | .neq => !actual.same expected
  | .gt => compareNumbers? actual expected = some .gt
  | .lt => compareNumbers? actual expected = some .lt
  | .oneOf => (expected.arr?.getD []).any (·.same actual)

/-- Whether a clause holds in a source, seen from a group. -/
def holds (c : Clause) (source : Source) (group : Path) : Bool :=
  let path := c.target group
  source.hasField path &&
    match (source.value? path).bind compared? with
    | some actual => compares c.op actual c.value
    | none => c.op = .neq && !isEmptyValue c.value

end Clause

/-- Whether all clauses of a condition hold. -/
def Condition.holds (c : Condition) (source : Source) (group : Path) : Bool :=
  c.clauses.all (·.holds source group)

end ScopedStyle
