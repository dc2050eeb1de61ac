import ScopedStyle.Text.Blank

/-!
# Selectors

The rules of a widget instance are scoped by the id of its element, below the id
of its section if it has one.

The hover form of a selector has `:hover` behind each of its parts. Parts are
separated by the commas outside of round and square brackets; a closing bracket
without an opening one counts for nothing.
-/

namespace ScopedStyle.Selector

/-- The selector of a widget instance. -/
def wrapper (id : String) (sectionId : Option String) : String :=
  match sectionId.filter (!·.isEmpty) with
  | some s => "#" ++ s ++ " #" ++ id
  | none => "#" ++ id

/-- The number of open brackets behind a character. -/
def depthAfter (depth : Nat) (c : Char) : Nat :=
  if c = '(' || c = '[' then depth + 1
  else if c = ')' || c = ']' then depth - 1
  else depth

/-- The parts of a text between the commas at depth zero, read from the given
    depth on. -/
def parts (depth : Nat) : List Char → List (List Char)
  | [] => [[]]
  | c :: cs =>
    if c = ',' && depth = 0 then [] :: parts 0 cs
    else
      match parts (depthAfter depth c) cs with
      | [] => [[c]]
      | part :: rest => (c :: part) :: rest

/-- A selector with `:hover` behind each of its parts. -/
def hover (selector : String) : String :=
  ", ".intercalate ((parts 0 selector.toList).map fun part =>
    String.ofList (Text.trimChars part) ++ ":hover")

end ScopedStyle.Selector
