import ScopedStyle.Json.Basic
import ScopedStyle.Number.Numeral

/-!
# JSON text

The compact text of a value: no blanks, keys in order, integers plain and floats
as document numerals. A string escapes the quote, the backslash and the control
characters below the space, five of them by a letter, and leaves every other
character as it is.
-/

namespace ScopedStyle.Json

/-- A hexadecimal digit in lower case. -/
def hexDigit (n : Nat) : Char :=
  Nat.digitChar (n % 16)

/-- A character as it stands inside a string. -/
def escapeChar (c : Char) : List Char :=
  if c = '"' then ['\\', '"']
  else if c = '\\' then ['\\', '\\']
  else if c = '\x08' then ['\\', 'b']
  else if c = '\x0c' then ['\\', 'f']
  else if c = '\n' then ['\\', 'n']
  else if c = '\x0d' then ['\\', 'r']
  else if c = '\t' then ['\\', 't']
  else if c.toNat < 0x20 then
    ['\\', 'u', '0', '0', hexDigit (c.toNat / 16), hexDigit c.toNat]
  else [c]

/-- A string with its quotes. -/
def quote (s : String) : List Char :=
  '"' :: s.toList.flatMap escapeChar ++ ['"']

/-- The text of a number; the words for what is not finite are never needed. -/
def Number.chars : Number → List Char
  | .integer n => Numeral.ofInt n
  | .float (.finite negative quanta) => Binary64.documentNumeral negative quanta
  | .float _ => ['n', 'u', 'l', 'l']

mutual

/-- The compact text of a value. -/
def chars : Json → List Char
  | .null => ['n', 'u', 'l', 'l']
  | .bool true => ['t', 'r', 'u', 'e']
  | .bool false => ['f', 'a', 'l', 's', 'e']
  | .num n => n.chars
  | .str s => quote s
  | .arr [] => ['[', ']']
  | .arr (item :: items) => '[' :: item.chars ++ moreItems items ++ [']']
  | .obj [] => ['{', '}']
  | .obj ((key, value) :: rest) =>
    '{' :: quote key ++ ':' :: value.chars ++ moreEntries rest ++ ['}']
termination_by structural j => j

/-- The text of the items behind the first. -/
def moreItems : List Json → List Char
  | [] => []
  | item :: items => ',' :: item.chars ++ moreItems items
termination_by structural items => items

/-- The text of the entries behind the first. -/
def moreEntries : List (String × Json) → List Char
  | [] => []
  | (key, value) :: rest => ',' :: quote key ++ ':' :: value.chars ++ moreEntries rest
termination_by structural es => es

end

/-- The compact text of a value as a string. -/
def toText (j : Json) : String :=
  String.ofList j.chars

end ScopedStyle.Json
