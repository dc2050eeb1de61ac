import ScopedStyle.Json.Literal

/-!
# Lexemes of JSON text

A text is a row of lexemes with blanks between them: the six marks, the words
`null`, `true` and `false`, number literals and strings. A string may escape
half of a surrogate pair. Such a string has no value, but it is a lexeme, since
it may stand where its value is not asked for.
-/

namespace ScopedStyle.Json

/-- A lexeme of JSON text. -/
inductive Lexeme where
  /-- The mark `[`. -/
  | openList
  /-- The mark `]`. -/
  | closeList
  /-- The opening brace. -/
  | openObject
  /-- The closing brace. -/
  | closeObject
  /-- The mark `,`. -/
  | comma
  /-- The mark `:`. -/
  | colon
  /-- The word `null`. -/
  | null
  /-- One of the words `true` and `false`. -/
  | bool (b : Bool)
  /-- A number literal. -/
  | num (l : Literal)
  /-- A string, without a text if it holds half of a surrogate pair. -/
  | str (text? : Option String)

namespace Lexeme

/-- A piece of a string: a character, or a UTF-16 unit that is escaped by its
    number. -/
inductive Piece where
  /-- A character that stands for itself or is escaped by a letter. -/
  | char (c : Char)
  /-- The unit of an escape by number. -/
  | unit (n : Nat)

/-- The value of a hexadecimal digit. -/
def hexValue? (c : Char) : Option Nat :=
  if '0' ≤ c && c ≤ '9' then some (c.toNat - '0'.toNat)
  else if 'a' ≤ c && c ≤ 'f' then some (c.toNat - 'a'.toNat + 10)
  else if 'A' ≤ c && c ≤ 'F' then some (c.toNat - 'A'.toNat + 10)
  else none

/-- The unit of four hexadecimal digits. -/
def unit? (a b c d : Char) : Option Nat := do
  return (← hexValue? a) * 4096 + (← hexValue? b) * 256 + (← hexValue? c) * 16 + (← hexValue? d)

/-- The character that a letter behind a backslash stands for. -/
def escaped? : Char → Option Char
  | '"' => some '"'
  | '\\' => some '\\'
  | '/' => some '/'
  | 'b' => some '\x08'
  | 'f' => some '\x0c'
  | 'n' => some '\n'
  | 'r' => some '\x0d'
  | 't' => some '\t'
  | _ => none

/-- A character that stands for itself in a string: no control character and no
    backslash. -/
def plain? (c : Char) : Option Char :=
  if c.toNat < 0x20 || c = '\\' then none else some c

/-- The pieces of a string up to its closing quote, and what is behind it. -/
def pieces? : List Char → Option (List Piece × List Char)
  | [] => none
  | '"' :: rest => some ([], rest)
  | '\\' :: 'u' :: a :: b :: c :: d :: rest => do
    let n ← unit? a b c d
    let (pieces, rest) ← pieces? rest
    return (.unit n :: pieces, rest)
  | '\\' :: e :: rest => do
    let c ← escaped? e
    let (pieces, rest) ← pieces? rest
    return (.char c :: pieces, rest)
  | c :: rest => do
    let c ← plain? c
    let (pieces, rest) ← pieces? rest
    return (.char c :: pieces, rest)

/-- The characters of a row of pieces, in which two units that follow each other
    may make one character. -/
def assemble? : List Piece → Option (List Char)
  | [] => some []
  | .char c :: rest => (assemble? rest).map (c :: ·)
  | .unit high :: .unit low :: rest =>
    if 0xD800 ≤ high && high < 0xDC00 then
      if 0xDC00 ≤ low && low < 0xE000 then
        let c := Char.ofNat (0x10000 + (high - 0xD800) * 0x400 + (low - 0xDC00))
        (assemble? rest).map (c :: ·)
      else none
    else if 0xDC00 ≤ high && high < 0xE000 then none
    else (assemble? (.unit low :: rest)).map (Char.ofNat high :: ·)
  | .unit n :: rest =>
    if 0xD800 ≤ n && n < 0xE000 then none
    else (assemble? rest).map (Char.ofNat n :: ·)

/-- A blank of JSON text. -/
def isGap (c : Char) : Bool :=
  c = ' ' || c = '\n' || c = '\t' || c = '\x0d'

/-- The lexeme that a mark is. -/
def mark? : Char → Option Lexeme
  | '[' => some .openList
  | ']' => some .closeList
  | '{' => some .openObject
  | '}' => some .closeObject
  | ',' => some .comma
  | ':' => some .colon
  | _ => none

/-- Whether a character goes on with the word or number before it. -/
def isWordChar (c : Char) : Bool :=
  !isGap c && (mark? c).isNone && c ≠ '"'

/-- The lexeme that a whole word is. -/
def word? (cs : List Char) : Option Lexeme :=
  if cs = ['n', 'u', 'l', 'l'] then some .null
  else if cs = ['t', 'r', 'u', 'e'] then some (.bool true)
  else if cs = ['f', 'a', 'l', 's', 'e'] then some (.bool false)
  else (Literal.ofChars? cs).map .num

theorem length_pieces?_le {cs rest : List Char} {pieces : List Piece}
    (h : pieces? cs = some (pieces, rest)) : rest.length ≤ cs.length := by
  fun_induction pieces? cs generalizing pieces rest <;>
    simp only [Option.pure_def, Option.bind_eq_bind, Option.bind_eq_some_iff, Prod.exists,
      Option.some.injEq, Prod.mk.injEq, reduceCtorEq] at h
  case case2 => simp [← h.2]
  all_goals
    rename_i ih
    obtain ⟨_, _, _, _, hr, _, rfl⟩ := h
    have := ih hr
    simp only [List.length_cons]
    omega

/-- The lexemes of a text. -/
def ofChars? : List Char → Option (List Lexeme)
  | [] => some []
  | c :: cs =>
    if isGap c then ofChars? cs
    else if c = '"' then
      match h : pieces? cs with
      | none => none
      | some (pieces, rest) =>
        have := length_pieces?_le h
        (ofChars? rest).map (.str ((assemble? pieces).map String.ofList) :: ·)
    else
      match mark? c with
      | some l => (ofChars? cs).map (l :: ·)
      | none =>
        have := (cs.dropWhile_sublist isWordChar).length_le
        (word? (c :: cs.takeWhile isWordChar)).bind fun l =>
          (ofChars? (cs.dropWhile isWordChar)).map (l :: ·)
termination_by cs => cs.length

end Lexeme

end ScopedStyle.Json
