import ScopedStyle.Number.Binary64

/-!
# Reading typed numbers

Where a setting is typed, a number has an optional sign and then either decimal
digits, with at most one point among or beside them and an optional exponent, or
one of the words `inf`, `infinity` and `nan` in any case. There is no blank,
separator or unit. The decimal is rounded once, to the nearest binary64 value,
so a large one becomes infinite.
-/

namespace ScopedStyle

namespace Numeral

/-- A decimal digit. -/
def isDigit (c : Char) : Bool :=
  '0' ≤ c && c ≤ '9'

/-- The number that a row of digits stands for. -/
def ofDigits (ds : List Char) : Nat :=
  ds.foldl (fun n d => 10 * n + (d.toNat - '0'.toNat)) 0

/-- The value of an exponent: an optional sign and at least one digit. -/
def exponent? (cs : List Char) : Option Int :=
  let magnitude? (ds : List Char) : Option Nat :=
    if !ds.isEmpty && ds.all isDigit then some (ofDigits ds) else none
  match cs with
  | '+' :: ds => (magnitude? ds).map fun n => (n : Int)
  | '-' :: ds => (magnitude? ds).map fun n => -(n : Int)
  | ds => (magnitude? ds).map fun n => (n : Int)

/-- The exponent that a text ends with, zero when there is none. -/
def exponentPart? : List Char → Option Int
  | [] => some 0
  | 'e' :: cs | 'E' :: cs => exponent? cs
  | _ => none

/-- The fraction digits that follow a point, and what is behind them. -/
def fractionPart : List Char → List Char × List Char
  | '.' :: cs => (cs.takeWhile isDigit, cs.dropWhile isDigit)
  | cs => ([], cs)

/-- The significand and exponent of an unsigned decimal. -/
def decimal? (cs : List Char) : Option (Nat × Int) :=
  let whole := cs.takeWhile isDigit
  let (fraction, rest) := fractionPart (cs.dropWhile isDigit)
  if whole.isEmpty && fraction.isEmpty then none
  else (exponentPart? rest).map fun e => (ofDigits (whole ++ fraction), e - fraction.length)

end Numeral

namespace Binary64

/-- The value of one of the words for what is not finite. -/
def ofWord? (negative : Bool) (cs : List Char) : Option Binary64 :=
  let word := String.ofList (cs.map Char.toLower)
  if word = "inf" || word = "infinity" then some (.infinite negative)
  else if word = "nan" then some .nan
  else none

/-- The value of a typed number behind its sign. -/
def ofUnsigned? (negative : Bool) (cs : List Char) : Option Binary64 :=
  match Numeral.decimal? cs with
  | some (significand, exponent) => some (ofDecimal negative significand exponent)
  | none => ofWord? negative cs

/-- The value of a typed number. -/
def ofChars? : List Char → Option Binary64
  | '-' :: cs => ofUnsigned? true cs
  | '+' :: cs => ofUnsigned? false cs
  | cs => ofUnsigned? false cs

/-- The value of a typed number. -/
def ofText? (s : String) : Option Binary64 :=
  ofChars? s.toList

end Binary64

end ScopedStyle
