import ScopedStyle.Number.Shortest

/-!
# Numerals

A number of a setting is written in two ways. *CSS numerals* are positional
whatever their length, because a style sheet knows no exponents in lengths:
`1e21` is a one and twenty-one zeros. *Document numerals*, those of JSON, always
have a fraction or an exponent, so that a float never reads back as an integer;
they are positional from `10 ^ -5` up to `10 ^ 16`.

Both take the shortest digits that read back. They differ on a number in the
middle between two shortest decimals: a CSS numeral has the one of the greater
magnitude, a document numeral the one with the even last digit.
-/

namespace ScopedStyle

namespace Numeral

/-- The decimal digits of a natural number, most significant first. -/
def digits (n : Nat) : List Char :=
  Nat.toDigits 10 n

/-- A run of zeros. -/
def zeros (n : Nat) : List Char :=
  List.replicate n '0'

/-- A minus sign for what is negative. -/
def sign (negative : Bool) : List Char :=
  if negative then ['-'] else []

/-- The decimal text of an integer. -/
def ofInt (n : Int) : List Char :=
  sign (n < 0) ++ digits n.natAbs

/-- A decimal in positional notation, without a point when it is whole. -/
def positional (d : Decimal) : List Char :=
  let ds := digits d.significand
  if 0 ≤ d.exponent then ds ++ zeros d.exponent.toNat
  else
    let places := d.exponent.natAbs
    let padded := zeros (places + 1 - ds.length) ++ ds
    padded.take (padded.length - places) ++ '.' :: padded.drop (padded.length - places)

/-- A decimal in scientific notation: one digit, the others as a fraction, and
    an exponent that always has a sign. -/
def scientific (d : Decimal) : List Char :=
  let ds := digits d.significand
  let power := d.exponent + (ds.length - 1 : Nat)
  let fraction := if ds.length = 1 then [] else '.' :: ds.drop 1
  ds.take 1 ++ fraction ++ 'e' :: (if power < 0 then '-' else '+') :: digits power.natAbs

end Numeral

namespace Binary64

/-- The shortest digits in positional notation, and words for what is not
    finite. -/
def positional : Binary64 → List Char
  | .nan => ['N', 'a', 'N']
  | .infinite negative => Numeral.sign negative ++ ['i', 'n', 'f']
  | .finite negative quanta =>
    Numeral.sign negative ++ Numeral.positional (shortest .away quanta)

/-- The positional text as a string. -/
def toText (x : Binary64) : String :=
  String.ofList x.positional

/-- Whether the number is an integer. -/
def isWhole : Binary64 → Bool
  | .finite _ quanta => quanta % one = 0
  | _ => false

/-- The integer that a finite number is cut to. -/
def truncate : Binary64 → Int
  | .finite negative quanta => if negative then -(quanta / one : Nat) else (quanta / one : Nat)
  | _ => 0

/-- Whether the number is finite with a magnitude below `10 ^ 15`, where every
    integer is a number of the format. -/
def isSmall : Binary64 → Bool
  | .finite _ quanta => quanta < .pow 10 15 * one
  | _ => false

/-- The numeral that stands for a number in a style sheet. A small integer has
    neither point nor sign of zero. -/
def cssNumeral (x : Binary64) : List Char :=
  if x.isWhole && x.isSmall then Numeral.ofInt x.truncate else x.positional

/-- The CSS numeral as a string. -/
def toCss (x : Binary64) : String :=
  String.ofList x.cssNumeral

/-- The numeral that stands for a finite number in a document. -/
def documentNumeral (negative : Bool) (quanta : Nat) : List Char :=
  let d := shortest .toEven quanta
  let point := d.exponent + (Numeral.digits d.significand).length
  Numeral.sign negative ++
    if d.significand = 0 then ['0', '.', '0']
    else if -5 < point && point ≤ 16 then
      if 0 ≤ d.exponent then Numeral.positional d ++ ['.', '0'] else Numeral.positional d
    else Numeral.scientific d

end Binary64

end ScopedStyle
