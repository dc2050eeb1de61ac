import ScopedStyle.Json.Basic
import ScopedStyle.Number.Reading

/-!
# Number literals

A number literal is taken apart into its digits first and valued afterwards,
because a place that ignores a value does not ask whether its number is in
range.

A literal without fraction and exponent is an integer if it fits 64 bits, but
for `-0`, which is a float. Every other literal is valued in two roundings: its
digits are collected while they fit 64 bits, this significand is rounded, and
the result is multiplied or divided by a rounded power of ten. So the last bit
of a long literal may differ from that of the nearest number.
-/

namespace ScopedStyle.Json

/-- A number literal. -/
structure Literal where
  /-- Whether it begins with a minus sign. -/
  negative : Bool
  /-- The digits before the point. -/
  whole : List Char
  /-- The digits behind the point, if it has one. -/
  fraction? : Option (List Char)
  /-- The power of ten, if one is written. -/
  exponent? : Option Int

namespace Literal

/-- Whether digits may stand before the point: at least one, and more than one
    only without a leading zero. -/
def wellFormedWhole : List Char → Bool
  | [] => false
  | ['0'] => true
  | d :: _ => d ≠ '0'

/-- The fraction of a literal and what is behind it; a point needs a digit. -/
def fractionOf? : List Char → Option (Option (List Char) × List Char)
  | '.' :: cs =>
    let ds := cs.takeWhile Numeral.isDigit
    if ds.isEmpty then none else some (some ds, cs.dropWhile Numeral.isDigit)
  | cs => some (none, cs)

/-- The exponent that a literal ends with. -/
def exponentOf? : List Char → Option (Option Int)
  | [] => some none
  | 'e' :: cs | 'E' :: cs => (Numeral.exponent? cs).map some
  | _ => none

/-- A literal behind its sign. -/
def ofUnsigned? (negative : Bool) (cs : List Char) : Option Literal := do
  let whole := cs.takeWhile Numeral.isDigit
  guard (wellFormedWhole whole)
  let (fraction?, rest) ← fractionOf? (cs.dropWhile Numeral.isDigit)
  let exponent? ← exponentOf? rest
  return { negative, whole, fraction?, exponent? }

/-- The literal that a word is. -/
def ofChars? : List Char → Option Literal
  | '-' :: cs => ofUnsigned? true cs
  | cs => ofUnsigned? false cs

/-- The least natural number that does not fit 64 bits. -/
def wordLimit : Nat := .pow 2 64

/-- Adds digits to a significand while it fits 64 bits, and gives the
    digits that are left. -/
def collect (significand : Nat) : List Char → Nat × List Char
  | [] => (significand, [])
  | d :: ds =>
    let next := 10 * significand + Numeral.ofDigits [d]
    if next < wordLimit then collect next ds else (significand, d :: ds)

/-- The significand and the power of ten of a literal. Digits before the point
    that no longer fit raise the power; behind the point they are dropped. -/
def scale (l : Literal) : Nat × Int :=
  let (whole, unused) := collect 0 l.whole
  let fraction := l.fraction?.getD []
  let (significand, dropped) := collect whole fraction
  (significand, unused.length - (fraction.length - dropped.length : Nat) + l.exponent?.getD 0)

/-- The float of a significand and a power of ten, none if it is not finite.
    Powers beyond the range of the format are applied in two steps, after which
    nothing is left of any significand. -/
def float? (negative : Bool) (significand : Nat) (power : Int) : Option Binary64 :=
  let x := Binary64.ofQuotient negative significand 1
  let y :=
    if significand = 0 then x
    else if 308 < power then .infinite negative
    else if 0 ≤ power then x * .powTen power.toNat
    else if -308 ≤ power then x / .powTen power.natAbs
    else if -616 ≤ power then x / .powTen 308 / .powTen (power.natAbs - 308)
    else .finite negative 0
  if y.isFinite then some y else none

/-- Whether an integer of either sign fits 64 bits; `-0` does not count. -/
def fitsInteger (negative : Bool) (magnitude : Nat) : Bool :=
  if negative then 0 < magnitude && 2 * magnitude ≤ wordLimit else magnitude < wordLimit

/-- The number that a literal stands for, none if it is out of range. -/
def number? (l : Literal) : Option Number :=
  let magnitude := Numeral.ofDigits l.whole
  if l.fraction?.isNone && l.exponent?.isNone && fitsInteger l.negative magnitude then
    some (.integer (if l.negative then -magnitude else magnitude))
  else
    let (significand, power) := l.scale
    (float? l.negative significand power).map .float

end Literal

end ScopedStyle.Json
