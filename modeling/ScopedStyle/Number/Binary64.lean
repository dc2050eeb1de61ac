/-!
# Binary64 numbers

A setting's number is a value of the IEEE 754 format *binary64*. Every finite
value of the format is a whole multiple of `2 ^ -1074`, its smallest positive
value, so a finite number is its sign and the count of these *quanta*. Order,
integrality and clamping are then questions about natural numbers, and no
operation leaves the exact arithmetic before the one rounding at its end.

Rounding goes to the nearest value, a half to the one with the even last bit,
and from half a step below `2 ^ 1024` on to infinity (`ofQuotient`).
-/

namespace ScopedStyle

/-- A number in the format binary64. -/
inductive Binary64 where
  /-- The result of an operation that has no value. -/
  | nan
  /-- A magnitude beyond the greatest finite one. -/
  | infinite (negative : Bool)
  /-- A magnitude of `quanta` times `2 ^ -1074`; zero has both signs. -/
  | finite (negative : Bool) (quanta : Nat)
  deriving DecidableEq

namespace Binary64

/-- The number of quanta that make one. -/
def one : Nat := .pow 2 1074

/-- The least number of quanta that is no longer finite, those of `2 ^ 1024`. -/
def limit : Nat := .pow 2 2098

/-- The positive zero. -/
def zero : Binary64 := .finite false 0

/-- The distance, in quanta, of the values next to a magnitude of `quanta`:
    above `2 ^ 53` quanta a value keeps its leading 53 bits. -/
def spacing (quanta : Nat) : Nat :=
  .pow 2 (quanta.log2 - 52)

/-- The whole number nearest to `num / den`, the even one of two. -/
def nearest (num den : Nat) : Nat :=
  let below := num / den
  let rest := num % den
  if 2 * rest < den then below
  else if den < 2 * rest then below + 1
  else if below % 2 = 0 then below
  else below + 1

/-- The number nearest to `num / den`, with a sign of its own so that a
    quotient too small for a quantum keeps it. -/
def ofQuotient (negative : Bool) (num den : Nat) : Binary64 :=
  let step := spacing (num * one / den)
  let quanta := nearest (num * one) (den * step) * step
  if quanta < limit then .finite negative quanta else .infinite negative

/-- The number nearest to an integer. -/
def ofInt (n : Int) : Binary64 :=
  ofQuotient (n < 0) n.natAbs 1

/-- The number nearest to a power of ten. -/
def powTen (k : Nat) : Binary64 :=
  ofQuotient false (.pow 10 k) 1

/-- The number nearest to `significand` times the power `exponent` of ten.

    An exponent far outside the range of the format is settled without writing
    its power out. -/
def ofDecimal (negative : Bool) (significand : Nat) (exponent : Int) : Binary64 :=
  if significand = 0 then .finite negative 0
  else if 310 < exponent then .infinite negative
  else if (significand.log2 + 1 : Int) + exponent < -330 then .finite negative 0
  else if 0 ≤ exponent then ofQuotient negative (significand * .pow 10 exponent.toNat) 1
  else ofQuotient negative significand (.pow 10 exponent.natAbs)

/-- The number with the other sign. -/
def neg : Binary64 → Binary64
  | .nan => .nan
  | .infinite s => .infinite !s
  | .finite s q => .finite (!s) q

/-- The product, rounded once. -/
def mul : Binary64 → Binary64 → Binary64
  | .nan, _ | _, .nan => .nan
  | .infinite s, .infinite t => .infinite (s ^^ t)
  | .infinite s, .finite t q | .finite s q, .infinite t =>
    if q = 0 then .nan else .infinite (s ^^ t)
  | .finite s p, .finite t q => ofQuotient (s ^^ t) (p * q) (one * one)

/-- The quotient, rounded once. -/
def div : Binary64 → Binary64 → Binary64
  | .nan, _ | _, .nan => .nan
  | .infinite _, .infinite _ => .nan
  | .infinite s, .finite t _ => .infinite (s ^^ t)
  | .finite s _, .infinite t => .finite (s ^^ t) 0
  | .finite s p, .finite t q =>
    if q = 0 then if p = 0 then .nan else .infinite (s ^^ t)
    else ofQuotient (s ^^ t) p q

instance : Neg Binary64 := ⟨neg⟩
instance : Mul Binary64 := ⟨mul⟩
instance : Div Binary64 := ⟨div⟩

/-- The place of a number in the order of the format, in quanta, with infinity
    at the limit. Both zeros have one place, and what is no number has none. -/
def rank? : Binary64 → Option Int
  | .nan => none
  | .infinite negative => some (if negative then -limit else limit)
  | .finite negative quanta => some (if negative then -quanta else quanta)

/-- How two numbers compare; what is no number compares with nothing. -/
def compare? (x y : Binary64) : Option Ordering := do
  return compare (← x.rank?) (← y.rank?)

/-- Whether both are numbers and at one place, as the two zeros are. -/
def same (x y : Binary64) : Bool :=
  x.compare? y = some .eq

/-- Whether both are numbers and the first is below the second. -/
def below (x y : Binary64) : Bool :=
  x.compare? y = some .lt

/-- The greater of two numbers; what is no number gives way to the other. -/
def max (x y : Binary64) : Binary64 :=
  match x.rank?, y.rank? with
  | none, _ => y
  | _, none => x
  | some m, some n => if m < n then y else x

/-- The lesser of two numbers; what is no number gives way to the other. -/
def min (x y : Binary64) : Binary64 :=
  match x.rank?, y.rank? with
  | none, _ => y
  | _, none => x
  | some m, some n => if n < m then y else x

/-- Whether the number is finite. -/
def isFinite : Binary64 → Bool
  | .finite _ _ => true
  | _ => false

end Binary64

end ScopedStyle
