import ScopedStyle.Number.Binary64

/-!
# Shortest decimals

A decimal *reads back* as a number if it lies in the interval of the reals that
round to the number. The shortest such decimal is a point of the coarsest grid
`10 ^ k` that meets this interval. If a point of a grid lies in the interval,
then so does one of the two neighbours of the number on that grid, hence only
these are tried, on one grid after the other. Of two neighbours that read back,
the nearer is taken, and a `Tie` says what becomes of a number in the middle.

All lengths are scaled by `4 · 10 ^ 324`, which makes the ends of the interval
and the points of every grid whole.
-/

namespace ScopedStyle

/-- A decimal: `significand` times the power `exponent` of ten. -/
structure Decimal where
  /-- The digits, read as one whole number. -/
  significand : Nat
  /-- The power of ten that the last digit stands for. -/
  exponent : Int
  deriving DecidableEq

/-- What is taken of two decimals that are equally near. -/
inductive Tie where
  /-- The one with the even last digit. -/
  | toEven
  /-- The one of the greater magnitude. -/
  | away

namespace Binary64

/-- The scale of all lengths but for its factor four. It makes the steps of all
    grids from `10 ^ -324` on whole. -/
def finest : Nat := .pow 10 324

/-- The magnitudes that round to one finite number, scaled. -/
structure Interval where
  /-- The lower end. -/
  low : Nat
  /-- The upper end. -/
  high : Nat
  /-- Whether the ends belong to the interval. -/
  closed : Bool

/-- Whether a magnitude lies in the interval. -/
def Interval.contains (i : Interval) (x : Nat) : Bool :=
  if i.closed then i.low ≤ x && x ≤ i.high else i.low < x && x < i.high

/-- The magnitudes that round to `quanta`. They reach half a step to either
    side, below a power of two half a step of the finer grid there, and take in
    the ends when the last bit is even. -/
def interval (quanta : Nat) : Interval :=
  let step := spacing quanta
  let stepBelow := spacing (quanta - 1)
  { low := (4 * quanta - 2 * stepBelow) * finest
    high := (4 * quanta + 2 * step) * finest
    closed := quanta / step % 2 = 0 }

/-- The distance of the points of the grid `10 ^ (level - 324)`, scaled. -/
def gridStep (level : Nat) : Nat :=
  4 * one * .pow 10 level

/-- The multiple of the grid step that reads back and is nearest to `x`, if one
    of its two neighbours reads back. -/
def gridPoint? (tie : Tie) (i : Interval) (x level : Nat) : Option Nat :=
  let step := gridStep level
  let below := x / step
  let rest := x % step
  match i.contains (below * step), i.contains ((below + 1) * step) with
  | false, false => none
  | true, false => some below
  | false, true => some (below + 1)
  | true, true =>
    if 2 * rest < step then some below
    else if step < 2 * rest then some (below + 1)
    else match tie with
      | .toEven => some (if below % 2 = 0 then below else below + 1)
      | .away => some (below + 1)

/-- The first point that reads back on the grids from `level` down. The finest
    grid always has one. -/
def coarsest (tie : Tie) (i : Interval) (x : Nat) : Nat → Decimal
  | 0 => ⟨(gridPoint? tie i x 0).getD (x / gridStep 0), -324⟩
  | level + 1 =>
    match gridPoint? tie i x (level + 1) with
    | some point => ⟨point, level + 1 - 324⟩
    | none => coarsest tie i x level

/-- A level whose grid step is above `x`: ten is more than the third power of
    two, so a third of the binary places suffices. -/
def topLevel (x : Nat) : Nat :=
  (x / gridStep 0).log2 / 3 + 1

/-- The shortest decimal that reads back as the magnitude of `quanta`. -/
def shortest (tie : Tie) (quanta : Nat) : Decimal :=
  if quanta = 0 then ⟨0, 0⟩
  else
    let x := 4 * quanta * finest
    coarsest tie (interval quanta) x (topLevel x)

end Binary64

end ScopedStyle
