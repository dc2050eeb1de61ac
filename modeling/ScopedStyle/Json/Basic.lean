import ScopedStyle.Dict
import ScopedStyle.Number.Binary64

/-!
# JSON values

Settings, defaults and condition values are arbitrary JSON. Numbers are of two
kinds, integers of 64 bits and floats, and stay of the kind they were read as:
`1` and `1.0` are different values. Objects are dictionaries in key order.

The equality that conditions use (`Json.same`) is that of the values, not of
their representations: it takes the two zeros of the floats for one number.
-/

namespace ScopedStyle

/-- A JSON number. -/
inductive Json.Number where
  /-- A number written without fraction and exponent, in the range of the
      signed or the unsigned integers of 64 bits. -/
  | integer (n : Int)
  /-- Any other number, always finite. -/
  | float (x : Binary64)
  deriving DecidableEq

/-- A JSON value. The entries of an object are meant to be in key order. -/
inductive Json where
  /-- The value `null`, which stands for "no value" in most places. -/
  | null
  /-- A truth value. -/
  | bool (b : Bool)
  /-- A number. -/
  | num (n : Json.Number)
  /-- A string. -/
  | str (s : String)
  /-- A list. -/
  | arr (items : List Json)
  /-- An object. -/
  | obj (entries : List (String × Json))

namespace Json

/-- The nearest binary64 value of a number. -/
def Number.toBinary64 : Number → Binary64
  | .integer n => .ofInt n
  | .float x => x

/-- Whether two numbers are of one kind and equal. -/
def Number.same : Number → Number → Bool
  | .integer m, .integer n => m = n
  | .float x, .float y => x.same y
  | _, _ => false

/-- The value for a float, `null` for one that JSON cannot write. -/
def ofBinary64 (x : Binary64) : Json :=
  if x.isFinite then .num (.float x) else .null

/-- The value for a natural number. -/
def ofNat (n : Nat) : Json :=
  .num (.integer n)

/-- Whether the value is `null`. -/
def isNull : Json → Bool
  | .null => true
  | _ => false

/-- The text of a string value. -/
def str? : Json → Option String
  | .str s => some s
  | _ => none

/-- The truth value of a boolean value. -/
def bool? : Json → Option Bool
  | .bool b => some b
  | _ => none

/-- The nearest binary64 value of a number value. -/
def number? : Json → Option Binary64
  | .num n => some n.toBinary64
  | _ => none

/-- The items of a list value. -/
def arr? : Json → Option (List Json)
  | .arr items => some items
  | _ => none

/-- The entries of an object value. -/
def obj? : Json → Option (Dict Json)
  | .obj entries => some entries
  | _ => none

/-- The entries of an object, none for any other value. -/
def entries : Json → Dict Json
  | .obj es => es
  | _ => []

/-- The value of a key of an object. -/
def field? (j : Json) (key : String) : Option Json :=
  j.entries.get? key

/-- The value itself unless it is `null`. -/
def nonNull? : Json → Option Json
  | .null => none
  | j => some j

theorem nonNull?_eq_some {j v : Json} (h : j.nonNull? = some v) :
    j = v ∧ v.nonNull? = some v := by
  cases j <;> cases h <;> exact ⟨rfl, rfl⟩

/-- What is left when `null` counts as absent is not `null`. -/
theorem nonNull?_of_bind {j? : Option Json} {v : Json} (h : j?.bind nonNull? = some v) :
    v.nonNull? = some v := by
  obtain ⟨j, _, hj⟩ := Option.bind_eq_some_iff.1 h
  exact (nonNull?_eq_some hj).2

mutual

/-- Whether two values are equal: numbers as `Number.same` has it, all else
    part by part. -/
def same : Json → Json → Bool
  | .null, .null => true
  | .bool a, .bool b => a == b
  | .num m, .num n => m.same n
  | .str s, .str t => s == t
  | .arr xs, .arr ys => sameItems xs ys
  | .obj xs, .obj ys => sameEntries xs ys
  | _, _ => false
termination_by structural x => x

/-- Whether two lists of values are equal item by item. -/
def sameItems : List Json → List Json → Bool
  | [], [] => true
  | x :: xs, y :: ys => x.same y && sameItems xs ys
  | _, _ => false
termination_by structural xs => xs

/-- Whether two lists of entries are equal in keys and values. -/
def sameEntries : List (String × Json) → List (String × Json) → Bool
  | [], [] => true
  | (k, x) :: xs, (l, y) :: ys => k == l && x.same y && sameEntries xs ys
  | _, _ => false
termination_by structural xs => xs

end

mutual

/-- The entries of every object in the value are in key order. -/
def Ordered : Json → Prop
  | .arr items => ItemsOrdered items
  | .obj es => Dict.Ordered es ∧ EntriesOrdered es
  | _ => True
termination_by structural j => j

/-- Every object in the items is in key order. -/
def ItemsOrdered : List Json → Prop
  | [] => True
  | j :: js => j.Ordered ∧ ItemsOrdered js
termination_by structural js => js

/-- Every object in the values of the entries is in key order. -/
def EntriesOrdered : List (String × Json) → Prop
  | [] => True
  | (_, j) :: es => j.Ordered ∧ EntriesOrdered es
termination_by structural es => es

end

end Json

end ScopedStyle
