import ScopedStyle.Json.Literal
import ScopedStyle.Proofs.Number.CssNumeral
import ScopedStyle.Proofs.Value.UnsaidUnit

/-!
# The text of a number field

A number comes into a style sheet in two ways, as a number of a document or as a
text that somebody has typed. Either is read, brought within the bounds of its
field and written as a CSS numeral. The text is a decimal numeral, and with its unit
a length, exactly when what is left within the bounds is finite
(`Field.value_numeral_iff`).

The numbers of a document are finite (`Json.Number.InRange`), and finite bounds leave
finite what was (`Scalar.isFinite_clamp`). What gets through is a text
that is read as something else, like `inf`, `nan` or `1e999`, where no bound stops it.
-/

namespace ScopedStyle

/-! ### Finite numbers -/

namespace Binary64

variable {x y : Binary64}

theorem isFinite_max (hx : x.isFinite = true) (hy : y.isFinite = true) :
    (x.max y).isFinite = true := by
  rw [max]
  repeat' split
  all_goals assumption

theorem isFinite_min (hx : x.isFinite = true) (hy : y.isFinite = true) :
    (x.min y).isFinite = true := by
  rw [min]
  repeat' split
  all_goals assumption

/-- Rounding to a whole number goes to one of the two beside the quotient. -/
theorem nearest_le (num den : Nat) : nearest num den ≤ num / den + 1 := by
  rw [nearest]
  repeat' split
  all_goals omega

/-- The values next to a magnitude are no farther off than the magnitude itself. -/
theorem spacing_le (quanta : Nat) : spacing quanta ≤ quanta + 1 := by
  by_cases h : quanta = 0
  · subst h
    decide
  · calc spacing quanta ≤ 2 ^ quanta.log2 := Nat.pow_le_pow_right (by decide) (Nat.sub_le _ _)
      _ ≤ quanta := Nat.log2_self_le h
      _ ≤ quanta + 1 := Nat.le_succ _

/-- A magnitude below half of the limit is finite when it is rounded. -/
theorem isFinite_ofQuotient (negative : Bool) {num : Nat} (h : 2 * (num * one) + 1 < limit) :
    (ofQuotient negative num 1).isFinite = true := by
  have hquanta (n : Nat) : nearest n (1 * spacing n) * spacing n ≤ n + spacing n := by
    calc nearest n (1 * spacing n) * spacing n
        ≤ (n / spacing n + 1) * spacing n := by
          rw [Nat.one_mul]
          exact Nat.mul_le_mul_right _ (nearest_le _ _)
      _ = n / spacing n * spacing n + spacing n := Nat.succ_mul _ _
      _ ≤ n + spacing n := Nat.add_le_add_right (Nat.div_mul_le_self _ _) _
  have hlimit := (hquanta (num * one)).trans (Nat.add_le_add_left (spacing_le _) _)
  rw [ofQuotient, Nat.div_one, if_pos (by omega)]
  rfl

/-- An integer of 64 bits is far below the limit. -/
theorem isFinite_ofInt {n : Int} (h : n.natAbs < Json.Literal.wordLimit) :
    (ofInt n).isFinite = true := by
  refine isFinite_ofQuotient _ ?_
  have hone : n.natAbs * one < Json.Literal.wordLimit * one :=
    Nat.mul_lt_mul_of_pos_right h (by decide +kernel)
  have hlimit : 2 * (Json.Literal.wordLimit * one) < limit := by decide +kernel
  omega

end Binary64

namespace Json

/-- A number that a document can have: an integer of 64 bits, or a float that is
    finite. -/
def Number.InRange : Number → Prop
  | .integer n => n.natAbs < Literal.wordLimit
  | .float x => x.isFinite = true

theorem Number.InRange.isFinite {n : Number} (h : n.InRange) : n.toBinary64.isFinite = true := by
  cases n with
  | integer n => exact Binary64.isFinite_ofInt h
  | float x => exact h

/-- The number that a value is in a number field, none where it is empty. -/
def typedNumber? : Json → Option Binary64
  | .num n => some n.toBinary64
  | .str s => Binary64.ofText? (Text.trim s)
  | _ => none

end Json

/-! ### Numbers within bounds -/

namespace Scalar

variable {f : Field} {v : Json} {text : String}

/-- Finite bounds leave a finite number finite. -/
theorem isFinite_clamp {min max : Option Binary64} {x : Binary64} (hx : x.isFinite = true)
    (hmin : ∀ b, min = some b → b.isFinite = true) (hmax : ∀ b, max = some b → b.isFinite = true) :
    (clamp min max x).isFinite = true := by
  cases min with
  | none =>
    cases max with
    | none => exact hx
    | some m => exact Binary64.isFinite_min hx (hmax m rfl)
  | some l =>
    have hlow := Binary64.isFinite_max hx (hmin l rfl)
    cases max with
    | none => exact hlow
    | some m => exact Binary64.isFinite_min hlow (hmax m rfl)

/-- The text of a number field is that of the number within the bounds, or else
    empty. -/
theorem numberText?_eq_some (h : numberText? f v = some text) :
    text = (v.typedNumber?.map (clamp f.min f.max)).elim "" Binary64.toCss := by
  cases v with
  | num n => exact (Option.some.inj h).symm
  | str s =>
    rw [numberText?] at h
    split at h
    · rename_i hempty
      have htrim : Text.trim s = "" := by simpa using hempty
      rw [Json.typedNumber?, htrim]
      exact (Option.some.inj h).symm
    · obtain ⟨x, hx, rfl⟩ := Option.map_eq_some_iff.1 h
      rw [Json.typedNumber?, hx]
      rfl
  | _ => cases h

end Scalar

namespace Field

variable {f : Field} {stored fallback : Option Json} {r : Resolved}

/-- What a value contributes to a number field is its text. -/
theorem resolve?_number_iff (hk : f.kind = .number) {v : Json} : f.resolve? v = some r ↔
    Kind.accepts .number v = true ∧
      ∃ text, Scalar.numberText? f v = some text ∧ .ofTokens (Scalar.tokens f text) = r := by
  rw [resolve?, resolveShaped?, Scalar.resolve?, Scalar.text?, hk, Option.ite_none_right_eq_some,
    Option.map_eq_some_iff]

/-- The value that counts: the stored one if the field can use it, or else the
    fallback. -/
def used? (f : Field) (stored fallback : Option Json) : Option Json :=
  ((stored.bind Json.nonNull?).filter fun v => (f.resolve? v).isSome).or
    (fallback.bind Json.nonNull?)

/-- What is resolved is what the value that counts comes to. -/
theorem resolve_used (h : f.resolve stored fallback = .ok r) :
    (∃ v, f.used? stored fallback = some v ∧ f.resolve? v = some r) ∨
      f.used? stored fallback = none ∧ r = Scalar.unset f := by
  rcases resolve_eq_ok_iff.1 h with ⟨v, hv, hr⟩ | ⟨hstored, d, hd, hr⟩ | ⟨hnone, hd, hunset⟩
  · exact .inl ⟨v, by simp [used?, hv, hr], hr⟩
  · have hfilter : (stored.bind Json.nonNull?).filter (fun v => (f.resolve? v).isSome) = none := by
      rw [Option.filter_eq_none_iff]
      exact fun v hv => by simp [hstored v hv]
    exact .inl ⟨d, by rw [used?, hfilter, hd, Option.none_or], hr⟩
  · exact .inr ⟨by rw [used?, hnone, hd]; rfl, (resolveUnset_eq_ok hunset).2⟩

/-- The number that counts, within the bounds of the field. -/
def boundedNumber? (f : Field) (stored fallback : Option Json) : Option Binary64 :=
  ((f.used? stored fallback).bind Json.typedNumber?).map (Scalar.clamp f.min f.max)

/-- The text of the number that counts, empty where there is none. -/
def numberText (f : Field) (stored fallback : Option Json) : String :=
  (f.boundedNumber? stored fallback).elim "" Binary64.toCss

/-- What is resolved in a number field has the number that counts for its text. -/
theorem resolve_number (hk : f.kind = .number) (h : f.resolve stored fallback = .ok r) :
    r = .ofTokens (Scalar.tokens f (f.numberText stored fallback)) := by
  rcases resolve_used h with ⟨v, hused, hr⟩ | ⟨hnone, rfl⟩
  · obtain ⟨-, text, htext, rfl⟩ := (resolve?_number_iff hk).1 hr
    rw [numberText, boundedNumber?, hused, Option.bind_some, ← Scalar.numberText?_eq_some htext]
  · rw [numberText, boundedNumber?, hnone]
    rfl

/-- The text is empty or a numeral when no number counts that is not finite. -/
theorem numberText_numeral_iff (f : Field) (stored fallback : Option Json) :
    f.numberText stored fallback = "" ∨ Numeral.IsDecimal (f.numberText stored fallback).toList ↔
      ∀ x, f.boundedNumber? stored fallback = some x → x.isFinite = true := by
  rw [numberText]
  cases f.boundedNumber? stored fallback with
  | none => simp
  | some x => simp [Binary64.toCss_ne_empty, Binary64.isDecimal_toCss_iff]

/-- A number of a document is finite within finite bounds, and so is a typed text
    that is read as a finite number. -/
theorem isFinite_boundedNumber (hnumber : ∀ n, f.used? stored fallback = some (.num n) → n.InRange)
    (htyped : ∀ s x, f.used? stored fallback = some (.str s) →
      Binary64.ofText? (Text.trim s) = some x → x.isFinite = true)
    (hmin : ∀ b, f.min = some b → b.isFinite = true)
    (hmax : ∀ b, f.max = some b → b.isFinite = true) {x : Binary64}
    (hx : f.boundedNumber? stored fallback = some x) : x.isFinite = true := by
  obtain ⟨y, hy, rfl⟩ := Option.map_eq_some_iff.1 hx
  obtain ⟨v, hused, hv⟩ := Option.bind_eq_some_iff.1 hy
  refine Scalar.isFinite_clamp ?_ hmin hmax
  cases v with
  | num n =>
    cases hv
    exact (hnumber n hused).isFinite
  | str s => exact htyped s y hused hv
  | _ => cases hv

/-- In a number field the token of the value is empty or a decimal numeral exactly
    when the number that counts is finite within the bounds of the field. This fails
    at most where a bound is not finite or where a text is typed that is read as a
    number that is not. With a unit, what a declaration gets for a numeral is the
    numeral with the unit behind it. -/
theorem value_numeral_iff (hk : f.kind = .number) (h : f.resolve stored fallback = .ok r) :
    ∃ text, r.tokens.get? Placeholder.value = some text ∧
      (text = "" ∨ Numeral.IsDecimal text.toList ↔
        ∀ x, f.boundedNumber? stored fallback = some x → x.isFinite = true) ∧
      ((∀ n, f.used? stored fallback = some (.num n) → n.InRange) →
        (∀ s x, f.used? stored fallback = some (.str s) →
          Binary64.ofText? (Text.trim s) = some x → x.isFinite = true) →
        (∀ b, f.min = some b → b.isFinite = true) → (∀ b, f.max = some b → b.isFinite = true) →
        text = "" ∨ Numeral.IsDecimal text.toList) ∧
      ∀ unit, f.unit = some unit → unit ≠ "" → Numeral.IsDecimal text.toList →
        ∀ t : Template, Placeholder.unit ∉ t.placeholders →
          r.tokens.lookup t Placeholder.value = some (text ++ unit) := by
  obtain rfl := resolve_number hk h
  refine ⟨f.numberText stored fallback, Scalar.get?_value_tokens f _, numberText_numeral_iff ..,
    fun hnumber htyped hmin hmax => ?_, fun unit hunit hne hnumeral t hnot => ?_⟩
  · exact (numberText_numeral_iff ..).2 fun x hx =>
      isFinite_boundedNumber hnumber htyped hmin hmax hx
  · have hnumber : Tokens.isNumber (f.numberText stored fallback) = true := hnumeral.isSome_ofChars?
    rw [lookup_eq (.inl hk) h (Scalar.saysUnit_tokens hk hunit hne _),
      Resolved.ofTokens, Scalar.get?_value_tokens, Option.map_some,
      if_pos ⟨List.mem_cons_self, hnumber, hnot⟩]

/-- A number with a unit and a default. -/
def gapAttributes : List Attribute :=
  [.key "gap", .label "Gap", .unit "px", .default (.ofNat 12)]

/-- A text for infinity is taken for a number, and put into the style sheet as a
    word with the unit behind it. -/
theorem infinite_gap_no_numeral : ∃ f r, ofAttributes "number" gapAttributes = .ok f ∧
    f.resolve (some (.str "inf")) (some (.ofNat 12)) = .ok r ∧
    r.tokens.get? Placeholder.value = some "inf" ∧
    ¬("inf" = "" ∨ Numeral.IsDecimal "inf".toList) ∧
    r.tokens.render ⟨"\x7b\x7bVALUE\x7d\x7d"⟩ = "infpx" := by
  obtain ⟨f, hmade, r, hresolve, hvalue, hrender⟩ : ∃ f,
      ofAttributes "number" gapAttributes = .ok f ∧ ∃ r,
        f.resolve (some (.str "inf")) (some (.ofNat 12)) = .ok r ∧
          r.tokens.get? Placeholder.value = some "inf" ∧
          r.tokens.render ⟨"\x7b\x7bVALUE\x7d\x7d"⟩ = "infpx" :=
    ⟨_, rfl, _, rfl, by decide +kernel⟩
  refine ⟨f, r, hmade, hresolve, hvalue, ?_, hrender⟩
  rintro (hempty | hnumeral)
  · exact absurd hempty (by decide)
  · exact absurd (hnumeral.cases_of_mem (c := 'i') (by decide)) (by decide)

/-- A typed number is written as a numeral, without the zero at its end. -/
theorem typed_gap_numeral : ∃ f r, ofAttributes "number" gapAttributes = .ok f ∧
    f.kind = .number ∧ f.resolve (some (.str " 1.50 ")) (some (.ofNat 12)) = .ok r ∧
    r.tokens.get? Placeholder.value = some "1.5" ∧ Numeral.IsDecimal "1.5".toList ∧
    ∀ t : Template, Placeholder.unit ∉ t.placeholders →
      r.tokens.lookup t Placeholder.value = some "1.5px" := by
  obtain ⟨f, hmade, r, hresolve, hk, hunit, hvalue, hfinite⟩ : ∃ f,
      ofAttributes "number" gapAttributes = .ok f ∧ ∃ r,
        f.resolve (some (.str " 1.50 ")) (some (.ofNat 12)) = .ok r ∧
          f.kind = .number ∧ f.unit = some "px" ∧
          r.tokens.get? Placeholder.value = some "1.5" ∧
          ((f.boundedNumber? (some (.str " 1.50 ")) (some (.ofNat 12))).all
            Binary64.isFinite) = true :=
    ⟨_, rfl, _, rfl, by decide +kernel⟩
  obtain ⟨text, htext, hiff, -, hlookup⟩ := value_numeral_iff hk hresolve
  cases htext.symm.trans hvalue
  have hnumeral : Numeral.IsDecimal "1.5".toList :=
    (hiff.2 fun x hx => by simpa [hx] using hfinite).resolve_left (by decide)
  exact ⟨f, r, hmade, hk, hresolve, hvalue, hnumeral, hlookup "px" hunit (by decide) hnumeral⟩

end Field

end ScopedStyle
