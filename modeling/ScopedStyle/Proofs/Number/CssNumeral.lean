import Mathlib.Data.List.TakeWhile
import ScopedStyle.Number.Numeral
import ScopedStyle.Number.Reading

/-!
# CSS numerals

A length in a style sheet is a decimal numeral with its unit. A decimal numeral has
an optional minus sign, digits, and optionally a point with digits behind it
(`Numeral.IsDecimal`). It has no exponent, and words for numbers are none.

The text of a number in a style sheet is one of these exactly when the number is
finite (`Binary64.isDecimal_cssNumeral_iff`), be it so large that it is written
with hundreds of zeros or so small that they stand behind the point. What is not
finite is written as a word. Decimal numerals are also what is read as a number
where a setting is typed (`Numeral.IsDecimal.isSome_ofChars?`).
-/

namespace ScopedStyle

namespace Numeral

variable {cs ds : List Char}

/-- One or more digits. -/
def IsDigits (ds : List Char) : Prop :=
  ds ≠ [] ∧ ∀ c ∈ ds, isDigit c = true

/-- A decimal numeral without a sign. -/
inductive IsUnsigned : List Char → Prop
  /-- Digits alone. -/
  | whole {ds : List Char} (h : IsDigits ds) : IsUnsigned ds
  /-- Digits on both sides of a point. -/
  | pointed {ds fs : List Char} (h : IsDigits ds) (hfraction : IsDigits fs) :
      IsUnsigned (ds ++ '.' :: fs)

/-- A decimal numeral. -/
inductive IsDecimal : List Char → Prop
  /-- The numeral of a number that is not negative. -/
  | plain {cs : List Char} (h : IsUnsigned cs) : IsDecimal cs
  /-- The numeral of a negative number. -/
  | minus {cs : List Char} (h : IsUnsigned cs) : IsDecimal ('-' :: cs)

/-! ### Characters of a numeral -/

theorem IsUnsigned.exists_cons (h : IsUnsigned cs) :
    ∃ c rest, cs = c :: rest ∧ isDigit c = true := by
  have hdigits {ds : List Char} (hds : IsDigits ds) :
      ∃ c rest, ds = c :: rest ∧ isDigit c = true := by
    obtain ⟨c, rest, rfl⟩ := List.exists_cons_of_ne_nil hds.1
    exact ⟨c, rest, rfl, hds.2 c List.mem_cons_self⟩
  cases h with
  | whole hds => exact hdigits hds
  | pointed hds _ =>
    obtain ⟨c, rest, rfl, hc⟩ := hdigits hds
    exact ⟨c, _, rfl, hc⟩

theorem IsDecimal.ne_nil (h : IsDecimal cs) : cs ≠ [] := by
  cases h with
  | plain h =>
    obtain ⟨c, rest, rfl, -⟩ := h.exists_cons
    exact List.cons_ne_nil _ _
  | minus h => exact List.cons_ne_nil _ _

/-- A numeral has no other characters than digits, a sign and a point. -/
theorem IsDecimal.cases_of_mem (h : IsDecimal cs) {c : Char} (hc : c ∈ cs) :
    c = '-' ∨ c = '.' ∨ isDigit c = true := by
  have hunsigned {cs : List Char} (h : IsUnsigned cs) (hc : c ∈ cs) :
      c = '.' ∨ isDigit c = true := by
    cases h with
    | whole h => exact .inr (h.2 c hc)
    | pointed h hfraction =>
      rcases List.mem_append.1 hc with hc | hc
      · exact .inr (h.2 c hc)
      · rcases List.mem_cons.1 hc with rfl | hc
        · exact .inl rfl
        · exact .inr (hfraction.2 c hc)
  cases h with
  | plain h => exact .inr (hunsigned h hc)
  | minus h =>
    rcases List.mem_cons.1 hc with rfl | hc
    · exact .inl rfl
    · exact .inr (hunsigned h hc)

/-! ### Writing -/

theorem isDigits_digits (n : Nat) : IsDigits (digits n) := by
  refine ⟨Nat.toDigits_ne_nil, fun c hc => ?_⟩
  have hdigit : c.isDigit = true := Nat.isDigit_of_mem_toDigits (by decide) (by decide) hc
  simpa [isDigit, Char.isDigit, Char.le_def] using hdigit

theorem isDigit_of_mem_zeros {n : Nat} {c : Char} (h : c ∈ zeros n) : isDigit c = true := by
  rw [List.eq_of_mem_replicate h]
  decide

/-- A point may be put anywhere between digits. -/
theorem isUnsigned_take_drop (hds : ∀ c ∈ ds, isDigit c = true) {n : Nat} (hpos : 0 < n)
    (hn : n < ds.length) : IsUnsigned (ds.take n ++ '.' :: ds.drop n) := by
  refine .pointed ⟨?_, fun c hc => hds c (List.mem_of_mem_take hc)⟩
    ⟨?_, fun c hc => hds c (List.mem_of_mem_drop hc)⟩
  · rw [← List.length_pos_iff, List.length_take]
    omega
  · rw [← List.length_pos_iff, List.length_drop]
    omega

/-- Positional notation makes decimal numerals. -/
theorem isUnsigned_positional (d : Decimal) : IsUnsigned (positional d) := by
  obtain ⟨hne, hdigits⟩ := isDigits_digits d.significand
  rw [positional]
  dsimp only
  split
  · refine .whole ⟨by simp [hne], fun c hc => ?_⟩
    rcases List.mem_append.1 hc with hc | hc
    · exact hdigits c hc
    · exact isDigit_of_mem_zeros hc
  · -- The zeros in front leave at least one digit on each side of the point.
    refine isUnsigned_take_drop (fun c hc => ?_) ?_ ?_
    · rcases List.mem_append.1 hc with hc | hc
      · exact isDigit_of_mem_zeros hc
      · exact hdigits c hc
    · simp [zeros]
      omega
    · simp [zeros]
      omega

theorem IsUnsigned.isDecimal_sign (h : IsUnsigned cs) (negative : Bool) :
    IsDecimal (sign negative ++ cs) := by
  cases negative with
  | false => exact .plain h
  | true => exact .minus h

/-! ### Reading -/

/-- Where digits end, the digits that are taken from the front of a text end. -/
theorem takeWhile_isDigit_append (h : ∀ c ∈ ds, isDigit c = true) (cs : List Char) :
    (ds ++ '.' :: cs).takeWhile isDigit = ds ∧ (ds ++ '.' :: cs).dropWhile isDigit = '.' :: cs := by
  rw [List.takeWhile_append_of_pos h, List.dropWhile_append_of_pos h]
  exact ⟨List.append_nil ds, rfl⟩

theorem IsUnsigned.isSome_decimal? (h : IsUnsigned cs) : (decimal? cs).isSome = true := by
  have hall {ds : List Char} (h : IsDigits ds) :
      ds.takeWhile isDigit = ds ∧ ds.dropWhile isDigit = [] :=
    ⟨List.takeWhile_eq_self_iff.2 h.2, List.dropWhile_eq_nil_iff.2 h.2⟩
  rw [decimal?]
  cases h with
  | whole h => simp [hall h, fractionPart, exponentPart?, h.1]
  | @pointed ds fs h hfraction =>
    obtain ⟨hwhole, hrest⟩ := takeWhile_isDigit_append h.2 fs
    simp [hwhole, hrest, hall hfraction, fractionPart, exponentPart?, h.1]

theorem IsDecimal.isSome_ofChars? (h : IsDecimal cs) : (Binary64.ofChars? cs).isSome = true := by
  have hunsigned (negative : Bool) {cs : List Char} (h : IsUnsigned cs) :
      (Binary64.ofUnsigned? negative cs).isSome = true := by
    obtain ⟨d, hd⟩ := Option.isSome_iff_exists.1 h.isSome_decimal?
    rw [Binary64.ofUnsigned?, hd]
    rfl
  cases h with
  | minus h => exact hunsigned true h
  | plain h =>
    -- A digit is no sign.
    obtain ⟨c, rest, rfl, hc⟩ := h.exists_cons
    unfold Binary64.ofChars?
    split
    · next heq =>
      obtain ⟨rfl, -⟩ := List.cons.inj heq
      exact absurd hc (by decide)
    · next heq =>
      obtain ⟨rfl, -⟩ := List.cons.inj heq
      exact absurd hc (by decide)
    · exact hunsigned false h

end Numeral

namespace Binary64

open Numeral

/-- The text of a number is a decimal numeral when the number is finite, and a word
    when it is not. -/
theorem isDecimal_cssNumeral_iff (x : Binary64) : IsDecimal x.cssNumeral ↔ x.isFinite = true := by
  have hword {c : Char} (hc : ¬(c = '-' ∨ c = '.' ∨ Numeral.isDigit c = true))
      (hmem : c ∈ x.cssNumeral) : ¬IsDecimal x.cssNumeral := fun h => hc (h.cases_of_mem hmem)
  cases x with
  | nan => exact iff_of_false (hword (c := 'N') (by decide) (by decide)) Bool.false_ne_true
  | infinite negative =>
    refine iff_of_false (hword (c := 'n') (by decide) ?_) Bool.false_ne_true
    cases negative <;> decide
  | finite negative quanta =>
    refine iff_of_true ?_ rfl
    rw [cssNumeral]
    split
    · exact (IsUnsigned.whole (isDigits_digits _)).isDecimal_sign _
    · exact (isUnsigned_positional _).isDecimal_sign negative

theorem isDecimal_toCss_iff (x : Binary64) :
    IsDecimal x.toCss.toList ↔ x.isFinite = true := by
  rw [toCss, String.toList_ofList, isDecimal_cssNumeral_iff]

/-- The text of a number is never empty. -/
theorem toCss_ne_empty (x : Binary64) : x.toCss ≠ "" := by
  have hne : x.cssNumeral ≠ [] := by
    cases x with
    | nan => decide
    | infinite negative => cases negative <;> decide
    | finite negative quanta => exact ((isDecimal_cssNumeral_iff _).2 rfl).ne_nil
  simpa [toCss] using hne

end Binary64

end ScopedStyle
