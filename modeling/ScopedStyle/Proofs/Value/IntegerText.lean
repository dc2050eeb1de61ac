import ScopedStyle.Proofs.Field.Accepted
import ScopedStyle.Proofs.Number.ShortestDecimal
import ScopedStyle.Proofs.Value.Acceptance
import ScopedStyle.Proofs.Value.NumberText

/-!
# The text of an integer

An integer of a document becomes the nearest binary64 number before it is written, and
a number is written with the shortest digits that read back as it. The zeros that make
an integer of these digits are filled in. So what is written is the decimal text of an
integer, but of the roundest of all that become the same number
(`Binary64.IsRoundest`), and of no other (`Field.integer_text_iff`).

Below `2 ^ 53` no two integers become the same number (`Binary64.isRoundest_of_lt`).
The least integer that is not written as it stands is `2 ^ 53 + 1`. As a default it is
taken for the option with its decimal text, but it is never found among the options
when it is used.
-/

namespace ScopedStyle

/-! ### Digits -/

namespace Numeral

/-- The decimal text of an integer as a string. -/
def decimalText (n : Int) : String :=
  String.ofList (ofInt n)

theorem digits_injective {m n : Nat} (h : digits m = digits n) : m = n := by
  have hvalue := congrArg (Nat.ofDigitChars 10 · 0) h
  simpa only [digits, Nat.ofDigitChars_toDigits (by decide : 1 < 10) (by decide)] using hvalue

/-- Zeros behind the digits of a number make those of a multiple. -/
theorem digits_append_zeros {p : Nat} (hp : p ≠ 0) (k : Nat) :
    digits p ++ zeros k = digits (p * 10 ^ k) := by
  induction k with
  | zero => simp [zeros]
  | succ k ih =>
    have hpos : 0 < p * 10 ^ k := Nat.mul_pos (Nat.pos_of_ne_zero hp) (Nat.pow_pos (by decide))
    have happend := Nat.toDigits_append_toDigits (d := 0) (by decide : 1 < 10) hpos (by decide)
    rw [zeros, List.replicate_succ', ← List.append_assoc, ← zeros, ih, Nat.pow_succ,
      ← Nat.mul_assoc, Nat.mul_comm _ 10]
    exact happend

end Numeral

namespace Binary64

/-- Among the integers that become the same number this one ends in the most zeros, and of
    those that end in as many it is nearest to the number. -/
structure IsRoundest (a : Nat) : Prop where
  /-- No other of the integers ends in more zeros. -/
  zeros : ∀ b k : Nat, ofInt b = ofInt a → 10 ^ k ∣ b → 10 ^ k ∣ a
  /-- None that ends in as many is nearer to the number. -/
  nearest : ∀ b : Nat, ofInt b = ofInt a → (∀ k, 10 ^ k ∣ a → 10 ^ k ∣ b) →
    Nat.dist a (ofInt a).truncate.toNat ≤ Nat.dist b (ofInt a).truncate.toNat

variable {n : Int} {a t p k : Nat}

/-! ### Integers that become the same number -/

/-- The number that an integer becomes. -/
theorem ofInt_eq (h : n.natAbs < Json.Literal.wordLimit) :
    ofInt n = .finite (n < 0) (rounded (n.natAbs * one)) := by
  have hfinite := isFinite_ofInt h
  rw [ofInt, ofQuotient_one] at hfinite ⊢
  split
  · rfl
  · rename_i hlimit
    rw [if_neg hlimit] at hfinite
    cases hfinite

/-- Natural numbers become the same number when they are rounded to the same. -/
theorem ofInt_eq_iff (ha : a < Json.Literal.wordLimit) (b : Nat) :
    ofInt b = ofInt a ↔ rounded (b * one) = rounded (a * one) := by
  have hnatural (c : Nat) : ofInt c = ofQuotient false c 1 := by
    rw [ofInt, Int.natAbs_natCast, decide_eq_false (Int.not_lt.2 (Int.natCast_nonneg c))]
  constructor
  · intro h
    rw [ofInt_eq (n := a) ha, hnatural, ofQuotient_one, Int.natAbs_natCast] at h
    split at h
    · exact (Binary64.finite.inj h).2
    · cases h
  · intro h
    rw [hnatural, hnatural, ofQuotient_one, ofQuotient_one, h]

/-- An integer of 53 bits is the only one that becomes its number. -/
theorem eq_of_ofInt_eq (ha : a < 2 ^ 53) {b : Nat} (h : ofInt b = ofInt a) : b = a := by
  have hround := (ofInt_eq_iff (ha.trans (by decide)) b).1 h
  rw [rounded_mul_one ha] at hround
  by_cases hb : b < 2 ^ 53
  · rw [rounded_mul_one hb] at hround
    exact Nat.eq_of_mul_eq_mul_right one_pos hround
  · have hle := le_rounded_mul_one (Nat.le_of_not_lt hb)
    rw [hround] at hle
    exact absurd (Nat.le_of_mul_le_mul_right hle one_pos) (Nat.not_le_of_lt ha)

theorem isRoundest_of_lt (ha : a < 2 ^ 53) : IsRoundest a where
  zeros b k h hdvd := eq_of_ofInt_eq ha h ▸ hdvd
  nearest b h _ := by rw [eq_of_ofInt_eq ha h]

/-- A shortest decimal is the roundest of the integers that become its number. -/
theorem IsShortest.eq_iff_isRoundest (hs : IsShortest t p k)
    (ha : a < Json.Literal.wordLimit) (ht : rounded (a * one) = t * one) :
    p * 10 ^ k = a ↔ IsRoundest a := by
  have hsame (b : Nat) : ofInt b = ofInt a ↔ rounded (b * one) = t * one := by
    rw [ofInt_eq_iff ha, ht]
  have hinteger : (ofInt a).truncate.toNat = t := by
    rw [ofInt_eq (n := a) ha, Int.natAbs_natCast, ht, truncate,
      decide_eq_false (Int.not_lt.2 (Int.natCast_nonneg a)), if_neg Bool.false_ne_true,
      Int.toNat_natCast, Nat.mul_div_cancel _ one_pos]
  -- The integers that become the number end in at most as many zeros as the decimal.
  have hzeros {b j : Nat} (hb : rounded (b * one) = t * one) (hdvd : 10 ^ j ∣ b) :
      10 ^ j ∣ p * 10 ^ k := by
    have hle : j ≤ k := by
      by_contra hlt
      exact hs.not_dvd b hb (Nat.dvd_trans (Nat.pow_dvd_pow 10 (by omega)) hdvd)
    exact Nat.dvd_mul_left_of_dvd (Nat.pow_dvd_pow 10 hle) p
  constructor
  · rintro rfl
    refine ⟨fun b j hb => hzeros ((hsame b).1 hb), fun b hb hdvd => ?_⟩
    rw [hinteger]
    exact hs.dist_le b ((hsame b).1 hb) (hdvd k (Nat.dvd_mul_left _ _))
  · intro h
    have hself := (hsame (p * 10 ^ k)).2 hs.rounded_eq
    have hnear := h.nearest _ hself fun j hdvd => hzeros ht hdvd
    rw [hinteger] at hnear
    exact (hs.eq_of_dist ht (h.zeros _ k hself (Nat.dvd_mul_left _ _)) hnear).symm

/-! ### The numeral of an integer -/

/-- The positional numeral of an integer is that of the roundest of the integers that
    become its number. -/
theorem positional_ofInt_eq_iff (h : n.natAbs < Json.Literal.wordLimit) (hn : n ≠ 0) :
    (ofInt n).positional = Numeral.ofInt n ↔ IsRoundest n.natAbs := by
  obtain ⟨t, ht⟩ := one_dvd_rounded n.natAbs
  rw [Nat.mul_comm one t] at ht
  obtain ⟨p, k, hshortest, hs⟩ := exists_isShortest .away (Int.natAbs_ne_zero.2 hn) ht
  have hp : p ≠ 0 := by
    rintro rfl
    have hzero := hs.rounded_eq
    rw [Nat.zero_mul, Nat.zero_mul, rounded_zero, ← ht] at hzero
    exact rounded_ne_zero (Nat.mul_ne_zero (Int.natAbs_ne_zero.2 hn) one_pos.ne') hzero.symm
  have hdigits : (ofInt n).positional =
      Numeral.sign (n < 0) ++ Numeral.digits (p * 10 ^ k) := by
    rw [ofInt_eq h, ht, positional, hshortest, ← Numeral.digits_append_zeros hp,
      Numeral.positional, if_pos (Int.natCast_nonneg k), Int.toNat_natCast]
  rw [← hs.eq_iff_isRoundest h ht, hdigits, Numeral.ofInt, List.append_cancel_left_eq]
  exact ⟨fun heq => Numeral.digits_injective heq, congrArg Numeral.digits⟩

/-- The number of an integer is small when the integer is. -/
theorem isSmall_ofInt_iff (h : n.natAbs < Json.Literal.wordLimit) :
    (ofInt n).isSmall = true ↔ n.natAbs < 10 ^ 15 := by
  rw [ofInt_eq h, isSmall, decide_eq_true_iff]
  by_cases hbits : n.natAbs < 2 ^ 53
  · rw [rounded_mul_one hbits]
    exact Nat.mul_lt_mul_right one_pos
  · have hle := le_rounded_mul_one (Nat.le_of_not_lt hbits)
    have hlt : Nat.pow 10 15 * one < 2 ^ 53 * one := by decide +kernel
    exact iff_of_false (by omega) (by omega)

/-- The CSS numeral of an integer is that of the roundest of the integers that become its
    number. Below `10 ^ 15` an integer is taken as it is, and from there on it is written
    with the digits of the shortest decimal. -/
theorem cssNumeral_ofInt_iff (h : n.natAbs < Json.Literal.wordLimit) :
    (ofInt n).cssNumeral = Numeral.ofInt n ↔ IsRoundest n.natAbs := by
  rw [cssNumeral]
  by_cases hsmall : n.natAbs < 10 ^ 15
  · have hbits : n.natAbs < 2 ^ 53 := hsmall.trans (by decide)
    have heq : ofInt n = .finite (n < 0) (n.natAbs * one) := by
      rw [ofInt_eq h, rounded_mul_one hbits]
    have hwhole : (ofInt n).isWhole = true := by
      rw [heq, isWhole, Nat.mul_mod_left]
      rfl
    have hinteger : (ofInt n).truncate = n := by
      rw [heq, truncate, Nat.mul_div_cancel _ one_pos]
      by_cases hneg : n < 0
      · rw [decide_eq_true hneg, if_pos rfl]
        omega
      · rw [decide_eq_false hneg, if_neg Bool.false_ne_true]
        omega
    rw [hwhole, (isSmall_ofInt_iff h).2 hsmall, Bool.and_true, if_pos rfl, hinteger]
    exact iff_of_true rfl (isRoundest_of_lt hbits)
  · have hlarge : (ofInt n).isSmall = false :=
      Bool.eq_false_iff.2 fun hsmall' => hsmall ((isSmall_ofInt_iff h).1 hsmall')
    rw [hlarge, Bool.and_false, if_neg Bool.false_ne_true]
    exact positional_ofInt_eq_iff h (by rintro rfl; exact hsmall (by decide))

end Binary64

/-! ### Options -/

namespace Field

open Binary64 (IsRoundest)

variable {f : Field} {n : Int}

/-- The field has a text among its options. -/
def HasOption (f : Field) (text : String) : Prop :=
  ∃ c ∈ f.options, c.value = text

/-- Every select field that has the decimal text of an integer among its options accepts
    the integer as a stored value. -/
def Selectable (n : Int) : Prop :=
  ∀ f : Field, f.Accepted → f.kind = .select → f.HasOption (Numeral.decimalText n) →
    ∃ r, f.resolve (some (.num (.integer n))) none = .ok r

/-- Of the options of a select field just those texts are chosen that it has. -/
theorem allowsChoice_iff (hne : f.options ≠ []) (text : String) :
    f.allowsChoice text = true ↔ f.HasOption text := by
  simp [allowsChoice, choiceAllowed, HasOption, hne]

/-- A select field with options accepts a number when the CSS numeral of the number is one
    of them. -/
theorem resolve_select_number_iff (hk : f.kind = .select) (hne : f.options ≠ [])
    (number : Json.Number) : (∃ r, f.resolve (some (.num number)) none = .ok r) ↔
      f.HasOption number.toBinary64.toCss := by
  have hempty : number.toBinary64.toCss.isEmpty = false := by
    simpa using Binary64.toCss_ne_empty number.toBinary64
  have hused : (f.resolve? (.num number)).isSome = f.allowsChoice number.toBinary64.toCss := by
    rw [isSome_resolve?, choiceFits, hk, Json.scalarText?, Option.all_some, hempty,
      Bool.false_or]
    exact Bool.and_true _
  rw [← allowsChoice_iff hne, ← hused, Option.isSome_iff_exists]
  refine exists_congr fun r => ?_
  rw [resolve_eq_ok_iff]
  constructor
  · rintro (⟨_, ⟨⟩, hr⟩ | ⟨-, _, ⟨⟩, -⟩ | ⟨⟨⟩, -⟩)
    exact hr
  · exact fun hr => .inl ⟨_, rfl, hr⟩

/-- The attributes of a field with one option. -/
def columnAttributes (text : String) : List Attribute :=
  [.key "columns", .label "Columns", .options [⟨text, "Columns"⟩]]

theorem exists_columnField (text : String) : ∃ f : Field,
    ofAttributes "select" (columnAttributes text) = .ok f ∧ f.kind = .select ∧
      f.options = [⟨text, "Columns"⟩] :=
  ⟨_, rfl, rfl, rfl⟩

/-- Select fields accept the integers that are written as their decimal texts. -/
theorem selectable_iff (n : Int) : Selectable n ↔
    (Json.num (.integer n)).scalarText? = some (Numeral.decimalText n) := by
  rw [Json.scalarText?, Option.some_inj]
  constructor
  · intro h
    -- What is accepted where there is but one option is this option.
    obtain ⟨f, hmade, hk, hoptions⟩ := exists_columnField (Numeral.decimalText n)
    have hoption : f.HasOption (Numeral.decimalText n) := by simp [HasOption, hoptions]
    have hnumeral := (resolve_select_number_iff hk (by simp [hoptions]) (.integer n)).1
      (h f ⟨_, _, hmade⟩ hk hoption)
    simpa [HasOption, hoptions, eq_comm] using hnumeral
  · rintro heq f - hk ⟨c, hc, htext⟩
    refine (resolve_select_number_iff hk (List.ne_nil_of_mem hc) (.integer n)).2 ?_
    rw [heq]
    exact ⟨c, hc, htext⟩

/-- An integer of a document is written as its decimal text exactly when it is the roundest
    of the integers that become the same number, and exactly then every select field that
    has this text among its options accepts the integer. Below `2 ^ 53` every integer is. -/
theorem integer_text_iff (h : (Json.Number.integer n).InRange) :
    ((Json.num (.integer n)).scalarText? = some (Numeral.decimalText n) ↔ IsRoundest n.natAbs) ∧
    (Selectable n ↔ IsRoundest n.natAbs) ∧
    (n.natAbs < 2 ^ 53 → IsRoundest n.natAbs) := by
  have htext : (Json.num (.integer n)).scalarText? = some (Numeral.decimalText n) ↔
      IsRoundest n.natAbs := by
    rw [Json.scalarText?, Option.some_inj, Json.Number.toBinary64, Binary64.toCss,
      Numeral.decimalText, String.ofList_inj]
    exact Binary64.cssNumeral_ofInt_iff h
  exact ⟨htext, (selectable_iff n).trans htext, Binary64.isRoundest_of_lt⟩

/-- The least integer that is not written as it stands is written as its neighbour. As a
    default it passes for the option with its decimal text, but the field cannot use it. -/
theorem odd_column_malformed : (Json.Number.integer 9007199254740993).InRange ∧
    (Json.num (.integer 9007199254740993)).scalarText? = some "9007199254740992" ∧
    Numeral.decimalText 9007199254740993 = "9007199254740993" ∧
    ¬Selectable 9007199254740993 ∧
    ∃ f, ofAttributes "select" (columnAttributes "9007199254740993" ++
        [.default (.num (.integer 9007199254740993))]) = .ok f ∧
      f.HasOption "9007199254740993" ∧
      ∀ r, f.resolve (some (.num (.integer 9007199254740993))) none ≠ .ok r := by
  have hwritten : (Json.num (.integer 9007199254740993)).scalarText? =
      some "9007199254740992" := by decide +kernel
  have htext : Numeral.decimalText 9007199254740993 = "9007199254740993" := by decide +kernel
  obtain ⟨f, hmade, hq⟩ := exists_of_any "select" (columnAttributes "9007199254740993" ++
    [.default (.num (.integer 9007199254740993))]) (fun f =>
      f.options = [⟨"9007199254740993", "Columns"⟩] &&
        (f.resolve (some (.num (.integer 9007199254740993))) none).toOption.isNone)
    (by decide +kernel)
  simp only [Bool.and_eq_true, decide_eq_true_eq] at hq
  obtain ⟨hoptions, hnone⟩ := hq
  have hrange : (9007199254740993 : Int).natAbs < Json.Literal.wordLimit := by decide
  refine ⟨hrange, hwritten, htext, ?_, f, hmade, by simp [HasOption, hoptions], ?_⟩
  · rw [selectable_iff, hwritten, htext]
    decide
  · intro r hr
    rw [hr] at hnone
    cases hnone

/-- An integer of 16 digits is written as it stands. -/
theorem long_column_selectable : (Json.Number.integer (-1234567890123456)).InRange ∧
    (Json.num (.integer (-1234567890123456))).scalarText? = some "-1234567890123456" ∧
    Selectable (-1234567890123456) := by
  have hrange : (-1234567890123456 : Int).natAbs < Json.Literal.wordLimit := by decide
  obtain ⟨htext, hselectable, hbits⟩ := integer_text_iff hrange
  have hroundest := hbits (by decide)
  have hdecimal : Numeral.decimalText (-1234567890123456) = "-1234567890123456" := by
    decide +kernel
  refine ⟨hrange, ?_, hselectable.2 hroundest⟩
  rw [htext.2 hroundest, hdecimal]

end Field

end ScopedStyle
