import Mathlib.Algebra.Order.Group.Nat
import ScopedStyle.Number.Shortest

/-!
# Rounding

A magnitude is rounded to the nearest multiple of the spacing around it, the even one of
two. So the magnitudes that are rounded to one number are those of an interval around it
(`Binary64.contains_interval_iff`), which the shortest decimal is looked for in.

The two sides of the interval differ at a power of two, below which the spacing is half
of what it is above. There a magnitude below the number is rounded on the finer grid
(`Binary64.spacing_eq_of_lt`), and elsewhere on that of the number itself
(`Binary64.spacing_eq_of_le`).
-/

namespace ScopedStyle.Binary64

variable {m n q : Nat}

/-- The number of quanta that a magnitude of so many quanta is rounded to. -/
def rounded (m : Nat) : Nat :=
  nearest m (spacing m) * spacing m

/-! ### The nearest whole number -/

/-- A whole number is at most half of one away from a quotient, and half of one only if it
    is even. -/
structure IsNearest (num den a : Nat) : Prop where
  /-- It is at most half of one above. -/
  low : 2 * (a * den) ≤ 2 * num + den
  /-- It is at most half of one below. -/
  high : 2 * num ≤ 2 * (a * den) + den
  /-- It is even if it is half of one away. -/
  even : 2 * (a * den) = 2 * num + den ∨ 2 * num = 2 * (a * den) + den → a % 2 = 0

theorem isNearest_nearest {den : Nat} (num : Nat) (hden : 0 < den) :
    IsNearest num den (nearest num den) := by
  have hquotient : num / den * den + num % den = num := by
    rw [Nat.mul_comm]
    exact Nat.div_add_mod num den
  have hrest : num % den < den := Nat.mod_lt num hden
  have hnext : (num / den + 1) * den = num / den * den + den := Nat.succ_mul _ _
  rw [nearest]
  split
  · exact ⟨by omega, by omega, by omega⟩
  · split
    · exact ⟨by omega, by omega, by omega⟩
    · split
      · exact ⟨by omega, by omega, by omega⟩
      · exact ⟨by omega, by omega, by omega⟩

/-- Of two whole numbers beside a quotient only one is even. -/
theorem IsNearest.le {num den a b : Nat} (hden : 0 < den) (ha : IsNearest num den a)
    (hb : IsNearest num den b) : a ≤ b := by
  by_contra hlt
  have hstep : (b + 1) * den ≤ a * den := Nat.mul_le_mul_right _ (by omega)
  have hnext : (b + 1) * den = b * den + den := Nat.succ_mul _ _
  have hlow := ha.low
  have hhigh := hb.high
  have hsucc : b + 1 = a := Nat.eq_of_mul_eq_mul_right hden (by omega)
  have hevenLow := ha.even (.inl (by omega))
  have hevenHigh := hb.even (.inr (by omega))
  omega

theorem nearest_eq_iff {num den a : Nat} (hden : 0 < den) :
    nearest num den = a ↔ IsNearest num den a := by
  have hnearest := isNearest_nearest num hden
  constructor
  · rintro rfl
    exact hnearest
  · exact fun h => Nat.le_antisymm (hnearest.le hden h) (h.le hden hnearest)

/-! ### The spacing -/

theorem spacing_pos (m : Nat) : 0 < spacing m :=
  Nat.two_pow_pos _

theorem spacing_mono (h : m ≤ n) : spacing m ≤ spacing n := by
  have hlog : m.log2 ≤ n.log2 := by
    by_cases hm : m = 0
    · simp [hm]
    · exact (Nat.le_log2 (by omega)).2 ((Nat.log2_self_le hm).trans h)
  exact Nat.pow_le_pow_right (by decide) (Nat.sub_le_sub_right hlog 52)

theorem spacing_eq_one (h : m.log2 ≤ 52) : spacing m = 1 := by
  rw [spacing, Nat.sub_eq_zero_of_le h]

/-- From `2 ^ 52` on a number has 53 bits in front of its spacing. -/
theorem spacing_mul (h : 52 ≤ m.log2) : spacing m * 2 ^ 52 = 2 ^ m.log2 :=
  Nat.pow_sub_mul_pow 2 h

/-- A magnitude lies between the powers of two that its spacing goes with. -/
theorem spacing_mul_le (hm : m ≠ 0) (h : 52 ≤ m.log2) :
    spacing m * 2 ^ 52 ≤ m ∧ m < spacing m * 2 ^ 53 := by
  have hbelow := Nat.lt_log2_self (n := m)
  rw [Nat.pow_succ, ← spacing_mul h] at hbelow
  refine ⟨?_, by omega⟩
  rw [spacing_mul h]
  exact Nat.log2_self_le hm

/-- Between the same powers of two the spacing is the same. -/
theorem spacing_eq_of_bounds (hn : 52 ≤ n.log2) (hlow : spacing n * 2 ^ 52 ≤ m)
    (hhigh : m < spacing n * 2 ^ 53) : spacing m = spacing n := by
  have hpos := spacing_pos n
  have hlog : m.log2 = n.log2 := by
    refine (Nat.log2_eq_iff (by omega)).2 ?_
    rw [Nat.pow_succ, ← spacing_mul hn]
    omega
  rw [spacing, hlog, spacing]

/-- Above a number, as far as its interval reaches, the spacing is that of the number. -/
theorem spacing_eq_of_le (hq : q ≠ 0) (hdvd : spacing q ∣ q) (hle : q ≤ m)
    (hnear : 2 * m ≤ 2 * q + spacing q) : spacing m = spacing q := by
  by_cases hlog : 52 ≤ q.log2
  · obtain ⟨hlow, hhigh⟩ := spacing_mul_le hq hlog
    have hpos := spacing_pos q
    -- The number leaves room for one more spacing below the next power of two.
    have hroom : q + spacing q ≤ spacing q * 2 ^ 53 :=
      Nat.le_of_lt_add_of_dvd (by omega) (Nat.dvd_add_self_right.2 hdvd) (Nat.dvd_mul_right _ _)
    exact spacing_eq_of_bounds hlog (by omega) (by omega)
  · have hone := spacing_eq_one (m := q) (by omega)
    rw [hone] at hnear
    rw [show m = q by omega]

/-- Below a number, as far as its interval reaches, the spacing is that just below the
    number. -/
theorem spacing_eq_of_lt (hdvd : spacing (q - 1) ∣ q) (hlt : m < q)
    (hnear : 2 * q ≤ 2 * m + spacing (q - 1)) : spacing m = spacing (q - 1) := by
  by_cases hlog : 52 ≤ (q - 1).log2
  · have hne : q - 1 ≠ 0 := fun h => by
      rw [h] at hlog
      exact absurd hlog (by decide)
    obtain ⟨hlow, hhigh⟩ := spacing_mul_le hne hlog
    -- The number is at least one spacing above the power of two below it.
    have hroom : spacing (q - 1) * 2 ^ 52 + spacing (q - 1) ≤ q :=
      Nat.le_of_lt_add_of_dvd (by omega)
        (Nat.dvd_add_self_right.2 (Nat.dvd_mul_right _ _)) hdvd
    refine spacing_eq_of_bounds hlog ?_ ((Nat.le_sub_one_of_lt hlt).trans_lt hhigh)
    generalize spacing (q - 1) * 2 ^ 52 = power at hroom ⊢
    omega
  · have hone := spacing_eq_one (m := q - 1) (by omega)
    omega

/-- Only a power of two has more bits than its predecessor. -/
theorem log2_pred_cases (hq : 2 ≤ q) :
    (q - 1).log2 = q.log2 ∨ q = 2 ^ ((q - 1).log2 + 1) := by
  have hself := Nat.log2_self_le (n := q - 1) (by omega)
  have hnext := Nat.lt_log2_self (n := q - 1)
  by_cases hpower : q = 2 ^ ((q - 1).log2 + 1)
  · exact .inr hpower
  · exact .inl ((Nat.log2_eq_iff (by omega)).2 ⟨by omega, by omega⟩).symm

/-- The spacing just below a number is that of the number or, at a power of two, half of
    it. -/
theorem spacing_pred_cases (q : Nat) : spacing (q - 1) = spacing q ∨
    (2 * spacing (q - 1) = spacing q ∧ q = 2 ^ 53 * spacing (q - 1)) := by
  by_cases hsmall : q.log2 ≤ 52
  · have hle := spacing_mono (Nat.sub_le q 1)
    have hpos := spacing_pos (q - 1)
    rw [spacing_eq_one hsmall] at hle ⊢
    exact .inl (by omega)
  · have hq : 2 ≤ q := by
      have hlog : 2 ^ 1 ≤ 2 ^ q.log2 := Nat.pow_le_pow_right (by decide) (by omega)
      have hne : q ≠ 0 := by
        rintro rfl
        exact hsmall (by decide)
      exact hlog.trans (Nat.log2_self_le hne)
    rcases log2_pred_cases hq with hlog | hpower
    · exact .inl (by rw [spacing, hlog, spacing])
    · right
      have hlog : q.log2 = (q - 1).log2 + 1 := by
        conv_lhs => rw [hpower]
        exact Nat.log2_two_pow
      obtain ⟨k, hk⟩ : ∃ k, (q - 1).log2 = k + 52 := ⟨(q - 1).log2 - 52, by omega⟩
      have hbelow : spacing (q - 1) = 2 ^ k := by
        rw [spacing, hk, Nat.add_sub_cancel]
        rfl
      have habove : spacing q = 2 ^ (k + 1) := by
        rw [spacing, hlog, hk, Nat.add_right_comm, Nat.add_sub_cancel]
        rfl
      rw [hbelow, habove, Nat.pow_succ, Nat.mul_comm 2, ← Nat.pow_add, Nat.add_comm 53]
      exact ⟨rfl, hpower.trans (by rw [hk])⟩

/-! ### What a magnitude is rounded to -/

/-- A magnitude is rounded to a multiple of its spacing that is at most half of one away,
    and half of one only if the multiple is even. -/
theorem rounded_eq_iff (hdvd : spacing m ∣ q) : rounded m = q ↔
    2 * q ≤ 2 * m + spacing m ∧ 2 * m ≤ 2 * q + spacing m ∧
      (2 * q = 2 * m + spacing m ∨ 2 * m = 2 * q + spacing m → q / spacing m % 2 = 0) := by
  obtain ⟨a, rfl⟩ := hdvd
  rw [Nat.mul_comm, rounded, Nat.mul_left_inj (spacing_pos m).ne',
    nearest_eq_iff (spacing_pos m), Nat.mul_div_cancel _ (spacing_pos m)]
  exact ⟨fun h => ⟨h.low, h.high, h.even⟩, fun ⟨hlow, hhigh, heven⟩ => ⟨hlow, hhigh, heven⟩⟩

theorem spacing_dvd (m : Nat) : spacing m ∣ rounded m :=
  Nat.dvd_mul_left _ _

/-- A multiple of its spacing is not changed. -/
theorem rounded_of_dvd (hdvd : spacing m ∣ m) : rounded m = m := by
  have hpos := spacing_pos m
  exact (rounded_eq_iff hdvd).2 ⟨by omega, by omega, fun h => by omega⟩

/-- A magnitude is not rounded beyond the powers of two around it, as these are multiples
    of its spacing. -/
theorem rounded_bounds (hm : m ≠ 0) :
    2 ^ m.log2 ≤ rounded m ∧ rounded m ≤ 2 ^ (m.log2 + 1) := by
  obtain ⟨hlow, hhigh, -⟩ := (rounded_eq_iff (spacing_dvd m)).1 rfl
  have hself := Nat.log2_self_le hm
  have hnext := Nat.lt_log2_self (n := m)
  have hpos := spacing_pos m
  have hpower {k : Nat} (hk : m.log2 - 52 ≤ k) : spacing m ∣ 2 ^ k := Nat.pow_dvd_pow 2 hk
  exact ⟨Nat.le_of_lt_add_of_dvd (by omega) (hpower (by omega)) (spacing_dvd m),
    Nat.le_of_lt_add_of_dvd (by omega) (spacing_dvd m) (hpower (by omega))⟩

theorem rounded_ne_zero (hm : m ≠ 0) : rounded m ≠ 0 :=
  ((Nat.two_pow_pos _).trans_le (rounded_bounds hm).1).ne'

/-- What is rounded down has the spacing of what it is rounded to. -/
theorem spacing_eq_of_rounded_le (hq : q ≠ 0) (h : rounded m = q) (hle : q ≤ m) :
    spacing m = spacing q := by
  have hlog : q.log2 = m.log2 :=
    (Nat.log2_eq_iff hq).2 ⟨h ▸ (rounded_bounds (by omega)).1, hle.trans_lt Nat.lt_log2_self⟩
  rw [spacing, spacing, hlog]

/-- What is rounded up has the spacing just below what it is rounded to. -/
theorem spacing_eq_of_lt_rounded (hm : m ≠ 0) (h : rounded m = q) (hlt : m < q) :
    spacing m = spacing (q - 1) := by
  have hself := Nat.log2_self_le hm
  have hhigh := (rounded_bounds hm).2
  have hlog : (q - 1).log2 = m.log2 := (Nat.log2_eq_iff (by omega)).2 ⟨by omega, by omega⟩
  rw [spacing, spacing, hlog]

theorem rounded_zero : rounded 0 = 0 :=
  rounded_of_dvd (Nat.dvd_zero _)

/-- What is rounded to is a multiple of its own spacing. -/
theorem spacing_rounded_dvd (m : Nat) : spacing (rounded m) ∣ rounded m := by
  by_cases hm : m = 0
  · rw [hm, rounded_zero]
    exact Nat.dvd_zero _
  · have hne := rounded_ne_zero hm
    have hdvd := spacing_dvd m
    by_cases hle : rounded m ≤ m
    · rwa [spacing_eq_of_rounded_le hne rfl hle] at hdvd
    · rw [spacing_eq_of_lt_rounded hm rfl (Nat.lt_of_not_le hle)] at hdvd
      rcases spacing_pred_cases (rounded m) with heq | ⟨hhalf, hpower⟩
      · rwa [heq] at hdvd
      · refine ⟨2 ^ 52, ?_⟩
        rw [← hhalf]
        omega

/-! ### The interval around a number -/

theorem finest_pos : 0 < finest := by
  decide +kernel

/-- An interval has all that lies between its ends, and the ends if it is closed. -/
theorem Interval.contains_iff {i : Interval} {x : Nat} : i.contains x = true ↔
    i.low ≤ x ∧ x ≤ i.high ∧ (x = i.low ∨ x = i.high → i.closed = true) := by
  rw [contains]
  cases i.closed with
  | true => simp
  | false =>
    simp only [Bool.false_eq_true, if_false, Bool.and_eq_true, decide_eq_true_eq, imp_false]
    omega

/-- A magnitude lies in the interval around a number when it is at most half a spacing
    away, and half of one only if the number is even. -/
theorem contains_interval (hle : spacing (q - 1) ≤ q) :
    (interval q).contains (4 * m * finest) = true ↔
    2 * q ≤ 2 * m + spacing (q - 1) ∧ 2 * m ≤ 2 * q + spacing q ∧
      (2 * q = 2 * m + spacing (q - 1) ∨ 2 * m = 2 * q + spacing q → q / spacing q % 2 = 0) := by
  have hpos := finest_pos
  simp only [interval, Interval.contains_iff, decide_eq_true_eq, Nat.mul_le_mul_right_iff hpos,
    Nat.mul_left_inj hpos.ne']
  omega

/-- A number is even on the grid just below it when it is on its own grid, as the finer grid
    counts only at a power of two. -/
theorem even_below_iff (hdvd : spacing q ∣ q) : spacing (q - 1) ∣ q ∧
    (q / spacing (q - 1) % 2 = 0 ↔ q / spacing q % 2 = 0) := by
  rcases spacing_pred_cases q with heq | ⟨hhalf, hpower⟩
  · rw [heq]
    exact ⟨hdvd, Iff.rfl⟩
  · have hquotient : q / spacing (q - 1) = 2 ^ 53 :=
      Nat.div_eq_of_eq_mul_left (spacing_pos (q - 1)) hpower
    rw [← hhalf, Nat.mul_comm 2, ← Nat.div_div_eq_div_mul, hquotient]
    exact ⟨⟨2 ^ 53, hpower.trans (Nat.mul_comm _ _)⟩, by decide⟩

/-- The magnitudes of the interval around a number are those that are rounded to it. -/
theorem contains_interval_iff (hq : q ≠ 0) (hdvd : spacing q ∣ q) :
    (interval q).contains (4 * m * finest) = true ↔ rounded m = q := by
  have hbelow := spacing_pos (q - 1)
  have habove := spacing_pos q
  rw [contains_interval ((spacing_mono (Nat.sub_le q 1)).trans
    (Nat.le_of_dvd (Nat.pos_of_ne_zero hq) hdvd))]
  by_cases hle : q ≤ m
  · -- At or above the number only the upper end counts.
    constructor
    · rintro ⟨-, hnear, heven⟩
      have heq := spacing_eq_of_le hq hdvd hle hnear
      rw [rounded_eq_iff (heq ▸ hdvd), heq]
      exact ⟨by omega, hnear, fun h => heven (by omega)⟩
    · intro h
      have heq := spacing_eq_of_rounded_le hq h hle
      rw [rounded_eq_iff (heq ▸ hdvd), heq] at h
      omega
  · have hlt : m < q := Nat.lt_of_not_le hle
    -- Below the number only the lower end counts.
    obtain ⟨hfiner, hparity⟩ := even_below_iff hdvd
    constructor
    · rintro ⟨hnear, -, heven⟩
      have heq := spacing_eq_of_lt hfiner hlt hnear
      rw [rounded_eq_iff (heq ▸ hfiner), heq]
      exact ⟨hnear, by omega, fun h => hparity.2 (heven (by omega))⟩
    · intro h
      by_cases hm : m = 0
      · rw [hm, rounded_zero] at h
        exact absurd h.symm hq
      · have heq := spacing_eq_of_lt_rounded hm h hlt
        rw [rounded_eq_iff (heq ▸ hfiner), heq] at h
        refine ⟨h.1, by omega, fun hends => hparity.1 (h.2.2 (by omega))⟩

/-! ### Integers -/

/-- One is a power of two, with an exponent that is kept out of the sight of evaluation. -/
theorem one_eq_two_pow : ∃ k, k = 1074 ∧ one = 2 ^ k :=
  ⟨_, rfl, by decide +kernel⟩

theorem one_pos : 0 < one := by
  decide +kernel

theorem log2_mul_one (hn : n ≠ 0) : (n * one).log2 = n.log2 + 1074 := by
  obtain ⟨k, hk, hone⟩ := one_eq_two_pow
  have hpos := Nat.two_pow_pos k
  rw [hone, ← hk, Nat.log2_eq_iff (Nat.mul_ne_zero hn hpos.ne'), Nat.add_right_comm,
    Nat.pow_add, Nat.pow_add]
  exact ⟨Nat.mul_le_mul_right _ (Nat.log2_self_le hn),
    Nat.mul_lt_mul_of_pos_right Nat.lt_log2_self hpos⟩

/-- An integer of 53 bits is a number of the format. -/
theorem rounded_mul_one (h : n < 2 ^ 53) : rounded (n * one) = n * one := by
  by_cases hn : n = 0
  · rw [hn, Nat.zero_mul, rounded_zero]
  · have hlog : n.log2 < 53 := (Nat.log2_lt hn).2 h
    obtain ⟨k, hk, hone⟩ := one_eq_two_pow
    have hdvd : spacing (n * one) ∣ one := by
      rw [spacing, log2_mul_one hn, hone, ← hk]
      exact Nat.pow_dvd_pow 2 (by omega)
    exact rounded_of_dvd (Nat.dvd_mul_left_of_dvd hdvd n)

/-- An integer is rounded to an integer. -/
theorem one_dvd_rounded (n : Nat) : one ∣ rounded (n * one) := by
  by_cases h : n < 2 ^ 53
  · rw [rounded_mul_one h]
    exact Nat.dvd_mul_left _ _
  · have hn : n ≠ 0 := by omega
    have hlog : 53 ≤ n.log2 := (Nat.le_log2 hn).2 (Nat.le_of_not_lt h)
    obtain ⟨k, hk, hone⟩ := one_eq_two_pow
    refine Nat.dvd_trans ?_ (spacing_dvd _)
    rw [spacing, log2_mul_one hn, hone, ← hk]
    exact Nat.pow_dvd_pow 2 (by omega)

/-- An integer of more than 53 bits is rounded to one of more than 53 bits. -/
theorem le_rounded_mul_one (h : 2 ^ 53 ≤ n) : 2 ^ 53 * one ≤ rounded (n * one) := by
  have hn : n ≠ 0 := by omega
  have hlog : 53 ≤ n.log2 := (Nat.le_log2 hn).2 h
  obtain ⟨k, hk, hone⟩ := one_eq_two_pow
  refine Nat.le_trans ?_ (rounded_bounds (Nat.mul_ne_zero hn one_pos.ne')).1
  rw [log2_mul_one hn, hone, ← Nat.pow_add]
  exact Nat.pow_le_pow_right (by decide) (by omega)

/-- The number nearest to a whole number, unless that is out of range. -/
theorem ofQuotient_one (negative : Bool) (n : Nat) : ofQuotient negative n 1 =
    if rounded (n * one) < limit then .finite negative (rounded (n * one))
    else .infinite negative := by
  rw [ofQuotient, Nat.div_one, Nat.one_mul]
  rfl

end ScopedStyle.Binary64
