import Mathlib.Data.Nat.Dist
import ScopedStyle.Proofs.Number.Rounding

/-!
# Shortest decimals of integers

The search for the shortest decimal goes down from a grid that is too coarse and stops
at the first that has a point in the interval around the number. No grid that it leaves
out above has one (`Binary64.le_topLevel`), and of the points of one grid it takes the
nearest of all that read back, though it tries but two (`Binary64.gridPoint?_nearest`).

From `2 ^ 53` on many integers are rounded to one number. The search finds an integer
among them: one that ends in as many zeros as any, and is nearest to the number of those
that do (`Binary64.IsShortest`). There is but one, as a number is never in the middle
between two such integers (`Binary64.IsShortest.eq_of_dist`).
-/

namespace ScopedStyle.Binary64

variable {tie : Tie} {i : Interval} {x level start a p k n t : Nat}

/-! ### One grid -/

theorem Interval.contains_of_between {y z : Nat} (hx : i.contains x = true)
    (hz : i.contains z = true) (hxy : x ≤ y) (hyz : y ≤ z) : i.contains y = true := by
  rw [contains_iff] at hx hz ⊢
  refine ⟨hx.1.trans hxy, hyz.trans hz.2.1, ?_⟩
  rintro (hend | hend)
  · exact hx.2.2 (.inl (by omega))
  · exact hz.2.2 (.inr (by omega))

theorem gridStep_pos (level : Nat) : 0 < gridStep level :=
  Nat.mul_pos (Nat.mul_pos (by decide) one_pos) (Nat.pow_pos (by decide))

theorem gridStep_add (j k : Nat) : gridStep (j + k) = 10 ^ k * gridStep j := by
  have hpow : Nat.pow 10 (j + k) = 10 ^ k * Nat.pow 10 j :=
    (Nat.pow_add 10 j k).trans (Nat.mul_comm _ _)
  rw [gridStep, hpow, Nat.mul_left_comm, gridStep]

/-- A number lies between its two neighbours on a grid. -/
theorem gridStep_neighbours (x level : Nat) :
    x / gridStep level * gridStep level + x % gridStep level = x ∧
      x % gridStep level < gridStep level ∧
      (x / gridStep level + 1) * gridStep level =
        x / gridStep level * gridStep level + gridStep level := by
  refine ⟨?_, Nat.mod_lt _ (gridStep_pos level), Nat.succ_mul _ _⟩
  rw [Nat.mul_comm]
  exact Nat.div_add_mod _ _

/-- If a point of a grid reads back, then so does the neighbour of the number on the same
    side. -/
theorem contains_neighbour (hx : i.contains x = true)
    (ha : i.contains (a * gridStep level) = true) :
    (a ≤ x / gridStep level ∧ i.contains (x / gridStep level * gridStep level) = true) ∨
      x / gridStep level + 1 ≤ a ∧
        i.contains ((x / gridStep level + 1) * gridStep level) = true := by
  obtain ⟨hsum, hrest, hnext⟩ := gridStep_neighbours x level
  rcases Nat.lt_or_ge (x / gridStep level) a with hlt | hle
  · have hbelow := Nat.mul_le_mul_right (gridStep level) (Nat.succ_le_of_lt hlt)
    exact .inr ⟨hlt, Interval.contains_of_between hx ha (by omega) hbelow⟩
  · have habove := Nat.mul_le_mul_right (gridStep level) hle
    exact .inl ⟨hle, Interval.contains_of_between ha hx habove (by omega)⟩

/-- If a point of a grid reads back, then one is found. -/
theorem gridPoint?_ne_none (tie : Tie) (hx : i.contains x = true)
    (ha : i.contains (a * gridStep level) = true) : gridPoint? tie i x level ≠ none := by
  unfold gridPoint?
  dsimp only
  split
  · -- Where nothing is found, neither neighbour reads back.
    rename_i hbelow habove
    rcases contains_neighbour hx ha with ⟨-, hfound⟩ | ⟨-, hfound⟩
    · exact absurd (hfound.symm.trans hbelow) (by decide)
    · exact absurd (hfound.symm.trans habove) (by decide)
  all_goals
    repeat' split
    all_goals exact Option.some_ne_none _

/-- What is found on a grid reads back and is a neighbour of the number, the nearer of the
    two if both read back. -/
theorem gridPoint?_cases (h : gridPoint? tie i x level = some p) :
    i.contains (p * gridStep level) = true ∧
      (p = x / gridStep level ∧
          (i.contains ((x / gridStep level + 1) * gridStep level) = true →
            2 * (x % gridStep level) ≤ gridStep level) ∨
        p = x / gridStep level + 1 ∧
          (i.contains (x / gridStep level * gridStep level) = true →
            gridStep level ≤ 2 * (x % gridStep level))) := by
  unfold gridPoint? at h
  dsimp only at h
  split at h
  · cases h
  · rename_i hbelow habove
    cases h
    exact ⟨hbelow, .inl ⟨rfl, fun hother => by simp [habove] at hother⟩⟩
  · rename_i hbelow habove
    cases h
    exact ⟨habove, .inr ⟨rfl, fun hother => by simp [hbelow] at hother⟩⟩
  · rename_i hbelow habove
    repeat' split at h
    all_goals cases h
    · exact ⟨hbelow, .inl ⟨rfl, fun _ => by omega⟩⟩
    · exact ⟨habove, .inr ⟨rfl, fun _ => by omega⟩⟩
    · exact ⟨hbelow, .inl ⟨rfl, fun _ => by omega⟩⟩
    · exact ⟨habove, .inr ⟨rfl, fun _ => by omega⟩⟩
    · exact ⟨habove, .inr ⟨rfl, fun _ => by omega⟩⟩

/-- What is found on a grid is the nearest of all points that read back. -/
theorem gridPoint?_nearest (hx : i.contains x = true) (h : gridPoint? tie i x level = some p)
    (ha : i.contains (a * gridStep level) = true) :
    Nat.dist (p * gridStep level) x ≤ Nat.dist (a * gridStep level) x := by
  obtain ⟨hsum, hrest, hnext⟩ := gridStep_neighbours x level
  rw [Nat.dist, Nat.dist]
  rcases contains_neighbour hx ha with ⟨hle, hbelow⟩ | ⟨hle, habove⟩
  · have hfar := Nat.mul_le_mul_right (gridStep level) hle
    rcases (gridPoint?_cases h).2 with ⟨rfl, -⟩ | ⟨rfl, hnear⟩
    · omega
    · have := hnear hbelow
      omega
  · have hfar := Nat.mul_le_mul_right (gridStep level) hle
    rcases (gridPoint?_cases h).2 with ⟨rfl, hnear⟩ | ⟨rfl, -⟩
    · have := hnear habove
      omega
    · omega

/-! ### From grid to grid -/

/-- The search stops at the first grid on which a point is found. -/
theorem coarsest_eq (hle : level ≤ start) (hfound : gridPoint? tie i x level ≠ none) :
    ∃ found p, gridPoint? tie i x found = some p ∧
      coarsest tie i x start = ⟨p, (found : Int) - 324⟩ ∧ level ≤ found ∧
      ∀ l, found < l → l ≤ start → gridPoint? tie i x l = none := by
  induction start with
  | zero =>
    obtain ⟨p, hp⟩ := Option.ne_none_iff_exists'.1 hfound
    obtain rfl : level = 0 := Nat.le_zero.1 hle
    refine ⟨0, p, hp, ?_, le_rfl, fun l hlt hend => by omega⟩
    rw [coarsest, hp]
    rfl
  | succ start ih =>
    rw [coarsest]
    split
    · rename_i p hp
      exact ⟨start + 1, p, hp, rfl, hle, fun l hlt hend => by omega⟩
    · rename_i hnone
      have hbelow : level ≠ start + 1 := fun heq => hfound (heq ▸ hnone)
      obtain ⟨found, p, hp, heq, hlevel, habove⟩ := ih (by omega)
      refine ⟨found, p, hp, heq, hlevel, fun l hlt hend => ?_⟩
      rcases Nat.lt_or_ge start l with hlast | hle
      · obtain rfl : l = start + 1 := by omega
        exact hnone
      · exact habove l hlt hle

/-- The step of a grid above the one that the search starts from is more than three halves
    of the number. -/
theorem le_topLevel (h : 2 * gridStep level ≤ 3 * x) : level ≤ topLevel x := by
  by_contra hlt
  have hpos := gridStep_pos 0
  -- Three binary places are less than one decimal place.
  have hbinary : x < 2 ^ ((x / gridStep 0).log2 + 1) * gridStep 0 :=
    (Nat.div_lt_iff_lt_mul hpos).1 Nat.lt_log2_self
  have hdecimal : 2 ^ ((x / gridStep 0).log2 + 1) ≤ 10 ^ topLevel x := by
    calc 2 ^ ((x / gridStep 0).log2 + 1) ≤ 2 ^ (3 * topLevel x) :=
          Nat.pow_le_pow_right (by decide) (by rw [topLevel]; omega)
      _ = (2 ^ 3) ^ topLevel x := Nat.pow_mul 2 3 _
      _ ≤ 10 ^ topLevel x := Nat.pow_le_pow_left (by decide) _
  have hstep : 10 * (10 ^ topLevel x * gridStep 0) ≤ gridStep level := by
    rw [← Nat.mul_assoc, ← Nat.pow_succ', ← Nat.zero_add level, gridStep_add]
    exact Nat.mul_le_mul_right _ (Nat.pow_le_pow_right (by decide) (Nat.lt_of_not_le hlt))
  have hbound := Nat.mul_le_mul_right (gridStep 0) hdecimal
  omega

/-! ### Integers -/

/-- The scaled length of one, which is the step of the grid of the integers. -/
theorem gridStep_integers : gridStep 324 = 4 * one * finest := by
  decide +kernel

/-- On the grid of the integers those read back that are rounded to the number. -/
theorem contains_integer_iff (hpos : 0 < t * one) (hdvd : spacing (t * one) ∣ t * one) (b : Nat) :
    (interval (t * one)).contains (b * gridStep 324) = true ↔ rounded (b * one) = t * one := by
  rw [← contains_interval_iff hpos.ne' hdvd, gridStep_integers, ← Nat.mul_assoc,
    Nat.mul_left_comm]

/-- No grid that has a point in the interval around a number is left out by the search. -/
theorem level_le_topLevel {q : Nat} (hpos : 0 < q) (hdvd : spacing q ∣ q)
    (ha : (interval q).contains (a * gridStep level) = true) :
    level ≤ topLevel (4 * q * finest) := by
  refine le_topLevel ?_
  have hne : a ≠ 0 := by
    rintro rfl
    have hzero : rounded 0 = q :=
      (contains_interval_iff hpos.ne' hdvd).1 (by rwa [Nat.mul_zero, Nat.zero_mul] at *)
    rw [rounded_zero] at hzero
    omega
  have hstep : gridStep level ≤ (4 * q + 2 * spacing q) * finest :=
    (Nat.le_mul_of_pos_left _ (Nat.pos_of_ne_zero hne)).trans (Interval.contains_iff.1 ha).2.1
  have hwidth : 2 * ((4 * q + 2 * spacing q) * finest) ≤ 3 * (4 * q * finest) := by
    have hle := Nat.le_of_dvd hpos hdvd
    rw [← Nat.mul_assoc, ← Nat.mul_assoc]
    exact Nat.mul_le_mul_right _ (by omega)
  omega

/-- An integer `p * 10 ^ k` is a shortest decimal of the integer `t` when it is rounded as
    `t` is, no such integer ends in more zeros, and none on its grid is nearer. -/
structure IsShortest (t p k : Nat) : Prop where
  /-- The decimal reads back. -/
  rounded_eq : rounded (p * 10 ^ k * one) = t * one
  /-- No decimal on the next coarser grid reads back. -/
  not_dvd : ∀ b, rounded (b * one) = t * one → ¬10 ^ (k + 1) ∣ b
  /-- No decimal of the grid that reads back is nearer. -/
  dist_le : ∀ b, rounded (b * one) = t * one → 10 ^ k ∣ b →
    Nat.dist (p * 10 ^ k) t ≤ Nat.dist b t

/-- The shortest decimal of a number that an integer is rounded to is an integer. -/
theorem exists_isShortest (tie : Tie) (hn : n ≠ 0) (ht : rounded (n * one) = t * one) :
    ∃ p k : Nat, shortest tie (t * one) = ⟨p, k⟩ ∧ IsShortest t p k := by
  have hpos : 0 < t * one :=
    ht ▸ Nat.pos_of_ne_zero (rounded_ne_zero (Nat.mul_ne_zero hn one_pos.ne'))
  have hdvd : spacing (t * one) ∣ t * one := ht ▸ spacing_rounded_dvd _
  have hpoint (k a : Nat) : a * gridStep (324 + k) = a * 10 ^ k * gridStep 324 := by
    rw [gridStep_add, Nat.mul_assoc]
  have hx : 4 * (t * one) * finest = t * gridStep 324 := by
    rw [gridStep_integers, Nat.mul_left_comm, Nat.mul_assoc]
  have hself : (interval (t * one)).contains (4 * (t * one) * finest) = true :=
    (contains_interval_iff hpos.ne' hdvd).2 (rounded_of_dvd hdvd)
  have hinteger : (interval (t * one)).contains (n * gridStep 324) = true :=
    (contains_integer_iff hpos hdvd n).2 ht
  obtain ⟨found, p, hp, heq, hlevel, habove⟩ := coarsest_eq
    (level_le_topLevel hpos hdvd hinteger) (gridPoint?_ne_none tie hself hinteger)
  obtain ⟨k, rfl⟩ := Nat.exists_eq_add_of_le hlevel
  have hreads := (gridPoint?_cases hp).1
  rw [hpoint, contains_integer_iff hpos hdvd] at hreads
  refine ⟨p, k, ?_, hreads, ?_, ?_⟩
  · have hexponent : ((324 + k : Nat) : Int) - 324 = k := by omega
    rw [shortest, if_neg hpos.ne', heq, hexponent]
  · -- A point of a coarser grid would have been found before.
    rintro b hb ⟨c, rfl⟩
    rw [Nat.mul_comm (10 ^ (k + 1)), ← contains_integer_iff hpos hdvd, ← hpoint] at hb
    exact gridPoint?_ne_none tie hself hb
      (habove _ (by omega) (level_le_topLevel hpos hdvd hb))
  · rintro b hb ⟨c, rfl⟩
    rw [Nat.mul_comm (10 ^ k) c] at hb ⊢
    rw [← contains_integer_iff hpos hdvd, ← hpoint] at hb
    have hnear := gridPoint?_nearest hself hp hb
    rw [hpoint, hpoint, hx, Nat.dist_mul_right, Nat.dist_mul_right] at hnear
    exact Nat.le_of_mul_le_mul_right hnear (gridStep_pos 324)

/-- An integer with a wide spacing around it has many factors two. -/
theorem two_pow_dvd {m : Nat} (hround : rounded m = t * one)
    (hwidth : 2 ^ k * one ≤ spacing m) : 2 ^ k ∣ t := by
  obtain ⟨j, -, hone⟩ := one_eq_two_pow
  have hspacing : 2 ^ k * one ∣ spacing m := by
    rw [hone, ← Nat.pow_add] at hwidth ⊢
    exact Nat.pow_dvd_pow 2 ((Nat.pow_le_pow_iff_right (by decide)).1 hwidth)
  refine Nat.dvd_of_mul_dvd_mul_right one_pos (Nat.dvd_trans hspacing ?_)
  rw [← hround]
  exact spacing_dvd m

/-- If a number is in the middle between two integers of a grid that are rounded to it, then
    it is of the grid itself: the spacing around it is greater than the step, so it has as
    many factors two, and the sum of the two has as many factors five. -/
theorem pow_dvd_of_middle {low high : Nat} (hsum : low + high = 2 * t) (hlt : low < high)
    (hlow : 10 ^ k ∣ low) (hhigh : 10 ^ k ∣ high)
    (hround : rounded (high * one) = t * one) : 10 ^ k ∣ t := by
  have hfactors : 10 ^ k = 2 ^ k * 5 ^ k := Nat.mul_pow 2 5 k
  have htwo : 2 ^ k ∣ t := by
    have hstep : 10 ^ k ≤ high - low := Nat.le_of_dvd (by omega) (Nat.dvd_sub hhigh hlow)
    have hspacing : spacing (high * one) ∣ t * one := by
      rw [← hround]
      exact spacing_dvd _
    have hnear := ((rounded_eq_iff hspacing).1 hround).2.1
    refine two_pow_dvd hround ?_
    calc 2 ^ k * one ≤ (high - low) * one :=
          Nat.mul_le_mul_right _ ((Nat.pow_le_pow_left (by decide) k).trans hstep)
      _ = 2 * (high * one) - 2 * (t * one) := by
        rw [show high - low = 2 * high - 2 * t by omega, Nat.sub_mul, Nat.mul_assoc,
          Nat.mul_assoc]
      _ ≤ spacing (high * one) := by omega
  have hfive : 5 ^ k ∣ t := by
    have hten : 5 ^ k ∣ 10 ^ k := hfactors ▸ Nat.dvd_mul_left _ _
    have hdvd : 5 ^ k ∣ 2 * t :=
      hsum ▸ Nat.dvd_add (Nat.dvd_trans hten hlow) (Nat.dvd_trans hten hhigh)
    exact Nat.Coprime.dvd_of_dvd_mul_left (Nat.Coprime.pow_left k (by decide)) hdvd
  rw [hfactors]
  exact Nat.Coprime.mul_dvd_of_dvd_of_dvd (Nat.Coprime.pow k k (by decide)) htwo hfive

/-- No other integer that reads back and ends in as many zeros is as near. -/
theorem IsShortest.eq_of_dist (h : IsShortest t p k) (hround : rounded (n * one) = t * one)
    (hdvd : 10 ^ k ∣ n) (hdist : Nat.dist n t ≤ Nat.dist (p * 10 ^ k) t) : n = p * 10 ^ k := by
  have hgrid : 10 ^ k ∣ p * 10 ^ k := Nat.dvd_mul_left _ _
  have hle := h.dist_le n hround hdvd
  rw [Nat.dist, Nat.dist] at hdist hle
  by_contra hne
  have hsum : n + p * 10 ^ k = 2 * t := by omega
  have hmiddle : 10 ^ k ∣ t := by
    rcases Nat.lt_or_gt_of_ne hne with hlt | hlt
    · exact pow_dvd_of_middle hsum hlt hdvd hgrid h.rounded_eq
    · exact pow_dvd_of_middle ((Nat.add_comm _ _).trans hsum) hlt hgrid hdvd hround
  -- Being of the grid the number itself is nearest, and nothing else is as near.
  have hself : rounded (t * one) = t * one := by
    rw [← hround]
    exact rounded_of_dvd (spacing_rounded_dvd _)
  have hzero := h.dist_le t hself hmiddle
  rw [Nat.dist, Nat.dist] at hzero
  omega

end ScopedStyle.Binary64
