import ScopedStyle.Proofs.Field.WellFormed
import ScopedStyle.Proofs.Value.Trimming

/-!
# Bounds of a number

What a number field writes lies within the bounds of the field, and is the number
itself where that does already (`Field.number_within_bounds`). The bounds are applied
one after the other, so that the upper one could take a number below the lower one
again. It does not, because a field whose bounds cross cannot be made
(`Field.Accepted.withinBounds_bounded`).

A bound may also be no number at all, and so may what is typed. Such a bound bounds
nothing, and for what is no number a bound that is one steps in. Both follow from the
places that numbers have in their order (`Binary64.rank?`): the greater and the lesser
of two numbers have the greater and the lesser place, and what has no place gives way
(`Scalar.rank?_clamp`).
-/

namespace ScopedStyle

/-! ### The order of the format -/

namespace Binary64

variable {x y : Binary64}

/-- Both are numbers, and the first is not above the second. -/
def AtMost (x y : Binary64) : Prop :=
  ∃ m n, x.rank? = some m ∧ y.rank? = some n ∧ m ≤ n

theorem rank?_eq_none_iff : x.rank? = none ↔ x = .nan := by
  cases x with
  | nan => exact iff_of_true rfl rfl
  | infinite negative => exact iff_of_false (Option.some_ne_none _) nofun
  | finite negative quanta => exact iff_of_false (Option.some_ne_none _) nofun

theorem AtMost.ne_nan (h : x.AtMost y) : x ≠ .nan ∧ y ≠ .nan := by
  obtain ⟨m, n, hm, hn, -⟩ := h
  simp only [Ne, ← rank?_eq_none_iff, hm, hn]
  exact ⟨nofun, nofun⟩

theorem below_eq_true_iff :
    x.below y = true ↔ ∃ m n, x.rank? = some m ∧ y.rank? = some n ∧ m < n := by
  rw [below, compare?]
  cases x.rank? with
  | none => simp
  | some m => cases y.rank? <;> simp [Int.compare_eq_lt]

/-- The greater number has the greater place. -/
theorem rank?_max (x y : Binary64) : (x.max y).rank? = x.rank?.merge Max.max y.rank? := by
  rw [max]
  cases hx : x.rank? with
  | none => rw [Option.merge_none_left]
  | some m =>
    cases hy : y.rank? with
    | none => exact hx
    | some n =>
      rw [Option.merge]
      dsimp only
      split
      · rw [hy, Int.max_eq_right (by omega)]
      · rw [hx, Int.max_eq_left (by omega)]

/-- The lesser number has the lesser place. -/
theorem rank?_min (x y : Binary64) : (x.min y).rank? = x.rank?.merge Min.min y.rank? := by
  rw [min]
  cases hx : x.rank? with
  | none => rw [Option.merge_none_left]
  | some m =>
    cases hy : y.rank? with
    | none => exact hx
    | some n =>
      rw [Option.merge]
      dsimp only
      split
      · rw [hy, Int.min_eq_right (by omega)]
      · rw [hx, Int.min_eq_left (by omega)]

theorem max_cases (x y : Binary64) : x.max y = x ∨ x.max y = y := by
  rw [max]
  repeat' split
  all_goals simp

theorem min_cases (x y : Binary64) : x.min y = x ∨ x.min y = y := by
  rw [min]
  repeat' split
  all_goals simp

/-- A number that is not below another one is the greater of the two, and a number
    stays where there is no other one. -/
theorem max_eq_left (h : y ≠ .nan → y.AtMost x) : x.max y = x := by
  rw [max]
  cases hy : y.rank? with
  | none =>
    cases hx : x.rank? with
    | none => rw [rank?_eq_none_iff.1 hx, rank?_eq_none_iff.1 hy]
    | some m => rfl
  | some n =>
    obtain ⟨n', m, hn, hm, hle⟩ := h fun hnan => by simp [hnan, rank?] at hy
    cases hy.symm.trans hn
    rw [hm]
    exact if_neg (by omega)

/-- The same for the lesser of two numbers. -/
theorem min_eq_left (h : y ≠ .nan → x.AtMost y) : x.min y = x := by
  rw [min]
  cases hy : y.rank? with
  | none =>
    cases hx : x.rank? with
    | none => rw [rank?_eq_none_iff.1 hx, rank?_eq_none_iff.1 hy]
    | some m => rfl
  | some n =>
    obtain ⟨m, n', hm, hn, hle⟩ := h fun hnan => by simp [hnan, rank?] at hy
    cases hy.symm.trans hn
    rw [hm]
    exact if_neg (by omega)

end Binary64

/-! ### Both bounds -/

namespace Scalar

variable {min max : Option Binary64} {x x' : Binary64}

/-- The place of a number within bounds. -/
theorem rank?_clamp (min max : Option Binary64) (x : Binary64) : (clamp min max x).rank? =
    (x.rank?.merge Max.max (min.bind Binary64.rank?)).merge Min.min (max.bind Binary64.rank?) := by
  unfold clamp
  cases min <;> cases max <;> simp [Binary64.rank?_max, Binary64.rank?_min]

theorem clamp_cases (min max : Option Binary64) (x : Binary64) :
    clamp min max x = x ∨ min = some (clamp min max x) ∨ max = some (clamp min max x) := by
  unfold clamp
  cases min with
  | none =>
    cases max with
    | none => exact .inl rfl
    | some h => exact (x.min_cases h).imp_right fun hmax => .inr (congrArg some hmax.symm)
  | some l =>
    have hlow := x.max_cases l
    cases max with
    | none => exact hlow.imp_right fun hmin => .inl (congrArg some hmin.symm)
    | some h =>
      rcases (x.max l).min_cases h with heq | heq
      · dsimp only
        rw [heq]
        exact hlow.imp_right fun hmin => .inl (congrArg some hmin.symm)
      · exact .inr (.inr (congrArg some heq.symm))

/-- A number that keeps to the bounds stays as it is. -/
theorem clamp_eq_self (hmin : ∀ b, min = some b → b ≠ .nan → b.AtMost x)
    (hmax : ∀ b, max = some b → b ≠ .nan → x.AtMost b) : clamp min max x = x := by
  unfold clamp
  cases min with
  | none =>
    cases max with
    | none => rfl
    | some h => exact Binary64.min_eq_left (hmax h rfl)
  | some l =>
    dsimp only
    rw [Binary64.max_eq_left (hmin l rfl)]
    cases max with
    | none => rfl
    | some h => exact Binary64.min_eq_left (hmax h rfl)

/-- The places of a lower bound and of a number above which it is lifted. -/
theorem le_merge {m : Int} {upper? : Option Int} (place? : Option Int)
    (h : ∀ n, upper? = some n → m ≤ n) :
    ∃ k, (place?.merge Max.max (some m)).merge Min.min upper? = some k ∧ m ≤ k := by
  have hlow : ∃ k, place?.merge Max.max (some m) = some k ∧ m ≤ k := by
    cases place? with
    | none => exact ⟨m, rfl, Int.le_refl m⟩
    | some k => exact ⟨_, rfl, Int.le_max_right ..⟩
  obtain ⟨k, hk, hle⟩ := hlow
  rw [hk]
  cases upper? with
  | none => exact ⟨k, rfl, hle⟩
  | some n => exact ⟨_, rfl, Int.le_min.2 ⟨hle, h n rfl⟩⟩

/-- The lower bound is kept when the upper one is applied, as it is not above it. -/
theorem atMost_clamp {l : Binary64} (hmin : min = some l) (hnan : l ≠ .nan)
    (horder : ∀ h, max = some h → h.below l = false) : l.AtMost (clamp min max x) := by
  obtain ⟨m, hm⟩ := Option.ne_none_iff_exists'.1 (mt Binary64.rank?_eq_none_iff.1 hnan)
  have hupper : ∀ n, max.bind Binary64.rank? = some n → m ≤ n := by
    intro n hn
    obtain ⟨h, hmax, hn⟩ := Option.bind_eq_some_iff.1 hn
    by_contra hlt
    have hbelow := Binary64.below_eq_true_iff.2 ⟨n, m, hn, hm, by omega⟩
    rw [horder h hmax] at hbelow
    cases hbelow
  obtain ⟨k, hk, hle⟩ := le_merge x.rank? hupper
  refine ⟨m, k, hm, ?_, hle⟩
  rw [rank?_clamp, hmin, Option.bind_some, hm, hk]

/-- The upper bound is applied last. -/
theorem clamp_atMost {h : Binary64} (hmax : max = some h) (hnan : h ≠ .nan) :
    (clamp min max x).AtMost h := by
  obtain ⟨n, hn⟩ := Option.ne_none_iff_exists'.1 (mt Binary64.rank?_eq_none_iff.1 hnan)
  have hplace := rank?_clamp min max x
  rw [hmax, Option.bind_some, hn] at hplace
  rw [hmax]
  cases hlow : x.rank?.merge Max.max (min.bind Binary64.rank?) with
  | none => exact ⟨n, n, by rw [hplace, hlow, Option.merge_none_left], hn, Int.le_refl n⟩
  | some k => exact ⟨_, n, by rw [hplace, hlow, Option.merge], hn, Int.min_le_right ..⟩

/-- Numbers keep their order within bounds. -/
theorem clamp_mono (h : x.AtMost x') : (clamp min max x).AtMost (clamp min max x') := by
  obtain ⟨m, n, hm, hn, hle⟩ := h
  have hlow : ∃ j k, x.rank?.merge Max.max (min.bind Binary64.rank?) = some j ∧
      x'.rank?.merge Max.max (min.bind Binary64.rank?) = some k ∧ j ≤ k := by
    rw [hm, hn]
    cases min.bind Binary64.rank? with
    | none => exact ⟨m, n, rfl, rfl, hle⟩
    | some l => exact ⟨_, _, rfl, rfl, by omega⟩
  obtain ⟨j, k, hj, hk, hle⟩ := hlow
  rw [Binary64.AtMost, rank?_clamp, rank?_clamp, hj, hk]
  cases max.bind Binary64.rank? with
  | none => exact ⟨j, k, rfl, rfl, hle⟩
  | some u => exact ⟨_, _, rfl, rfl, by omega⟩

end Scalar

/-! ### Number fields -/

namespace Field

variable {f : Field} {v : Json} {x : Binary64}

/-- Each bound of the field that is a number is kept. -/
structure WithinBounds (f : Field) (x : Binary64) : Prop where
  /-- The number is not below the least one. -/
  min : ∀ b, f.min = some b → b ≠ .nan → b.AtMost x
  /-- The number is not above the greatest one. -/
  max : ∀ b, f.max = some b → b ≠ .nan → x.AtMost b

/-- The number that a number field writes for another one. -/
def bounded (f : Field) (x : Binary64) : Binary64 :=
  Scalar.clamp f.min f.max x

/-- A field that can be made has bounds that do not cross. -/
theorem Accepted.withinBounds_bounded (hf : f.Accepted) (x : Binary64) :
    f.WithinBounds (f.bounded x) where
  min _ hmin hnan := Scalar.atMost_clamp hmin hnan fun h hmax => hf.wellFormed.bounds _ h hmin hmax
  max _ hmax hnan := Scalar.clamp_atMost hmax hnan

/-- A number, typed or not, is used in a number field, and written within its bounds. -/
theorem resolve?_typedNumber (hk : f.kind = .number) (hx : v.typedNumber? = some x) :
    f.resolve? v = some (.ofTokens (Scalar.tokens f (f.bounded x).toCss)) := by
  refine (resolve?_number_iff hk).2 ?_
  cases v with
  | num n =>
    cases hx
    exact ⟨rfl, _, rfl, rfl⟩
  | str s =>
    have hx : Binary64.ofText? (Text.trim s) = some x := hx
    have hne : (Text.trim s).isEmpty = false := by
      refine Bool.eq_false_iff.2 fun hempty => ?_
      rw [String.isEmpty_iff.1 hempty, Binary64.ofText?_empty] at hx
      cases hx
    refine ⟨by simp [Kind.accepts, Kind.isNumberText, hx], _, ?_, rfl⟩
    rw [Scalar.numberText?, hne, if_neg Bool.false_ne_true, hx]
    rfl
  | _ => cases hx

/-- What a number field writes for a number, a stored one or one of its default, lies
    within the bounds of the field, and is a number as soon as one of them is. It is the
    number itself or one of the bounds, and the number itself where that keeps to the
    bounds. Greater numbers are not written as lesser ones. -/
theorem number_within_bounds (hf : f.Accepted) (hk : f.kind = .number)
    (hx : v.typedNumber? = some x) :
    (∀ fallback, ∃ r, f.resolve (some v) fallback = .ok r ∧
      r.tokens.get? Placeholder.value = some (f.bounded x).toCss) ∧
    (∀ stored, (∀ u, stored.bind Json.nonNull? = some u → f.resolve? u = none) →
      ∃ r, f.resolve stored (some v) = .ok r ∧
        r.tokens.get? Placeholder.value = some (f.bounded x).toCss) ∧
    f.WithinBounds (f.bounded x) ∧
    (f.WithinBounds x → f.bounded x = x) ∧
    ((∃ b, (f.min = some b ∨ f.max = some b) ∧ b ≠ .nan) → f.bounded x ≠ .nan) ∧
    (f.bounded x = x ∨ f.min = some (f.bounded x) ∨ f.max = some (f.bounded x)) ∧
    ∀ x', x.AtMost x' → (f.bounded x).AtMost (f.bounded x') := by
  have hwithin := hf.withinBounds_bounded x
  have hused := resolve?_typedNumber hk hx
  have hnonNull : (some v).bind Json.nonNull? = some v := by
    cases v <;> first | rfl | cases hx
  refine ⟨fun fallback => ⟨_, resolve_eq_ok_iff.2 (.inl ⟨v, hnonNull, hused⟩), ?_⟩,
    fun stored hstored => ⟨_, (resolve_eq_ok_iff_of_fallback hstored hnonNull).2 hused, ?_⟩,
    hwithin, fun hself => Scalar.clamp_eq_self hself.min hself.max, ?_, Scalar.clamp_cases _ _ _,
    fun _ => Scalar.clamp_mono⟩
  · exact Scalar.get?_value_tokens f _
  · exact Scalar.get?_value_tokens f _
  · rintro ⟨b, hmin | hmax, hnan⟩
    · exact (hwithin.min b hmin hnan).ne_nan.2
    · exact (hwithin.max b hmax hnan).ne_nan.1

/-- A number with a greatest value and a least one that is no number. -/
def shareAttributes : List Attribute :=
  [.key "share", .label "Share", .min .nan, .max (.ofInt 100)]

/-- For what is no number the one bound that is one is written, and the other one bounds
    nothing. -/
theorem share_within_bounds : ∃ f, ofAttributes "number" shareAttributes = .ok f ∧
    f.kind = .number ∧ (Json.str " NaN ").typedNumber? = some .nan ∧
    f.bounded .nan = .ofInt 100 ∧ f.bounded .nan ≠ .nan ∧
    (∃ r, f.resolve (some (.str " NaN ")) none = .ok r ∧
      r.tokens.get? Placeholder.value = some "100") ∧
    (Json.ofNat 250).typedNumber? = some (.ofInt 250) ∧ f.WithinBounds (f.bounded (.ofInt 250)) ∧
    (Json.str "-1e1").typedNumber? = some (.ofInt (-10)) ∧
    f.bounded (.ofInt (-10)) = .ofInt (-10) := by
  obtain ⟨f, hmade, hq⟩ := exists_of_any "number" shareAttributes (fun f =>
    f.kind = .number && f.min = some .nan && f.max = some (.ofInt 100)) (by decide +kernel)
  simp only [Bool.and_eq_true, decide_eq_true_eq] at hq
  obtain ⟨⟨hk, hmin⟩, hmax⟩ := hq
  have hf : f.Accepted := ⟨_, _, hmade⟩
  have hnan : (Json.str " NaN ").typedNumber? = some .nan := by decide +kernel
  have hlow : (Json.str "-1e1").typedNumber? = some (.ofInt (-10)) := by decide +kernel
  have hhundred : f.bounded .nan = .ofInt 100 := by
    rw [bounded, hmin, hmax]
    decide +kernel
  have hself : f.WithinBounds (.ofInt (-10)) :=
    { min := fun b hb hne => absurd (Option.some.inj (hb.symm.trans hmin)) hne
      max := fun b hb _ => by
        rw [Option.some.inj (hb.symm.trans hmax)]
        exact ⟨-10 * Binary64.one, 100 * Binary64.one, by decide +kernel⟩ }
  obtain ⟨hstored, -, -, -, hnumber, -⟩ := number_within_bounds hf hk hnan
  obtain ⟨r, hr, hvalue⟩ := hstored none
  rw [hhundred] at hvalue
  obtain ⟨-, -, hwithin, -⟩ := number_within_bounds hf hk (v := Json.ofNat 250) rfl
  obtain ⟨-, -, -, hkept, -⟩ := number_within_bounds hf hk hlow
  exact ⟨f, hmade, hk, hnan, hhundred, hnumber ⟨_, .inr hmax, by decide +kernel⟩,
    ⟨r, hr, by rw [hvalue]; decide +kernel⟩, rfl, hwithin, hlow, hkept hself⟩

end Field

end ScopedStyle
