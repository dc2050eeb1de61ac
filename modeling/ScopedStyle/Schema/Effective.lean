import ScopedStyle.Condition.Evaluation
import ScopedStyle.Schema.Basic
import ScopedStyle.Value.Scalar

/-!
# Effective settings

The effective value at a path is the stored one with the default of its field
filled in, so that a setting left alone counts as its default. A stored value
counts as well as not stored if the field cannot use its desktop entry.
Conditions are evaluated over the effective values.
-/

namespace ScopedStyle

/-- Whether a field can use the desktop entry of a stored value, as far as its
    kind and its options go. -/
def Field.canUse (f : Field) (value : Json) : Bool :=
  match (Clause.compared? value).bind Json.nonNull? with
  | none => false
  | some entry =>
    f.kind.accepts entry &&
      match entry.scalarText? with
      | some text => text.isEmpty || f.allowsChoice text
      | none => true

namespace Schema

/-- The effective value at a path. What is stored at the path of no field is
    taken as it is. -/
def effective? (s : Schema) (t : Tree) (p : Path) : Option Json :=
  match s.field? p with
  | none => t.get? p
  | some f =>
    match t.get? p with
    | some value => if f.canUse value then some value else f.default.nonNull?
    | none => f.default.nonNull?

section

variable {s : Schema} {t t' : Tree} {p : Path} {f : Field}

/-- The effective value at a path is made of what is stored there. -/
theorem effective?_congr (h : t.get? p = t'.get? p) : s.effective? t p = s.effective? t' p := by
  rw [effective?, effective?, h]

/-- The effective value of a field is a stored value that it can use, or else
    the default. -/
theorem effective?_cases (hf : s.field? p = some f) :
    (∃ v, t.get? p = some v ∧ f.canUse v = true ∧ s.effective? t p = some v) ∨
      (∀ v, t.get? p = some v → f.canUse v = false) ∧ s.effective? t p = f.default.nonNull? := by
  rw [effective?, hf]
  dsimp only
  cases hstored : t.get? p with
  | none => exact .inr ⟨fun _ h => absurd h.symm (Option.some_ne_none _), rfl⟩
  | some v =>
    cases hcan : f.canUse v with
    | true => exact .inl ⟨v, rfl, hcan, if_pos hcan⟩
    | false =>
      refine .inr ⟨fun _ h => Option.some.inj h ▸ hcan, if_neg ?_⟩
      rw [hcan]
      exact Bool.false_ne_true

/-- A setting that is left alone counts as its default. -/
theorem effective?_of_get?_eq_none (hf : s.field? p = some f) (h : t.get? p = none) :
    s.effective? t p = f.default.nonNull? := by
  rcases effective?_cases (t := t) hf with ⟨v, hv, _⟩ | ⟨_, heffective⟩
  · rw [h] at hv
    cases hv
  · exact heffective

/-- A default that is stored counts, even one that the field could not use. -/
theorem effective?_of_get?_eq_default (hf : s.field? p = some f)
    (h : t.get? p = f.default.nonNull?) : s.effective? t p = f.default.nonNull? := by
  rcases effective?_cases (t := t) hf with ⟨v, hv, _, heffective⟩ | ⟨_, heffective⟩
  · rw [heffective, ← hv, h]
  · exact heffective

/-- An effective value is never `null`. -/
theorem nonNull?_effective {v : Json} (h : s.effective? t p = some v) : v.nonNull? = some v := by
  cases hf : s.field? p with
  | none =>
    rw [effective?, hf] at h
    exact Json.nonNull?_of_bind h
  | some f =>
    rcases effective?_cases (t := t) hf with ⟨u, hu, _, heffective⟩ | ⟨_, heffective⟩
    · rw [heffective] at h
      cases h
      exact Json.nonNull?_of_bind hu
    · rw [heffective] at h
      exact (Json.nonNull?_eq_some h).2

end

/-- The effective values of a tree as a source, which knows the fields of the
    schema. -/
def source (s : Schema) (t : Tree) : Source where
  value? := s.effective? t
  hasField p := (s.field? p).isSome

end Schema

/-- Whether the condition of a field holds over the effective values. -/
def Entry.active (e : Entry) (s : Schema) (t : Tree) : Bool :=
  match e.field.condition with
  | some c => c.holds (s.source t) e.group
  | none => true

end ScopedStyle
