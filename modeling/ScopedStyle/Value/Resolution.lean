import ScopedStyle.Value.Background
import ScopedStyle.Value.Box
import ScopedStyle.Value.Typography

/-!
# Resolution

A stored value is resolved by the kind of its field. One that the field cannot
use gives way to a fallback, the matching entry of the default. Where there is
no value at all, a field of one text contributes the empty text, and any other
field nothing.
-/

namespace ScopedStyle

/-- Why a field contributes nothing. -/
inductive Resolution.Error where
  /-- There is neither a value nor a default. -/
  | missing (key : String)
  /-- Neither the value nor the default can be used. -/
  | malformed (key : String) (kind : Kind) (found : Json)

/-- The wording of an error. -/
def Resolution.Error.message : Resolution.Error → String
  | .missing key => s!"field `{key}` has no value and no default"
  | .malformed key kind found =>
    s!"field `{key}` holds " ++ found.toText ++ ", which a `" ++ kind.name ++
      "` field cannot use"

namespace Field

/-- The contribution of a value of the right shape. -/
def resolveShaped? (f : Field) (value : Json) : Option Resolved :=
  match f.kind with
  | .text | .textarea | .url | .select | .toggle | .number | .color | .alignment =>
    Scalar.resolve? f value
  | .dimension => Box.resolve? f value
  | .backgroundGroup => Background.resolve? value
  | .typographyGroup => Typography.resolve? value
  | .icon | .image | .repeater | .linkGroup => some .nothing

/-- The contribution of a value, if the field can use it. -/
def resolve? (f : Field) (value : Json) : Option Resolved :=
  if f.kind.accepts value then f.resolveShaped? value else none

/-- The contribution of a field without a value. -/
def resolveUnset (f : Field) : Except Resolution.Error Resolved :=
  if f.kind.takesAttributes then .ok (Scalar.unset f) else .error (.missing f.key)

/-- The contribution of a stored value, or else of a fallback. Of both `null`
    is none. -/
def resolve (f : Field) (stored fallback : Option Json) : Except Resolution.Error Resolved :=
  match (stored.bind Json.nonNull?).bind f.resolve? with
  | some resolved => .ok resolved
  | none =>
    match fallback.bind Json.nonNull?, stored.bind Json.nonNull? with
    | some value, _ =>
      match f.resolve? value with
      | some resolved => .ok resolved
      | none => .error (.malformed f.key f.kind (stored.getD value))
    | none, some value => .error (.malformed f.key f.kind value)
    | none, none => f.resolveUnset

section

variable {f : Field} {stored fallback : Option Json} {r : Resolved}

/-- Without a value only a field of one text contributes, the empty text. -/
theorem resolveUnset_eq_ok (h : f.resolveUnset = .ok r) :
    f.kind.takesAttributes = true ∧ r = Scalar.unset f := by
  rw [resolveUnset] at h
  split at h
  · rename_i hk
    exact ⟨hk, (Except.ok.inj h).symm⟩
  · cases h

/-- A contribution comes of a stored value that the field can use, or else of a
    fallback that it can use, or of neither where there is none. -/
theorem resolve_eq_ok_iff : f.resolve stored fallback = .ok r ↔
    (∃ v, stored.bind Json.nonNull? = some v ∧ f.resolve? v = some r) ∨
    ((∀ v, stored.bind Json.nonNull? = some v → f.resolve? v = none) ∧
      ∃ d, fallback.bind Json.nonNull? = some d ∧ f.resolve? d = some r) ∨
    (stored.bind Json.nonNull? = none ∧ fallback.bind Json.nonNull? = none ∧
      f.resolveUnset = .ok r) := by
  rw [resolve]
  cases stored.bind Json.nonNull? with
  | none =>
    cases fallback.bind Json.nonNull? with
    | none => simp
    | some d => cases hd : f.resolve? d <;> simp [hd]
  | some v =>
    cases hv : f.resolve? v with
    | some used => simp [hv]
    | none =>
      cases fallback.bind Json.nonNull? with
      | none => simp [hv]
      | some d => cases hd : f.resolve? d <;> simp [hv, hd]

/-- Behind a stored value that the field cannot use, or that is not there, the
    fallback decides. -/
theorem resolve_eq_ok_iff_of_fallback
    (hstored : ∀ v, stored.bind Json.nonNull? = some v → f.resolve? v = none) {d : Json}
    (hfallback : fallback.bind Json.nonNull? = some d) :
    f.resolve stored fallback = .ok r ↔ f.resolve? d = some r := by
  rw [resolve_eq_ok_iff, hfallback]
  constructor
  · rintro (⟨v, hv, hr⟩ | ⟨-, _, hd, hr⟩ | ⟨-, hnone, -⟩)
    · rw [hstored v hv] at hr
      cases hr
    · cases hd
      exact hr
    · cases hnone
  · exact fun hr => .inr (.inl ⟨hstored, d, rfl, hr⟩)

end

end Field

end ScopedStyle
