import ScopedStyle.Template.Basic

/-!
# Filling templates

Rendering a template keeps a placeholder as it is written where the lookup does
not know it. Filling a template is the same without this way out: it fails at an
unknown placeholder. So a template can be filled exactly when the lookup knows
all of its placeholders, and then rendering it makes the same text
(`Template.fill?_eq_some_iff`).
-/

namespace ScopedStyle

variable {lookup : String → Option String}

namespace Segment

/-- What a segment becomes, unless it is a placeholder that is unknown. -/
def fill? (lookup : String → Option String) : Segment → Option String
  | .literal s => some s
  | .placeholder name => lookup name

/-- A segment can be filled when it is a literal or its placeholder is known. -/
theorem fill?_eq_some_iff {segment : Segment} {text : String} :
    segment.fill? lookup = some text ↔
      (∀ name, segment.name? = some name → (lookup name).isSome = true) ∧
        segment.render lookup = text := by
  cases segment with
  | literal s => simp [fill?, name?, render]
  | placeholder name => cases h : lookup name <;> simp [fill?, name?, render, h]

theorem mapM_fill?_eq_some_iff {segments : List Segment} {texts : List String} :
    segments.mapM (fill? lookup) = some texts ↔
      (∀ segment ∈ segments, ∀ name, segment.name? = some name → (lookup name).isSome = true) ∧
        segments.map (render lookup) = texts := by
  induction segments generalizing texts with
  | nil => simp
  | cons segment segments ih =>
    simp only [List.mapM_cons, Option.bind_eq_bind, Option.bind_eq_some_iff, Option.pure_def,
      Option.some.injEq, fill?_eq_some_iff, ih, List.forall_mem_cons, List.map_cons]
    constructor
    · rintro ⟨_, ⟨hname, rfl⟩, _, ⟨hnames, rfl⟩, rfl⟩
      exact ⟨⟨hname, hnames⟩, rfl⟩
    · rintro ⟨⟨hname, hnames⟩, rfl⟩
      exact ⟨_, ⟨hname, rfl⟩, _, ⟨hnames, rfl⟩, rfl⟩

end Segment

namespace Template

/-- The text with the placeholders replaced, unless one is unknown. -/
def fill? (t : Template) (lookup : String → Option String) : Option String :=
  (t.segments.mapM (Segment.fill? lookup)).map String.join

/-- A template can be filled when all of its placeholders are known, and is then
    filled as it is rendered. -/
theorem fill?_eq_some_iff {t : Template} {text : String} : t.fill? lookup = some text ↔
    (∀ name ∈ t.placeholders, (lookup name).isSome = true) ∧ t.render lookup = text := by
  rw [fill?, Option.map_eq_some_iff, placeholders, List.forall_mem_filterMap, render]
  constructor
  · rintro ⟨texts, htexts, rfl⟩
    obtain ⟨hknown, rfl⟩ := Segment.mapM_fill?_eq_some_iff.1 htexts
    exact ⟨hknown, rfl⟩
  · rintro ⟨hknown, rfl⟩
    exact ⟨_, Segment.mapM_fill?_eq_some_iff.2 ⟨hknown, rfl⟩, rfl⟩

end Template

end ScopedStyle
