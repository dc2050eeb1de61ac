import ScopedStyle.Proofs.Widget.EffectiveTree

/-!
# The desktop value of a setting

A setting is read in three ways: the style sheet resolves it at every breakpoint,
the attributes of the markup resolve it at the desktop, and a widget takes the
text of its effective value. At the desktop the three agree. The first two
resolve the same entries (`Field.resolveDesktop?_eq_some_iff`). The third looks
for a value that counts before it takes the desktop entry, where resolution takes
the entry first and then looks whether it counts. Still both arrive at one entry,
that of the stored value or of the default, or at none
(`Schema.get?_value_of_resolveAt`).

So the text that a widget shows is the token that stands for the value in the
style sheet and in the attributes (`Instance.desktop_value_agrees`), for all kinds
of fields that put the text of the value into this token as it is.
-/

namespace ScopedStyle

/-- Whether the token of the value has the text of the value, which numbers bring
    within bounds and alignments put into other words. -/
def Kind.keepsText : Kind → Bool
  | .text | .textarea | .url | .select | .toggle | .color => true
  | _ => false

theorem Kind.partsFit_of_keepsText {k : Kind} (h : k.keepsText = true) (v : Json) :
    k.partsFit v = true := by
  cases k <;> first | rfl | cases h

/-- The desktop entries that are not `null`. -/
theorem Responsive.bind_desktopOf? (stored : Option Json) :
    (stored.bind desktopOf?).bind Json.nonNull? = stored.bind desktopEntry? :=
  Option.bind_assoc stored desktopOf? Json.nonNull?

theorem Scalar.scalarText?_of_text? {f : Field} (hk : f.kind.keepsText = true) {v : Json}
    {text : String} (h : text? f v = some text) : v.scalarText? = some text := by
  rw [text?] at h
  cases hkind : f.kind with
  | text | textarea | url | toggle | color =>
    rw [hkind] at h
    exact h
  | select =>
    -- A choice is looked for among the options, and then taken as it is.
    rw [hkind] at h
    exact (Option.filter_eq_some_iff.1 h).1
  | _ =>
    rw [hkind] at hk
    cases hk

namespace Field

variable {f : Field} {v : Json} {r : Resolved} {stored : Option Json}

/-- The token of a resolved value is the text of the value. -/
theorem exists_text_of_resolve? (hk : f.kind.keepsText = true) (h : f.resolve? v = some r) :
    ∃ text, v.scalarText? = some text ∧ r.tokens.get? Placeholder.value = some text := by
  have hscalar : f.resolveShaped? v = Scalar.resolve? f v := by
    rw [resolveShaped?]
    cases hkind : f.kind <;> first | rfl | (rw [hkind] at hk; cases hk)
  rw [resolve?, hscalar] at h
  split at h
  · obtain ⟨text, htext, rfl⟩ := Option.map_eq_some_iff.1 h
    exact ⟨text, Scalar.scalarText?_of_text? hk htext, Scalar.get?_value_tokens f text⟩
  · cases h

/-- The token of a missing value is empty. -/
theorem get?_value_of_resolveUnset (h : f.resolveUnset = .ok r) :
    r.tokens.get? Placeholder.value = some "" := by
  obtain ⟨-, rfl⟩ := resolveUnset_eq_ok h
  exact Scalar.get?_value_tokens f ""

/-- Every field is resolved at the desktop. -/
theorem desktop_mem_breakpoints (f : Field) (stored : Option Responsive) :
    .desktop ∈ f.breakpoints stored := by
  rw [breakpoints]
  split <;> simp [Breakpoint.all]

/-- The desktop value is resolved from the desktop entries. -/
theorem resolveAt_desktop (f : Field) (stored : Option Json) :
    f.resolveAt (stored.map .ofStored) .desktop =
      f.resolve (stored.bind Responsive.desktopOf?) (Responsive.desktopOf? f.default) := by
  cases stored <;> rfl

/-- What is resolved at the desktop comes of the desktop entry of the stored value
    or of the default, or of neither. -/
theorem resolveAt_desktop_eq_ok_iff :
    f.resolveAt (stored.map .ofStored) .desktop = .ok r ↔
      (∃ entry, stored.bind Responsive.desktopEntry? = some entry ∧ f.resolve? entry = some r) ∨
      ((∀ entry, stored.bind Responsive.desktopEntry? = some entry → f.resolve? entry = none) ∧
        ∃ d, Responsive.desktopEntry? f.default = some d ∧ f.resolve? d = some r) ∨
      (stored.bind Responsive.desktopEntry? = none ∧ Responsive.desktopEntry? f.default = none ∧
        f.resolveUnset = .ok r) := by
  rw [resolveAt_desktop, resolve_eq_ok_iff, Responsive.bind_desktopOf?]
  rfl

/-- The attributes of the markup resolve what the style sheet does at the desktop. -/
theorem resolveDesktop?_eq_some_iff : f.resolveDesktop? stored = some r ↔
    f.resolveAt (stored.map .ofStored) .desktop = .ok r := by
  rw [resolveDesktop?, resolveAt_desktop]
  cases f.resolve (stored.bind Responsive.desktopOf?) (Responsive.desktopOf? f.default) <;> simp

/-- Conditions can use a stored value exactly when its desktop entry resolves. -/
theorem Accepted.canUse_iff_resolve? (hf : f.Accepted) (hk : f.kind.keepsText = true) :
    f.canUse v = true ↔
      ∃ entry r, Responsive.desktopEntry? v = some entry ∧ f.resolve? entry = some r := by
  have hparts : ¬f.BrokenInside v := by
    rintro ⟨entry, -, -, hbroken⟩
    rw [Kind.partsFit_of_keepsText hk] at hbroken
    cases hbroken
  rw [hf.canUse_iff_takesDesktop_or, or_iff_left hparts, takesDesktop_iff_resolve?]

end Field

/-! ### The text of the effective value -/

/-- An entry of `null` has no text. -/
theorem Json.bind_nonNull?_scalarText? (j? : Option Json) :
    (j?.bind nonNull?).bind scalarText? = j?.bind scalarText? := by
  cases j? with
  | none => rfl
  | some j => cases j <;> rfl

/-- A default of `null` has no desktop entry. -/
theorem Responsive.nonNull?_bind_desktopEntry? (v : Json) :
    v.nonNull?.bind desktopEntry? = desktopEntry? v := by
  cases v <;> rfl

/-- The text of the effective value at the desktop is the token of what is
    resolved there. -/
theorem Schema.get?_value_of_resolveAt {s : Schema} {t : Tree} {p : Path} {f : Field}
    (hf : s.field? p = some f) (hacc : f.Accepted) (hk : f.kind.keepsText = true) {r : Resolved}
    (h : f.resolveAt ((t.get? p).map .ofStored) .desktop = .ok r) :
    r.tokens.get? Placeholder.value =
      some ((((s.effective? t p).bind Responsive.desktopOf?).bind Json.scalarText?).getD "") := by
  rw [← Json.bind_nonNull?_scalarText?, Responsive.bind_desktopOf?]
  rw [Field.resolveAt_desktop_eq_ok_iff] at h
  rcases effective?_cases (t := t) hf with ⟨v, hv, hcan, heffective⟩ | ⟨hcannot, heffective⟩
  · -- The stored value counts, so its entry is what is resolved.
    obtain ⟨entry, used, hentry, hused⟩ := (hacc.canUse_iff_resolve? hk).1 hcan
    rw [hv, Option.bind_some, hentry] at h
    have hr : f.resolve? entry = some r := by
      rcases h with ⟨_, hsame, hr⟩ | ⟨hrefused, -⟩ | ⟨hnone, -⟩
      · cases hsame
        exact hr
      · rw [hrefused entry rfl] at hused
        cases hused
      · cases hnone
    obtain ⟨text, htext, htoken⟩ := Field.exists_text_of_resolve? hk hr
    rw [heffective, Option.bind_some, hentry, Option.bind_some, htext, htoken]
    rfl
  · rw [heffective, Responsive.nonNull?_bind_desktopEntry?]
    rcases h with ⟨entry, hentry, hr⟩ | ⟨-, d, hd, hr⟩ | ⟨-, hd, hr⟩
    · -- An entry that resolves belongs to a value that counts.
      obtain ⟨v, hv, hentry⟩ := Option.bind_eq_some_iff.1 hentry
      have hcan := (hacc.canUse_iff_resolve? hk).2 ⟨entry, r, hentry, hr⟩
      rw [hcannot v hv] at hcan
      cases hcan
    · obtain ⟨text, htext, htoken⟩ := Field.exists_text_of_resolve? hk hr
      rw [hd, Option.bind_some, htext, htoken]
      rfl
    · rw [hd, Field.get?_value_of_resolveUnset hr]
      rfl

namespace Instance

/-- A setting has one desktop value. What the attributes of the markup resolve is
    what the style sheet resolves at the desktop, where every field is resolved.
    And in a field that keeps the text of its value, the setting as a text is the
    token that stands for the value in both. -/
theorem desktop_value_agrees {c : Category} {steps : List Schema.Step} {i : Instance}
    (h : Schema.ofSteps c steps = .ok i.general) {e : Entry} (he : e ∈ i.general.entries) :
    .desktop ∈ e.field.breakpoints ((i.settings.general.get? e.path).map .ofStored) ∧
    (∀ r, e.field.resolveDesktop? (i.settings.general.get? e.path) = some r ↔
      e.field.resolveAt ((i.settings.general.get? e.path).map .ofStored) .desktop = .ok r) ∧
    (e.field.kind ∈ [Kind.text, .textarea, .url, .select, .toggle, .color] → ∀ r,
      e.field.resolveAt ((i.settings.general.get? e.path).map .ofStored) .desktop = .ok r →
        r.tokens.get? Placeholder.value = some (i.text e.path.toText)) := by
  have hs := Schema.ofSteps_wellFormed h
  refine ⟨e.field.desktop_mem_breakpoints _, fun r => Field.resolveDesktop?_eq_some_iff, ?_⟩
  intro hk r hr
  rw [text, value?, (hs.ofKeys_path he).2.ofText_toText]
  refine Schema.get?_value_of_resolveAt (hs.field?_of_mem he) (hs.accepted he) ?_ hr
  revert hk
  cases e.field.kind <;> decide

/-- The size of a card that is no option is the default, in the style sheet, in
    the markup and as a text. -/
theorem cardOf_size : ∃ s, Schema.ofSteps .general cardSteps = .ok s ∧ ∃ e ∈ s.entries, ∃ r,
    e.path.toText = "look.size" ∧
    e.field.kind ∈ [Kind.text, .textarea, .url, .select, .toggle, .color] ∧
    e.field.resolveAt (((cardOf s).settings.general.get? e.path).map .ofStored) .desktop = .ok r ∧
    e.field.resolveDesktop? ((cardOf s).settings.general.get? e.path) = some r ∧
    r.tokens.get? Placeholder.value = some ((cardOf s).text "look.size") ∧
    (cardOf s).text "look.size" = "small" := by
  obtain ⟨s, hs, hq⟩ := Schema.exists_of_any .general cardSteps (fun s =>
    (cardOf s).text "look.size" = "small" && s.entries.any fun e =>
      e.path.toText = "look.size" && e.field.kind = .select &&
        (e.field.resolveAt (((cardOf s).settings.general.get? e.path).map .ofStored)
          .desktop).toOption.isSome) (by decide +kernel)
  simp only [Bool.and_eq_true, decide_eq_true_eq, List.any_eq_true] at hq
  obtain ⟨htext, e, he, ⟨hpath, hkind⟩, hresolve⟩ := hq
  obtain ⟨r, hr⟩ := Option.isSome_iff_exists.1 hresolve
  have hr := Schema.eq_ok_of_toOption hr
  have hk : e.field.kind ∈ [Kind.text, .textarea, .url, .select, .toggle, .color] := by
    rw [hkind]
    decide
  obtain ⟨-, hmarkup, htoken⟩ := desktop_value_agrees (i := cardOf s) hs he
  exact ⟨s, hs, e, he, r, hpath, hk, hr, (hmarkup r).2 hr, hpath ▸ htoken hk r hr, htext⟩

end Instance

end ScopedStyle
