import ScopedStyle.Proofs.Markup.Entity
import ScopedStyle.Proofs.Widget.DesktopValue

/-!
# The state of a toggle

Whether a toggle is on is asked twice. Its class is part of the markup unless its
text means off: the blanks around it are left away, its case does not matter, and
five texts mean off (`Markup.isOn`). A widget that asks for the flag takes a truth
value or one of four texts as on, letter by letter (`Instance.flag`).

Both look at the same value, the desktop entry of the effective setting. So a
toggle with its flag set has its class (`Markup.turnsOn_of_countsAsOn`). The
converse fails for the texts that are in neither list, such as `On`, ` yes ` or `x`,
and for no other value: a toggle that holds one of them is styled as on and rendered
as off (`Instance.toggle_class_iff_flag`).
-/

namespace ScopedStyle

/-! ### Two readings of a value -/

/-- Whether a value turns the class of a toggle on. -/
def Markup.turnsOn : Json → Bool
  | .bool b => b
  | .str s => isOn s
  | _ => false

/-- Whether a value sets the flag of a toggle. -/
def Instance.countsAsOn : Json → Bool
  | .bool b => b
  | .str s => onTexts.contains s
  | _ => false

/-- Blanks around a text do not matter. -/
theorem Markup.isOn_trim (s : String) : isOn (Text.trim s) = isOn s := by
  rw [isOn, isOn, Text.trim_trim]

/-- What sets the flag turns the class on. -/
theorem Markup.turnsOn_of_countsAsOn {v : Json} (h : Instance.countsAsOn v = true) :
    turnsOn v = true := by
  cases v with
  | bool b => exact h
  | str s =>
    have htexts : ∀ text ∈ Instance.onTexts, isOn text = true := by decide +kernel
    exact htexts s (List.contains_iff_mem.1 h)
  | _ => cases h

/-- The two readings differ for the texts that turn the class on and are none of
    those that set the flag. -/
theorem Markup.turnsOn_iff_countsAsOn {v : Json} :
    (turnsOn v = true ↔ Instance.countsAsOn v = true) ↔
      ¬∃ text, v = .str text ∧ isOn text = true ∧ text ∉ Instance.onTexts := by
  constructor
  · rintro h ⟨text, rfl, hon, hnot⟩
    exact hnot (List.contains_iff_mem.1 (h.1 hon))
  · refine fun h => ⟨fun hon => ?_, turnsOn_of_countsAsOn⟩
    cases v with
    | bool b => exact hon
    | str s =>
      by_contra hnot
      exact h ⟨s, rfl, hon, fun hmem => hnot (List.contains_iff_mem.2 hmem)⟩
    | _ => cases hon

/-- The flag is that of the desktop entry of the setting. -/
theorem Instance.flag_eq (i : Instance) (path : String) :
    i.flag path = (i.value? path).any countsAsOn := by
  rw [flag]
  cases i.value? path with
  | none => rfl
  | some v => cases v <;> rfl

/-! ### What a toggle contributes -/

namespace Field

variable {f : Field}

/-- A toggle contributes with a value that turns it on. -/
theorem isSome_contribution_toggle (hk : f.kind = .toggle) (v : Json) :
    ((f.resolve? v).filter (Markup.contributes f)).isSome = Markup.turnsOn v := by
  have hcontributes (text : String) :
      Markup.contributes f (.ofTokens (Scalar.tokens f text)) = Markup.isOn text := by
    rw [Markup.contributes, if_pos hk, Resolved.ofTokens, Scalar.get?_value_tokens]
    rfl
  have hresolve {text : String} (haccepts : Kind.accepts .toggle v = true)
      (htext : v.scalarText? = some text) :
      ((f.resolve? v).filter (Markup.contributes f)).isSome = Markup.isOn text := by
    rw [resolve?, hk, if_pos haccepts, resolveShaped?, hk]
    dsimp only
    rw [Scalar.resolve?, Scalar.text?, hk]
    dsimp only
    rw [htext, Option.map_some, Option.filter_some, hcontributes]
    cases Markup.isOn text <;> rfl
  cases v with
  | bool b => cases b <;> exact (hresolve rfl rfl).trans (by decide +kernel)
  | str s => exact (hresolve rfl rfl).trans (Markup.isOn_trim s)
  | _ =>
    rw [resolve?, hk]
    rfl

end Field

/-- Whatever field keeps the text of its value contributes with the desktop entry
    of the effective setting. -/
theorem Schema.contribution?_eq_effective {s : Schema} {t : Tree} {p : Path} {f : Field}
    (hf : s.field? p = some f) (hacc : f.Accepted) (hk : f.kind.keepsText = true) :
    f.contribution? (t.get? p) =
      (((s.effective? t p).bind Responsive.desktopEntry?).bind f.resolve?).filter
        (Markup.contributes f) := by
  rcases effective?_cases (t := t) hf with ⟨v, hv, hcan, heffective⟩ | ⟨hcannot, heffective⟩
  · obtain ⟨entry, r, hentry, hr⟩ := (hacc.canUse_iff_resolve? hk).1 hcan
    have hresolve : f.resolveDesktop? (some v) = some r := by
      rw [Field.resolveDesktop?_eq_some_iff, Field.resolveAt_desktop_eq_ok_iff]
      exact .inl ⟨entry, hentry, hr⟩
    rw [heffective, hv, Field.contribution?, hresolve, Option.bind_some, hentry, Option.bind_some,
      hr]
  · rw [heffective, Responsive.nonNull?_bind_desktopEntry?]
    exact Field.contribution?_eq_default fun v hv => hacc.not_takesDesktop_of_canUse (hcannot v hv)

/-- The class that a field contributes. -/
def Entry.classText? (e : Entry) (s : Schema) (t : Tree) : Option String :=
  e.field.classTemplate.bind (e.markup? s t)

/-- The classes of a general schema are those that its fields contribute. -/
theorem Schema.cssClasses_eq {s : Schema} (hs : s.category = .general) (t : Tree) :
    s.cssClasses t = " ".intercalate (s.entries.filterMap (·.classText? s t)) := by
  rw [cssClasses, markupTexts, hs]
  rfl

/-- A field without a condition whose class is not empty contributes it exactly
    when it contributes at all. -/
theorem Entry.isSome_classText? {e : Entry} {s : Schema} {t : Tree} {template : Template}
    (htemplate : e.field.classTemplate = some template) (hcondition : e.field.condition = none)
    (hshown : ∀ r, e.field.resolveDesktop? (t.get? e.path) = some r →
      Text.trim (r.tokens.render template) ≠ "") :
    (e.classText? s t).isSome = (e.field.contribution? (t.get? e.path)).isSome := by
  have hactive : e.active s t = true := by rw [active, hcondition]
  rw [classText?, htemplate, Option.bind_some, markup?_eq_bind, hactive]
  cases hcontribution : e.field.contribution? (t.get? e.path) with
  | none => rfl
  | some r =>
    have hne : Markup.escape (Text.trim (r.tokens.render template)) ≠ "" := by
      rw [ne_eq, ← String.isEmpty_iff, Markup.isEmpty_escape, String.isEmpty_iff]
      exact hshown r (Option.filter_eq_some_iff.1 hcontribution).1
    simp [guard, hne]

namespace Instance

/-- The classes of an element are those that the fields contribute. A toggle
    without a condition whose class is not empty contributes it whenever its flag
    is set. The converse holds unless the value of the toggle is a text that does
    not mean off, and is none of the texts that set the flag. -/
theorem toggle_class_iff_flag {steps : List Schema.Step} {i : Instance}
    (h : Schema.ofSteps .general steps = .ok i.general) {e : Entry} (he : e ∈ i.general.entries)
    (hk : e.field.kind = .toggle) (hcondition : e.field.condition = none) {template : Template}
    (htemplate : e.field.classTemplate = some template)
    (hshown : ∀ r, e.field.resolveDesktop? (i.settings.general.get? e.path) = some r →
      Text.trim (r.tokens.render template) ≠ "") :
    i.cssClasses = " ".intercalate
      (i.general.entries.filterMap (·.classText? i.general i.settings.general)) ∧
    (i.flag e.path.toText = true →
      (e.classText? i.general i.settings.general).isSome = true) ∧
    (((e.classText? i.general i.settings.general).isSome = true ↔
        i.flag e.path.toText = true) ↔
      ¬∃ text, i.value? e.path.toText = some (.str text) ∧ Markup.isOn text = true ∧
        text ∉ onTexts) := by
  have hs := Schema.ofSteps_wellFormed h
  have hkeeps : e.field.kind.keepsText = true := by rw [hk]; rfl
  -- Both look at the desktop entry of the effective setting.
  have hclass : (e.classText? i.general i.settings.general).isSome =
      (i.value? e.path.toText).any Markup.turnsOn := by
    rw [Entry.isSome_classText? htemplate hcondition hshown,
      Schema.contribution?_eq_effective (hs.field?_of_mem he) (hs.accepted he) hkeeps,
      ← Responsive.bind_desktopOf?, value?, (hs.ofKeys_path he).2.ofText_toText]
    cases (i.general.effective? i.settings.general e.path).bind Responsive.desktopOf? with
    | none => rfl
    | some v =>
      cases hv : v.nonNull? with
      | none =>
        -- Only `null` counts as no value, and it turns nothing on.
        cases v with
        | null => rfl
        | _ => cases hv
      | some w =>
        obtain ⟨rfl, -⟩ := Json.nonNull?_eq_some hv
        rw [Option.bind_some, hv, Option.bind_some, Field.isSome_contribution_toggle hk,
          Option.any_some]
  refine ⟨Schema.cssClasses_eq (Schema.category_of_ofSteps h) _, ?_, ?_⟩
  · rw [hclass, flag_eq, Option.any_eq_true, Option.any_eq_true]
    rintro ⟨v, hv, hon⟩
    exact ⟨v, hv, Markup.turnsOn_of_countsAsOn hon⟩
  · rw [hclass, flag_eq]
    cases i.value? e.path.toText with
    | none => simp
    | some v => simpa using Markup.turnsOn_iff_countsAsOn

/-- A frame that is shown or not, and may differ on phones. -/
def framedSteps : List Schema.Step :=
  [.openGroup "look" "Look",
    .field "toggle" [.key "framed", .label "Framed", .default (.bool false), .responsive true,
      .classTemplate ⟨"is-framed"⟩]]

/-- A picture that stores whether it has a frame. -/
def framedOf (s : Schema) (framed : Json) : Instance where
  id := "picture"
  settings.general := ⟨.obj [("look", .obj [("framed", framed)])]⟩
  settings.style := .empty
  general := s
  style := .empty .style

/-- With a capital letter the text for on is none that sets the flag: the picture
    has the class for the frame and is rendered without one. -/
theorem capital_on_styled_alone : ∃ s, Schema.ofSteps .general framedSteps = .ok s ∧
    ∃ e ∈ s.entries, e.field.kind = .toggle ∧ e.field.condition = none ∧
      e.field.classTemplate = some ⟨"is-framed"⟩ ∧
      (framedOf s (.str "On")).cssClasses = "is-framed" ∧
      (e.classText? s (framedOf s (.str "On")).settings.general).isSome = true ∧
      (framedOf s (.str "On")).flag e.path.toText = false := by
  obtain ⟨s, hs, hq⟩ := Schema.exists_of_any .general framedSteps (fun s =>
    (framedOf s (.str "On")).cssClasses = "is-framed" && s.entries.any fun e =>
      e.field.kind = .toggle && e.field.condition.isNone &&
        e.field.classTemplate = some ⟨"is-framed"⟩ &&
        (e.classText? s (framedOf s (.str "On")).settings.general).isSome &&
        (framedOf s (.str "On")).flag e.path.toText = false) (by decide +kernel)
  simp only [Bool.and_eq_true, decide_eq_true_eq, List.any_eq_true, Option.isNone_iff_eq_none] at hq
  obtain ⟨hclasses, e, he, ⟨⟨⟨hk, hcondition⟩, htemplate⟩, hclass⟩, hflag⟩ := hq
  exact ⟨s, hs, e, he, hk, hcondition, htemplate, hclasses, hclass, hflag⟩

/-- A frame on desktops alone is there in the classes as well as in the markup. -/
theorem desktop_frame_on : ∃ s, Schema.ofSteps .general framedSteps = .ok s ∧ ∃ e ∈ s.entries,
    ∃ i, i = framedOf s (.obj [("desktop", .str "yes"), ("mobile", .bool false)]) ∧
      e.field.kind = .toggle ∧ e.field.condition = none ∧
      e.field.classTemplate = some ⟨"is-framed"⟩ ∧
      (∀ r, e.field.resolveDesktop? (i.settings.general.get? e.path) = some r →
        Text.trim (r.tokens.render ⟨"is-framed"⟩) ≠ "") ∧
      i.flag e.path.toText = true ∧
      (e.classText? s i.settings.general).isSome = true ∧
      ¬∃ text, i.value? e.path.toText = some (.str text) ∧ Markup.isOn text = true ∧
        text ∉ onTexts := by
  obtain ⟨s, hs, hq⟩ := Schema.exists_of_any .general framedSteps (fun s => s.entries.any fun e =>
    e.field.kind = .toggle && e.field.condition.isNone &&
      e.field.classTemplate = some ⟨"is-framed"⟩ &&
      (framedOf s (.obj [("desktop", .str "yes"), ("mobile", .bool false)])).flag e.path.toText)
    (by decide +kernel)
  simp only [Bool.and_eq_true, decide_eq_true_eq, List.any_eq_true, Option.isNone_iff_eq_none] at hq
  obtain ⟨e, he, ⟨⟨hk, hcondition⟩, htemplate⟩, hflag⟩ := hq
  have hshown (r : Resolved) : Text.trim (r.tokens.render ⟨"is-framed"⟩) ≠ "" := by
    have hsegments : (Template.mk "is-framed").segments = [.literal "is-framed"] := by
      decide +kernel
    rw [Tokens.render, Template.render, hsegments]
    change Text.trim (String.join ["is-framed"]) ≠ ""
    decide +kernel
  obtain ⟨-, hclass, hsame⟩ := toggle_class_iff_flag
    (i := framedOf s (.obj [("desktop", .str "yes"), ("mobile", .bool false)])) hs he hk hcondition
    htemplate fun r _ => hshown r
  exact ⟨s, hs, e, he, _, rfl, hk, hcondition, htemplate, fun r _ => hshown r, hflag,
    hclass hflag, hsame.1 ⟨fun _ => hflag, hclass⟩⟩

end Instance

end ScopedStyle
