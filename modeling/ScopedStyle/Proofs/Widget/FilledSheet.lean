import ScopedStyle.Proofs.Style.RefusedValue
import ScopedStyle.Proofs.Widget.EffectiveTree

/-!
# The style sheet over effective values

The effective values of an instance are settings of their own, and a template
for the markup is rendered with them. They should make the style sheet that the
stored settings make, so that what varies by breakpoint there varies here too.

At the desktop they do. What a condition takes for the value of a field is
stored as it is, with all its entries; what it does not take is none that the
rules at the desktop are made of either, and the default stands in its place
(`Field.rulesOf_desktop`). For a narrower breakpoint the desktop entry tells
nothing, however. A value without one may well have an entry for the phone, and
this entry goes with the value (`Instance.phone_gap_lost`). And a value that is
refused keeps out what the default has for the breakpoints that the value has no
entry for, which the default lets in.

So the two sheets are the same exactly if nothing of the kind happens at any
narrower breakpoint (`Instance.compile_effectiveGeneral_iff`).
-/

namespace ScopedStyle

/-! ### Rules of one field -/

namespace Field

variable {f : Field} {v : Json} {b : Breakpoint}

/-- The default as the stored value has the rules that it has anyway. -/
theorem rulesOf_default : f.rulesOf f.default.nonNull? = f.rulesOf none := by
  rcases f.nonNull?_default_cases with h | h
  · rw [h]
  · funext wrapper b
    have hat : f.resolveAt (some (.ofStored f.default)) b = f.resolveAt none b := f.resolve_self _
    rw [h, rulesOf, rulesOf, Option.map_some, Option.map_none, rulesAt, rulesAt, hat]
    rfl

/-- A field that is not responsive has rules at the desktop alone. -/
theorem rulesOf_narrower (h : f.responsive = false) (hb : b ≠ .desktop) (stored : Option Json)
    (wrapper : String) : f.rulesOf stored wrapper b = [] := by
  simp [rulesOf, hasBreakpoint, h, hb]

theorem rulesOf_of_rules_eq_nil (h : f.rules = []) (stored : Option Json) (wrapper : String)
    (b : Breakpoint) : f.rulesOf stored wrapper b = [] := by
  rw [rulesOf, rulesAt_of_rules_eq_nil h, ite_self]

/-- The rules of a responsive field at a narrower breakpoint are those of the entry
    for it, if the field can use this. -/
theorem rulesOf_of_resolve (h : f.responsive = true) (hb : b ≠ .desktop) {entry : Json}
    (hentry : (Responsive.ofStored v).get? b = some entry) {r : Resolved}
    (hr : f.resolve (some entry) none = .ok r) (wrapper : String) :
    f.rulesOf (some v) wrapper b = f.styleRules r wrapper := by
  have hnonNull := Responsive.nonNull?_of_get?_ofStored hb hentry
  have hused : f.resolve? entry = some r := by
    rcases resolve_eq_ok_iff.1 hr with ⟨u, hu, hused⟩ | ⟨-, d, hd, -⟩ | ⟨hnone, -, -⟩
    · rw [Option.bind_some, hnonNull] at hu
      cases hu
      exact hused
    · cases hd
    · rw [Option.bind_some, hnonNull] at hnone
      cases hnone
  have hat : f.resolveAt (some (.ofStored v)) b = .ok r := by
    rw [resolveAt, Option.bind_some, hentry]
    exact resolve_eq_ok_iff.2 (.inl ⟨entry, by rw [Option.bind_some, hnonNull], hused⟩)
  simp [rulesOf, hasBreakpoint, h, hentry, rulesAt, hat]

/-- With the default in place of a stored value no rule is lost and none comes in at
    a breakpoint: the entry for it is refused or makes the rules of the default, and
    if there is no entry the default has no rules. -/
def DefaultStands (f : Field) (v : Json) (wrapper : String) (b : Breakpoint) : Prop :=
  match (Responsive.ofStored v).get? b with
  | some entry =>
    ∀ r, f.resolve (some entry) none = .ok r → f.styleRules r wrapper = f.rulesOf none wrapper b
  | none => f.rulesOf none wrapper b = []

theorem defaultStands_iff (h : f.responsive = true) (hb : b ≠ .desktop) {wrapper : String} :
    f.DefaultStands v wrapper b ↔ f.rulesOf (some v) wrapper b = f.rulesOf none wrapper b := by
  rw [DefaultStands]
  cases hentry : (Responsive.ofStored v).get? b with
  | none => rw [rulesOf_eq_nil_of_get? hb hentry, eq_comm]
  | some entry =>
    dsimp only
    cases hresolve : f.resolve (some entry) none with
    | ok r => simp [rulesOf_of_resolve h hb hentry hresolve]
    | error e =>
      have hrefused : f.RefusesAt v b := by
        intro entry' hentry' r hr
        cases hentry.symm.trans hentry'
        cases hresolve.symm.trans hr
      simp [hrefused.rulesOf_eq hb hentry]

end Field

/-! ### Fields of a schema -/

namespace Schema.WellFormed

variable {s : Schema} (hs : s.WellFormed) {e : Entry} (he : e ∈ s.entries) (t : Tree)

include hs he

/-- The filled tree stores the value that is stored, if conditions can use it,
    and else the default. -/
theorem get?_effectiveTree_cases :
    (∃ v, t.get? e.path = some v ∧ e.field.canUse v = true ∧
      (s.effectiveTree t).get? e.path = some v) ∨
    (∀ v, t.get? e.path = some v → e.field.canUse v = false) ∧
      (s.effectiveTree t).get? e.path = e.field.default.nonNull? := by
  have hf := hs.field?_of_mem he
  rw [hs.get?_effectiveTree hf]
  exact effective?_cases hf

/-- Over the filled tree a field whose condition holds has the rules that its stored
    value has, exactly if the rules of the default are the same wherever it replaces
    the value. -/
theorem rulesAt_effectiveTree_iff {wrapper : String} {b : Breakpoint} :
    e.rulesAt s (s.effectiveTree t) wrapper b = e.rulesAt s t wrapper b ↔
      (e.active s t = true → ∀ v, t.get? e.path = some v → e.field.canUse v = false →
        e.field.rulesOf (some v) wrapper b = e.field.rulesOf none wrapper b) := by
  rw [Entry.rulesAt_eq, Entry.rulesAt_eq, (hs.sameEffective_effectiveTree t).active e]
  cases e.active s t with
  | false => simp
  | true =>
    rw [if_pos rfl, if_pos rfl]
    rcases hs.get?_effectiveTree_cases he t with ⟨v, hv, hcan, hfilled⟩ | ⟨hcannot, hfilled⟩
    · rw [hfilled, hv]
      simp [hcan]
    · -- A stored default has the rules of no value, with which the value is compared.
      rw [hfilled, Field.rulesOf_default]
      cases hstored : t.get? e.path with
      | none => simp
      | some v =>
        constructor
        · rintro h - _ ⟨⟩ -
          exact h.symm
        · exact fun h => (h rfl v rfl (hcannot v hstored)).symm

end Schema.WellFormed

/-! ### Instances -/

namespace Instance

open Schema

/-- The effective values make the style sheets of the stored ones exactly if no field
    loses an override or gets one of its default. A value that conditions can use is
    kept with all its entries, and at the desktop its default counts for any other.
    So it is about the narrower breakpoints of the responsive fields that conditions
    cannot use the stored value of: what is stored there has to be refused or to make
    the rules of the default, and the default must not have rules where nothing is. -/
theorem compile_effectiveGeneral_iff {category : Category} {steps : List Step} {i : Instance}
    (h : ofSteps category steps = .ok i.general)
    (hdefault : ∀ e ∈ i.general.entries, e.field.rules ≠ [] →
      e.field.TakesDesktop e.field.default) :
    (∀ c id sectionId, i.general.compile i.effectiveGeneral c id sectionId =
      i.general.compile i.settings.general c id sectionId) ↔
    ∀ e ∈ i.general.entries, e.active i.general i.settings.general = true →
      e.field.responsive = true → ∀ v, i.settings.general.get? e.path = some v →
      e.field.canUse v = false → ∀ b, b ≠ .desktop → ∀ id sectionId,
      e.field.DefaultStands v (Selector.wrapper id sectionId) b := by
  have hs := ofSteps_wellFormed h
  rw [i.effectiveGeneral_eq, hs.compile_eq_iff]
  constructor
  · intro hrules e he hactive hresponsive v hv hcannot b hb id sectionId
    rw [Field.defaultStands_iff hresponsive hb]
    exact (hs.rulesAt_effectiveTree_iff he _).1 (hrules e he id sectionId b) hactive v hv hcannot
  · intro hstands e he id sectionId b
    refine (hs.rulesAt_effectiveTree_iff he _).2 fun hactive v hv hcannot => ?_
    by_cases hrules : e.field.rules = []
    · rw [Field.rulesOf_of_rules_eq_nil hrules, Field.rulesOf_of_rules_eq_nil hrules]
    by_cases hb : b = .desktop
    · subst hb
      have htakes := (hs.accepted he).not_takesDesktop_of_canUse hcannot
      exact Field.rulesOf_desktop htakes (hdefault e he hrules) _
    cases hresponsive : e.field.responsive with
    | false => rw [Field.rulesOf_narrower hresponsive hb, Field.rulesOf_narrower hresponsive hb]
    | true =>
      exact (Field.defaultStands_iff hresponsive hb).1
        (hstands e he hactive hresponsive v hv hcannot b hb id sectionId)

/-- A gap with a default for every width. -/
def evenSteps : List Step :=
  [.openGroup "layout" "Layout",
    .field "number" [.key "gap", .label "Gap", .responsive true, .default (.ofNat 20),
      .rule (.declared ⟨"\x7b\x7bWRAPPER\x7d\x7d"⟩ ⟨"gap: \x7b\x7bVALUE\x7d\x7dpx;"⟩)]]

/-- An instance with a gap stored. -/
def spacedOf (s : Schema) (gap : Json) : Instance where
  id := "w"
  settings.general := spacedTree gap
  settings.style := .empty
  general := s
  style := .empty .style

/-- Steps that can be taken, with fields that take their defaults at the desktop, if
    trying them says so. -/
theorem exists_takesDesktop_of_any (steps : List Step) (q : Schema → Bool)
    (h : (ofSteps .general steps).toOption.any (fun s => (s.entries.all fun e =>
      (Responsive.desktopEntry? e.field.default).any fun entry =>
        (e.field.resolve (some entry) none).toOption.isSome) && q s) = true) :
    ∃ s, ofSteps .general steps = .ok s ∧
      (∀ e ∈ s.entries, e.field.rules ≠ [] → e.field.TakesDesktop e.field.default) ∧
      q s = true := by
  obtain ⟨s, hs, hq⟩ := exists_of_any .general steps _ h
  obtain ⟨htakes, hq⟩ := Bool.and_eq_true_iff.1 hq
  refine ⟨s, hs, fun e he _ => ?_, hq⟩
  obtain ⟨entry, hentry, hresolve⟩ := (Option.any_eq_true _ _).1 (List.all_eq_true.1 htakes e he)
  obtain ⟨r, hr⟩ := Option.isSome_iff_exists.1 hresolve
  exact ⟨entry, hentry, r, eq_ok_of_toOption hr⟩

/-- A gap for the phone alone is lost when the default is filled in, as the default
    replaces all of it. -/
theorem phone_gap_lost :
    ∃ s, ofSteps .general evenSteps = .ok s ∧
      (∀ e ∈ s.entries, e.field.rules ≠ [] → e.field.TakesDesktop e.field.default) ∧ ∃ i,
      i = spacedOf s (.obj [("mobile", .ofNat 8)]) ∧
      i.effectiveGeneral.toText = "\x7b\"layout\":\x7b\"gap\":20\x7d\x7d" ∧
      s.compile i.settings.general .standard "w" none =
        [.rule ⟨"#w", "gap: 20px;"⟩, .media 767 [⟨"#w", "gap: 8px;"⟩]] ∧
      s.compile i.effectiveGeneral .standard "w" none = [.rule ⟨"#w", "gap: 20px;"⟩] ∧
      s.compile i.effectiveGeneral .standard "w" none ≠
        s.compile i.settings.general .standard "w" none := by
  obtain ⟨s, hs, htakes, hq⟩ := exists_takesDesktop_of_any evenSteps (fun s =>
    (spacedOf s (.obj [("mobile", .ofNat 8)])).effectiveGeneral.toText =
        "\x7b\"layout\":\x7b\"gap\":20\x7d\x7d" &&
      s.compile (spacedOf s (.obj [("mobile", .ofNat 8)])).settings.general .standard "w" none =
        [.rule ⟨"#w", "gap: 20px;"⟩, .media 767 [⟨"#w", "gap: 8px;"⟩]] &&
      s.compile (spacedOf s (.obj [("mobile", .ofNat 8)])).effectiveGeneral .standard "w" none =
        [.rule ⟨"#w", "gap: 20px;"⟩]) (by decide +kernel)
  simp only [Bool.and_eq_true, decide_eq_true_eq] at hq
  obtain ⟨⟨htext, hstored⟩, hfilled⟩ := hq
  refine ⟨s, hs, htakes, _, rfl, htext, hstored, hfilled, ?_⟩
  rw [hstored, hfilled]
  decide

/-- Gaps that are no numbers, for every width and for the phone, make the same
    sheets as the default that replaces them. -/
theorem wideGaps_filled :
    ∃ s, ofSteps .general spacedSteps = .ok s ∧
      s.compile (spacedOf s wideGaps).settings.general .standard "w" none =
        [.rule ⟨"#w", "gap: 20px;"⟩, .media 767 [⟨"#w", "gap: 8px;"⟩],
          .rule ⟨"#w", "color: red;"⟩] ∧
      ∀ c id sectionId, s.compile (spacedOf s wideGaps).effectiveGeneral c id sectionId =
        s.compile (spacedOf s wideGaps).settings.general c id sectionId := by
  obtain ⟨s, hs, htakes, hq⟩ := exists_takesDesktop_of_any spacedSteps (fun s =>
    s.compile (spacedOf s wideGaps).settings.general .standard "w" none =
        [.rule ⟨"#w", "gap: 20px;"⟩, .media 767 [⟨"#w", "gap: 8px;"⟩],
          .rule ⟨"#w", "color: red;"⟩] &&
      s.entries.all fun e => ((spacedTree wideGaps).get? e.path).all fun v =>
        ((Responsive.ofStored v).entries.all fun entry =>
          (e.field.resolve (some entry.2) none).toOption.isNone) &&
        (Responsive.ofStored e.field.default).tablet.isNone &&
          (Responsive.ofStored v).mobile.isSome) (by decide +kernel)
  simp only [Bool.and_eq_true, decide_eq_true_eq] at hq
  obtain ⟨hstored, hentries⟩ := hq
  refine ⟨s, hs, hstored, (compile_effectiveGeneral_iff (i := spacedOf s wideGaps) hs htakes).2 ?_⟩
  intro e he _ hresponsive v hv _ b hb id sectionId
  have hv' := (Option.all_eq_true _ _).1 (List.all_eq_true.1 hentries e he) v hv
  simp only [Bool.and_eq_true] at hv'
  obtain ⟨⟨hrefused, htablet⟩, hmobile⟩ := hv'
  rw [Field.DefaultStands]
  cases hentry : (Responsive.ofStored v).get? b with
  | some entry => exact fun r hr => absurd hr (Field.refusesAll_iff.2 hrefused b entry hentry r)
  | none =>
    refine Field.rulesOf_none_eq_nil hb (fun _ => ?_) _
    cases b with
    | desktop => exact absurd rfl hb
    | tablet => rw [Responsive.get?, Option.isNone_iff_eq_none.1 htablet, Option.isSome_none]
    | mobile =>
      rw [Responsive.get?] at hentry
      rw [hentry] at hmobile
      cases hmobile

end Instance

end ScopedStyle
