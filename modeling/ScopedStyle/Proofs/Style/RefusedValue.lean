import ScopedStyle.Proofs.Schema.Gating
import ScopedStyle.Proofs.Settings.Edits
import ScopedStyle.Proofs.Style.SheetReading

/-!
# Stored values that are refused

A stored value of which the field can use no entry should count as if nothing
were stored. For the rules at a breakpoint that it has an entry for this is so:
the default of the breakpoint decides, with the refused entry in front of it or
without (`Field.RefusesAt.rulesOf_eq`), and so it is at the desktop in any case.
It is so for conditions as well, if they do not take the value for one that can
be used (`Schema.WellFormed.active_without`).

It is not so for the breakpoints themselves. Whatever is stored decides at which
of the narrower ones the field has rules, refused or not, and only where nothing
is stored does the default decide. So a refused value hides what the default has
for a breakpoint that the value has no entry for (`wide_gap_hides_phone`), and a
sheet with it is the sheet without it exactly if there is nothing to hide and the
conditions hold alike (`Schema.compile_refused_iff`).
-/

namespace ScopedStyle

/-- An entry for a narrower breakpoint is never `null`. -/
theorem Responsive.nonNull?_of_get?_ofStored {v entry : Json} {b : Breakpoint} (hb : b ≠ .desktop)
    (h : (ofStored v).get? b = some entry) : entry.nonNull? = some entry := by
  cases hmap : isMap v with
  | true =>
    rw [get?_ofStored hmap] at h
    exact Json.nonNull?_of_bind h
  | false =>
    rw [ofStored, ofMap?, hmap] at h
    cases b with
    | desktop => exact absurd rfl hb
    | tablet | mobile => cases h

/-! ### Rules at a breakpoint -/

namespace Field

variable {f : Field} {v : Json} {stored stored' : Option Responsive} {b : Breakpoint}

/-- The field cannot use the entry that a stored value has for a breakpoint, if it
    has one. -/
def RefusesAt (f : Field) (v : Json) (b : Breakpoint) : Prop :=
  ∀ entry, (Responsive.ofStored v).get? b = some entry → ∀ r, f.resolve (some entry) none ≠ .ok r

/-- The field can use none of the entries of a stored value. -/
def RefusesAll (f : Field) (v : Json) : Prop :=
  ∀ b, f.RefusesAt v b

/-- Whether all entries are refused is found by trying each of them. -/
theorem refusesAll_iff : f.RefusesAll v ↔ ((Responsive.ofStored v).entries.all fun entry =>
    (f.resolve (some entry.2) none).toOption.isNone) = true := by
  have hrefused (entry : Json) : (f.resolve (some entry) none).toOption.isNone = true ↔
      ∀ r, f.resolve (some entry) none ≠ .ok r := by
    cases f.resolve (some entry) none <;> simp [Except.toOption]
  simp only [List.all_eq_true, Responsive.entries, List.forall_mem_filterMap,
    Option.map_eq_some_iff, hrefused]
  constructor
  · rintro h b - _ ⟨entry, hentry, rfl⟩
    exact h b entry hentry
  · exact fun h b entry hentry => h b b.mem_all _ ⟨entry, hentry, rfl⟩

theorem rulesAt_congr (h : ∀ r, f.resolveAt stored b = .ok r ↔ f.resolveAt stored' b = .ok r)
    (wrapper : String) : f.rulesAt stored wrapper b = f.rulesAt stored' wrapper b := by
  rw [rulesAt, rulesAt]
  cases hstored : f.resolveAt stored b with
  | ok r => rw [(h r).1 hstored]
  | error e =>
    cases hstored' : f.resolveAt stored' b with
    | ok r =>
      rw [(h r).2 hstored'] at hstored
      cases hstored
    | error e' => rfl

theorem rulesAt_eq_nil (h : ∀ r, f.resolveAt stored b ≠ .ok r) (wrapper : String) :
    f.rulesAt stored wrapper b = [] := by
  rw [rulesAt]
  split
  · rfl
  · rename_i r hr
    exact absurd hr (h r)

/-- An entry that is refused cannot be used. -/
theorem RefusesAt.resolve?_eq_none (h : f.RefusesAt v b) {entry : Json}
    (hentry : ((Responsive.ofStored v).get? b).bind Json.nonNull? = some entry) :
    f.resolve? entry = none := by
  obtain ⟨_, hget, hnonNull⟩ := Option.bind_eq_some_iff.1 hentry
  obtain ⟨rfl, hself⟩ := Json.nonNull?_eq_some hnonNull
  rw [← Option.not_isSome_iff_eq_none, ← resolve_stored_iff hself]
  rintro ⟨r, hr⟩
  exact h _ hget r hr

/-- Where the default has an entry, it decides if the stored one cannot be used. -/
theorem rulesAt_eq_unset {d : Json}
    (hstored : ∀ entry, ((Responsive.ofStored v).get? b).bind Json.nonNull? = some entry →
      f.resolve? entry = none)
    (hdefault : ((Responsive.ofStored f.default).get? b).bind Json.nonNull? = some d)
    (wrapper : String) :
    f.rulesAt (some (.ofStored v)) wrapper b = f.rulesAt none wrapper b := by
  refine rulesAt_congr (fun r => ?_) wrapper
  rw [resolveAt, resolveAt, Option.bind_some, Option.bind_none,
    resolve_eq_ok_iff_of_fallback hstored hdefault,
    resolve_eq_ok_iff_of_fallback (fun _ hnone => by cases hnone) hdefault]

/-- Where the default has no entry, a refused one has no rules. -/
theorem RefusesAt.rulesAt_eq_nil (h : f.RefusesAt v b) {entry : Json}
    (hentry : (Responsive.ofStored v).get? b = some entry)
    (hdefault : (Responsive.ofStored f.default).get? b = none) (wrapper : String) :
    f.rulesAt (some (.ofStored v)) wrapper b = [] := by
  refine Field.rulesAt_eq_nil (fun r => ?_) wrapper
  rw [resolveAt, Option.bind_some, hentry, hdefault]
  exact h entry hentry r

/-- A refused value is none that resolution takes. -/
theorem RefusesAll.not_takesDesktop (h : f.RefusesAll v) : ¬f.TakesDesktop v := by
  rintro ⟨entry, hentry, r, hr⟩
  obtain ⟨_, hget, hnonNull⟩ := Option.bind_eq_some_iff.1 hentry
  obtain ⟨rfl, _⟩ := Json.nonNull?_eq_some hnonNull
  exact h .desktop _ hget r hr

/-- The rules that a field with the given stored value has at a breakpoint, none
    where it is not resolved. -/
def rulesOf (f : Field) (stored : Option Json) (wrapper : String) (b : Breakpoint) :
    List StyleRule :=
  let stored := stored.map Responsive.ofStored
  if f.hasBreakpoint stored b then f.rulesAt stored wrapper b else []

/-- At the desktop the default decides when resolution does not take the stored
    value. -/
theorem rulesOf_desktop (h : ¬f.TakesDesktop v) (hdefault : f.TakesDesktop f.default)
    (wrapper : String) : f.rulesOf (some v) wrapper .desktop = f.rulesOf none wrapper .desktop := by
  obtain ⟨d, hd, -⟩ := hdefault
  have hrules := rulesAt_eq_unset (b := .desktop)
    (fun _ => resolve?_eq_none_of_not_takesDesktop h) hd wrapper
  simp [rulesOf, hasBreakpoint, hrules]

/-- A field has no rules at a narrower breakpoint that nothing is stored for, when
    something is stored at all. -/
theorem rulesOf_eq_nil_of_get? (hb : b ≠ .desktop) (h : (Responsive.ofStored v).get? b = none)
    (wrapper : String) : f.rulesOf (some v) wrapper b = [] := by
  simp [rulesOf, hasBreakpoint, hb, h]

/-- At a narrower breakpoint the default decides when the entry for it is refused. -/
theorem RefusesAt.rulesOf_eq (h : f.RefusesAt v b) (hb : b ≠ .desktop) {entry : Json}
    (hentry : (Responsive.ofStored v).get? b = some entry) (wrapper : String) :
    f.rulesOf (some v) wrapper b = f.rulesOf none wrapper b := by
  rw [rulesOf, rulesOf, Option.map_some, Option.map_none]
  cases hd : (Responsive.ofStored f.default).get? b with
  | none => simp [hasBreakpoint, hb, hd, h.rulesAt_eq_nil hentry hd]
  | some d =>
    have hnonNull : ((Responsive.ofStored f.default).get? b).bind Json.nonNull? = some d := by
      rw [hd, Option.bind_some, Responsive.nonNull?_of_get?_ofStored hb hd]
    simp [hasBreakpoint, hb, hd, hentry,
      rulesAt_eq_unset (fun _ => h.resolve?_eq_none) hnonNull]

/-- With a refused value stored, a field has the rules of its default, or none
    where nothing is stored for the breakpoint. -/
theorem rulesOf_refused (h : f.RefusesAll v) (hdefault : f.TakesDesktop f.default)
    (wrapper : String) (b : Breakpoint) :
    f.rulesOf (some v) wrapper b =
      if b = .desktop || ((Responsive.ofStored v).get? b).isSome then f.rulesOf none wrapper b
      else [] := by
  by_cases hb : b = .desktop
  · subst hb
    exact rulesOf_desktop h.not_takesDesktop hdefault wrapper
  · cases hentry : (Responsive.ofStored v).get? b with
    | none => simp [hb, rulesOf_eq_nil_of_get? hb hentry]
    | some entry => simp [(h b).rulesOf_eq hb hentry]

/-- Where nothing is stored, a field has rules only at the breakpoints that its
    default has an entry for. -/
theorem rulesOf_none_eq_nil (hb : b ≠ .desktop)
    (h : f.responsive = true → ((Responsive.ofStored f.default).get? b).isSome = false)
    (wrapper : String) : f.rulesOf none wrapper b = [] := by
  rw [rulesOf]
  refine if_neg ?_
  cases hresponsive : f.responsive with
  | false => simp [hasBreakpoint, hb, hresponsive]
  | true => simp [hasBreakpoint, hb, h hresponsive]

end Field

/-! ### Conditions -/

namespace Schema.WellFormed

variable {s : Schema} (hs : s.WellFormed) {e : Entry} (he : e ∈ s.entries) {t : OrderedTree}

include hs he

theorem path_ne_root : e.path ≠ .root := by
  intro h
  have hlength := (hs.ofKeys_path he).1
  rw [h] at hlength
  rcases hlength with hlength | hlength <;> cases hlength

/-- What a field has stored is removed from it alone. -/
theorem get?_without {e' : Entry} (he' : e' ∈ s.entries) :
    (t.without e.path).get? e'.path = if e'.path = e.path then none else t.get? e'.path := by
  split
  · rename_i hpath
    rw [hpath, Tree.get?_without_self t.ordered (hs.path_ne_root he)]
  · rename_i hpath
    refine Tree.get?_without_of_apart (hs.apart_of_ne he he' ?_)
    rintro rfl
    exact hpath rfl

/-- A refused value and no value have the same effect in conditions, unless the
    refused value is broken inside. -/
theorem effective?_without {v : Json} (hv : t.get? e.path = some v)
    (hrefused : e.field.RefusesAll v) {p : Path} (hfield : (s.field? p).isSome = true)
    (hbroken : p = e.path → ¬e.field.BrokenInside v) :
    s.effective? t p = s.effective? (t.without e.path) p := by
  obtain ⟨f, hf⟩ := Option.isSome_iff_exists.1 hfield
  obtain ⟨e', he', rfl, rfl⟩ := exists_mem_of_field? hf
  have hget := hs.get?_without he (t := t) he'
  by_cases hpath : e'.path = e.path
  · obtain rfl := hs.eq_of_path_eq he' he hpath
    rw [if_pos rfl] at hget
    rw [effective?_of_get?_eq_none hf hget]
    rcases effective?_cases (t := t) hf with ⟨u, hu, hcan, -⟩ | ⟨-, heffective⟩
    · -- Conditions take what resolution takes, and what is broken inside.
      rw [hv] at hu
      cases hu
      rcases (hs.accepted he).canUse_iff_takesDesktop_or.1 hcan with htakes | hinside
      · exact absurd htakes hrefused.not_takesDesktop
      · exact absurd hinside (hbroken rfl)
    · exact heffective
  · rw [if_neg hpath] at hget
    exact effective?_congr hget.symm

/-- A condition holds with a refused value as without. -/
theorem active_without {v : Json} (hv : t.get? e.path = some v)
    (hrefused : e.field.RefusesAll v) {e' : Entry}
    (hbroken : e'.GatedBy e.path → ¬e.field.BrokenInside v) :
    e'.active s t = e'.active s (t.without e.path) := by
  refine Entry.active_congr_gatedBy fun p hp hfield => ?_
  refine hs.effective?_without he hv hrefused hfield ?_
  rintro rfl
  exact hbroken hp

/-- Another field has the same rules with a refused value as without, if its
    condition holds alike. -/
theorem rulesAt_without {e' : Entry} (he' : e' ∈ s.entries) (hne : e' ≠ e)
    (hactive : e'.active s t = e'.active s (t.without e.path)) (wrapper : String)
    (b : Breakpoint) : e'.rulesAt s t wrapper b = e'.rulesAt s (t.without e.path) wrapper b := by
  rw [Entry.rulesAt, Entry.rulesAt, hactive,
    Tree.get?_without_of_apart (hs.apart_of_ne he he' hne.symm)]

end Schema.WellFormed

namespace Entry

variable {e : Entry} {s : Schema} {t t' : Tree} {v : Json}

theorem rulesAt_eq (e : Entry) (s : Schema) (t : Tree) (wrapper : String) (b : Breakpoint) :
    e.rulesAt s t wrapper b =
      if e.active s t then e.field.rulesOf (t.get? e.path) wrapper b else [] := by
  rw [rulesAt, Field.rulesOf]
  cases e.active s t <;> rfl

/-- The rules of a field at a breakpoint, with a refused value stored: those of
    the default, or none where nothing is stored for the breakpoint. -/
theorem rulesAt_refused (hv : t.get? e.path = some v) (hnone : t'.get? e.path = none)
    (hactive : e.active s t = e.active s t') (hrefused : e.field.RefusesAll v)
    (hdefault : e.field.TakesDesktop e.field.default) (wrapper : String) (b : Breakpoint) :
    e.rulesAt s t wrapper b =
      if b = .desktop || ((Responsive.ofStored v).get? b).isSome then e.rulesAt s t' wrapper b
      else [] := by
  rw [rulesAt_eq, rulesAt_eq, hv, hnone, hactive,
    Field.rulesOf_refused hrefused hdefault wrapper b]
  cases e.active s t' <;> simp

/-- With the same rules over two trees, a field has none if its condition holds over
    one of them only. -/
theorem rulesAt_eq_nil_of_active_ne {wrapper : String} {b : Breakpoint}
    (h : e.rulesAt s t wrapper b = e.rulesAt s t' wrapper b)
    (hactive : e.active s t ≠ e.active s t') :
    e.rulesAt s t wrapper b = [] ∧ e.rulesAt s t' wrapper b = [] := by
  have hinactive {t : Tree} (h : e.active s t = false) : e.rulesAt s t wrapper b = [] := by
    rw [rulesAt_eq, h, if_neg Bool.false_ne_true]
  cases ht : e.active s t with
  | false => exact ⟨hinactive ht, h.symm.trans (hinactive ht)⟩
  | true =>
    rw [ht] at hactive
    have ht' : e.active s t' = false := Bool.eq_false_iff.2 hactive.symm
    exact ⟨h.trans (hinactive ht'), hinactive ht'⟩

theorem rulesAt_eq_nil_of_unset (hnone : t.get? e.path = none) {b : Breakpoint}
    (hb : b ≠ .desktop) (h : e.field.responsive = true →
      ((Responsive.ofStored e.field.default).get? b).isSome = false) (wrapper : String) :
    e.rulesAt s t wrapper b = [] := by
  rw [rulesAt_eq, hnone, Field.rulesOf_none_eq_nil hb h, ite_self]

end Entry

/-! ### Sheets -/

namespace Schema

/-- A stored value of which the field can use no entry makes the sheets that the tree
    makes without it exactly if two things hold. With the value removed, the field
    has no rules at the narrower breakpoints for which the value has no entry. And
    if the value is broken inside, every condition on the field holds as it does
    with the value removed, or its field has no rules either way. -/
theorem compile_refused_iff {category : Category} {steps : List Step} {s : Schema}
    (h : ofSteps category steps = .ok s) {e : Entry} (he : e ∈ s.entries) {t : OrderedTree}
    {v : Json} (hv : t.get? e.path = some v) (hdefault : e.field.TakesDesktop e.field.default)
    (hrefused : e.field.RefusesAll v) :
    (∀ c id sectionId,
      s.compile t c id sectionId = s.compile (t.without e.path) c id sectionId) ↔
    (∀ b, b ≠ .desktop → (Responsive.ofStored v).get? b = none → ∀ id sectionId,
      e.rulesAt s (t.without e.path) (Selector.wrapper id sectionId) b = []) ∧
    ∀ e' ∈ s.entries, e'.GatedBy e.path → e.field.BrokenInside v →
      e'.active s t = e'.active s (t.without e.path) ∨ ∀ id sectionId b,
        e'.rulesAt s t (Selector.wrapper id sectionId) b = [] ∧
        e'.rulesAt s (t.without e.path) (Selector.wrapper id sectionId) b = [] := by
  have hs := ofSteps_wellFormed h
  have hgone : (t.without e.path).get? e.path = none :=
    Tree.get?_without_self t.ordered (hs.path_ne_root he)
  rw [hs.compile_eq_iff]
  constructor
  · intro hrules
    refine ⟨fun b hb hentry id sectionId => ?_, fun e' he' _ _ => ?_⟩
    · rw [← hrules e he, Entry.rulesAt_eq, hv, Field.rulesOf_eq_nil_of_get? hb hentry, ite_self]
    · by_cases hactive : e'.active s t = e'.active s (t.without e.path)
      · exact .inl hactive
      · exact .inr fun id sectionId b =>
          Entry.rulesAt_eq_nil_of_active_ne (hrules e' he' id sectionId b) hactive
  · rintro ⟨hhidden, hgated⟩ e' he' id sectionId b
    have hcases : e'.active s t = e'.active s (t.without e.path) ∨ ∀ id sectionId b,
        e'.rulesAt s t (Selector.wrapper id sectionId) b = [] ∧
        e'.rulesAt s (t.without e.path) (Selector.wrapper id sectionId) b = [] := by
      by_cases hbroken : e'.GatedBy e.path ∧ e.field.BrokenInside v
      · exact hgated e' he' hbroken.1 hbroken.2
      · exact .inl (hs.active_without he hv hrefused fun hgate hinside => hbroken ⟨hgate, hinside⟩)
    rcases hcases with hactive | hnone
    · by_cases hee : e' = e
      · subst hee
        rw [Entry.rulesAt_refused hv hgone hactive hrefused hdefault]
        split
        · rfl
        · rename_i hunset
          rw [Bool.or_eq_true, not_or, decide_eq_true_eq] at hunset
          refine (hhidden b hunset.1 ?_ id sectionId).symm
          simpa using hunset.2
      · exact hs.rulesAt_without he he' hee hactive _ b
    · rw [(hnone id sectionId b).1, (hnone id sectionId b).2]

/-- A gap with a default for every width and one for the phone, and a color that
    goes with the gap of the default. -/
def spacedSteps : List Step :=
  [.openGroup "layout" "Layout",
    .field "number" [.key "gap", .label "Gap", .responsive true,
      .default (.obj [("desktop", .ofNat 20), ("mobile", .ofNat 8)]),
      .rule (.declared ⟨"\x7b\x7bWRAPPER\x7d\x7d"⟩ ⟨"gap: \x7b\x7bVALUE\x7d\x7dpx;"⟩)],
    .field "color" [.key "tone", .label "Tone", .default (.str "red"),
      .condition ⟨[⟨⟨["gap"]⟩, .eq, .ofNat 20⟩]⟩,
      .rule (.declared ⟨"\x7b\x7bWRAPPER\x7d\x7d"⟩ ⟨"color: \x7b\x7bVALUE\x7d\x7d;"⟩)]]

/-- Settings that store a gap. -/
def spacedTree (gap : Json) : Tree :=
  ⟨.obj [("layout", .obj [("gap", gap)])]⟩

/-- The gap of these settings, which takes its default and refuses a value, if
    trying the entries says so. -/
theorem exists_gap_of_any (v : Json) (q : Schema → Entry → Bool)
    (h : (ofSteps .style spacedSteps).toOption.any (fun s => s.entries.any fun e =>
      e.path = ⟨["layout", "gap"]⟩ &&
        ((Responsive.desktopEntry? e.field.default).any fun entry =>
          (e.field.resolve (some entry) none).toOption.isSome) &&
        ((Responsive.ofStored v).entries.all fun entry =>
          (e.field.resolve (some entry.2) none).toOption.isNone) && q s e) = true) :
    ∃ s, ofSteps .style spacedSteps = .ok s ∧ ∃ e ∈ s.entries, e.path = ⟨["layout", "gap"]⟩ ∧
      e.field.TakesDesktop e.field.default ∧ e.field.RefusesAll v ∧ q s e = true := by
  obtain ⟨s, hs, hq⟩ := exists_of_any .style spacedSteps _ h
  obtain ⟨e, he, hq⟩ := List.any_eq_true.1 hq
  simp only [Bool.and_eq_true, decide_eq_true_eq] at hq
  obtain ⟨⟨⟨hpath, htakes⟩, hrefused⟩, hq⟩ := hq
  obtain ⟨entry, hentry, hresolve⟩ := (Option.any_eq_true _ _).1 htakes
  obtain ⟨r, hr⟩ := Option.isSome_iff_exists.1 hresolve
  exact ⟨s, hs, e, he, hpath, ⟨entry, hentry, r, eq_ok_of_toOption hr⟩,
    Field.refusesAll_iff.2 hrefused, hq⟩

/-- A gap that is no number hides the gap of the default for the phone, which is
    there when nothing is stored. -/
theorem wide_gap_hides_phone :
    ∃ s, ofSteps .style spacedSteps = .ok s ∧ ∃ e ∈ s.entries,
      (spacedTree (.str "wide")).get? e.path = some (.str "wide") ∧
      e.field.TakesDesktop e.field.default ∧
      (Responsive.ofStored (.str "wide")).entries ≠ [] ∧ e.field.RefusesAll (.str "wide") ∧
      s.compile (spacedTree (.str "wide")) .standard "w" none =
        [.rule ⟨"#w", "gap: 20px;"⟩, .rule ⟨"#w", "color: red;"⟩] ∧
      s.compile ((spacedTree (.str "wide")).without e.path) .standard "w" none =
        [.rule ⟨"#w", "gap: 20px;"⟩, .media 767 [⟨"#w", "gap: 8px;"⟩],
          .rule ⟨"#w", "color: red;"⟩] ∧
      s.compile (spacedTree (.str "wide")) .standard "w" none ≠
        s.compile ((spacedTree (.str "wide")).without e.path) .standard "w" none := by
  obtain ⟨s, hs, e, he, hpath, htakes, hrefused, hq⟩ := exists_gap_of_any (.str "wide")
    (fun s e => s.compile (spacedTree (.str "wide")) .standard "w" none =
        [.rule ⟨"#w", "gap: 20px;"⟩, .rule ⟨"#w", "color: red;"⟩] &&
      s.compile ((spacedTree (.str "wide")).without e.path) .standard "w" none =
        [.rule ⟨"#w", "gap: 20px;"⟩, .media 767 [⟨"#w", "gap: 8px;"⟩],
          .rule ⟨"#w", "color: red;"⟩]) (by decide +kernel)
  simp only [Bool.and_eq_true, decide_eq_true_eq] at hq
  obtain ⟨hstored, hunset⟩ := hq
  refine ⟨s, hs, e, he, by rw [hpath]; rfl, htakes, by decide, hrefused, hstored, hunset, ?_⟩
  rw [hstored, hunset]
  decide

/-- Gaps that are no numbers, for every width and for the phone. -/
def wideGaps : Json :=
  .obj [("desktop", .str "wide"), ("mobile", .str "narrow")]

/-- Such gaps count as unset, for the color that goes with the gap as well. -/
theorem wideGaps_count_as_unset :
    ∃ s, ofSteps .style spacedSteps = .ok s ∧ ∃ e ∈ s.entries, ∃ t : OrderedTree,
      t.toTree = spacedTree wideGaps ∧ t.get? e.path = some wideGaps ∧
      e.field.TakesDesktop e.field.default ∧ e.field.RefusesAll wideGaps ∧
      s.compile t .standard "w" none =
        [.rule ⟨"#w", "gap: 20px;"⟩, .media 767 [⟨"#w", "gap: 8px;"⟩],
          .rule ⟨"#w", "color: red;"⟩] ∧
      ∀ c id sectionId,
        s.compile t c id sectionId = s.compile (t.without e.path) c id sectionId := by
  obtain ⟨s, hs, e, he, hpath, htakes, hrefused, hq⟩ := exists_gap_of_any wideGaps
    (fun s e => e.field.kind = .number && ((Responsive.ofStored e.field.default).tablet.isNone &&
      s.compile (spacedTree wideGaps) .standard "w" none =
        [.rule ⟨"#w", "gap: 20px;"⟩, .media 767 [⟨"#w", "gap: 8px;"⟩],
          .rule ⟨"#w", "color: red;"⟩])) (by decide +kernel)
  simp only [Bool.and_eq_true, decide_eq_true_eq] at hq
  obtain ⟨hkind, htablet, hcompile⟩ := hq
  have hordered : (spacedTree wideGaps).root.Ordered := by
    simp only [spacedTree, wideGaps, Json.Ordered, Json.EntriesOrdered, Dict.Ordered, and_true]
    decide
  have hget : (spacedTree wideGaps).get? e.path = some wideGaps := by
    rw [hpath]
    rfl
  have hgone := Tree.get?_without_self hordered ((ofSteps_wellFormed hs).path_ne_root he)
  refine ⟨s, hs, e, he, ⟨_, hordered⟩, rfl, hget, htakes, hrefused, hcompile,
    (compile_refused_iff hs he hget htakes hrefused).2 ⟨?_, ?_⟩⟩
  · intro b hb hentry id sectionId
    refine Entry.rulesAt_eq_nil_of_unset hgone hb (fun _ => ?_) _
    cases b with
    | desktop => exact absurd rfl hb
    | tablet => rw [Responsive.get?, Option.isNone_iff_eq_none.1 htablet, Option.isSome_none]
    | mobile => cases hentry
  · -- A number has no parts that could be broken.
    rintro e' he' - ⟨entry, -, -, hparts⟩
    rw [hkind] at hparts
    cases hparts

end Schema

end ScopedStyle
