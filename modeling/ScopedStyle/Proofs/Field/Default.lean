import ScopedStyle.Proofs.Field.Accepted
import ScopedStyle.Proofs.Value.Acceptance

/-!
# Defaults

The default of a field is checked when the field is made, and is what its
declarations fall back to later on. The check asks for the shape of the kind,
and of a choice also that its text is an option. Resolution asks for more, and
reads texts in its own way, so an accepted field may declare a default that it
cannot use (`Field.Overlooked`). This happens in three ways:

* a field that is not responsive has its default checked as a whole, but only
  the desktop entry is read when it is keyed by breakpoints;
* the text of a choice is checked as it is written, but read without the blanks
  around it, or as a CSS numeral;
* the parts of an object are not checked at all.

Any other default of an accepted field can be used, and then no stored value is
malformed (`Field.resolve_default_iff`).
-/

namespace ScopedStyle.Field

/-- The check of the declarations as a whole covers every default value. -/
theorem Declared.accepts_of_mem_defaults {d : Declared} {k : Kind} (h : d.problem? k = none)
    {v : Json} (hv : v ∈ d.defaults) :
    k.accepts v = true ∧ (k.isChoice = true → choiceAllowed k d.options (choiceOf v) = true) := by
  obtain ⟨_, _, hshape, hchoice⟩ := problem?_eq_none_iff.1 h
  exact ⟨hshape v hv, fun hk => hchoice hk v hv⟩

variable {f : Field} {v : Json}

/-- The entries of the default that declarations read: all of a responsive
    field, and otherwise the one for the desktop. -/
def defaultEntries (f : Field) : List Json :=
  ((if f.responsive then Breakpoint.all else [.desktop]).filterMap
    (Responsive.ofStored f.default).get?).filterMap Json.nonNull?

/-- What the making of a field does not see in an entry of its default. -/
inductive Overlooked (f : Field) (v : Json) : Prop where
  /-- The default has the shape of the kind as a whole, but its desktop entry,
      which alone is read, has not. -/
  | unread (hresponsive : f.responsive = false) (hmap : Responsive.isMap f.default = true)
    (hwhole : f.kind.accepts f.default = true) (hentry : f.kind.accepts v = false)
  /-- The text is a choice as it is written, but not as it is read. -/
  | reworded (hk : f.kind.isChoice = true)
    (hwritten : f.allowsChoice (Declared.choiceOf v) = true) (hread : f.choiceFits v = false)
  /-- The object has a part that the kind cannot use. -/
  | broken (haccepts : f.kind.accepts v = true) (hparts : f.kind.partsFit v = false)

/-- A value keyed by breakpoints is an object. -/
theorem nonNull?_of_isMap (h : Responsive.isMap v = true) : v.nonNull? = some v := by
  cases v with
  | null => cases h
  | _ => rfl

/-- Choices are no objects. -/
theorem isChoice_of_accepts_map {k : Kind} (hmap : Responsive.isMap v = true)
    (h : k.accepts v = true) : k.isChoice = false := by
  cases v with
  | obj entries => cases k <;> first | rfl | cases h
  | _ => cases hmap

/-- An entry that is read is a default value that was checked, but for a field
    that is not responsive with a default keyed by breakpoints. -/
theorem mem_defaultEntries_cases {d : Declared} {k : Kind} {key label : String}
    (hv : v ∈ (d.toField k key label).defaultEntries) :
    v ∈ d.defaults ∨
      d.responsive = false ∧ Responsive.isMap d.default = true ∧ d.default ∈ d.defaults := by
  obtain ⟨w, hw, hnonNull⟩ := List.mem_filterMap.1 hv
  obtain ⟨b, hb, hget⟩ := List.mem_filterMap.1 hw
  obtain ⟨rfl, hnonNull⟩ := Json.nonNull?_eq_some hnonNull
  change (Responsive.ofStored d.default).get? b = some w at hget
  rw [Responsive.ofStored, Responsive.ofMap?] at hget
  rw [Declared.defaults]
  cases hmap : Responsive.isMap d.default with
  | false =>
    -- Such a default stands for the desktop alone.
    rw [hmap] at hget
    cases b with
    | desktop =>
      cases hget
      exact .inl (by simp [hnonNull])
    | tablet | mobile => cases hget
  | true =>
    rw [hmap] at hget
    cases hresponsive : d.responsive with
    | false =>
      -- What was checked is the default as a whole.
      exact .inr ⟨rfl, rfl, by simp [nonNull?_of_isMap hmap]⟩
    | true =>
      have hat : Responsive.at? d.default b = some w := by cases b <;> exact hget
      obtain ⟨j, hj, hjw⟩ := Option.bind_eq_some_iff.1 hat
      exact .inl (List.mem_filterMap.2
        ⟨j, List.mem_map.2 ⟨_, Dict.mem_of_get?_eq_some hj, rfl⟩, hjw⟩)

/-- Every entry that is read was checked, or is overlooked as unread. -/
theorem checked_of_mem_defaultEntries {kindName : String} {attributes : List Attribute}
    (h : ofAttributes kindName attributes = .ok f) (hv : v ∈ f.defaultEntries) :
    (f.kind.accepts v = true ∧
        (f.kind.isChoice = true → f.allowsChoice (Declared.choiceOf v) = true)) ∨
      f.kind.isChoice = false ∧ (f.kind.accepts v = false → f.Overlooked v) := by
  obtain ⟨k, key, label, _, _, _, hproblem, rfl⟩ := ofAttributes_eq_ok h
  rcases mem_defaultEntries_cases hv with hmem | ⟨hresponsive, hmap, hmem⟩
  · exact .inl (Declared.accepts_of_mem_defaults hproblem hmem)
  · have hwhole := (Declared.accepts_of_mem_defaults hproblem hmem).1
    exact .inr ⟨isChoice_of_accepts_map hmap hwhole, .unread hresponsive hmap hwhole⟩

/-- An entry that is read can be used unless it is overlooked. -/
theorem isSome_resolve?_default_iff {kindName : String} {attributes : List Attribute}
    (h : ofAttributes kindName attributes = .ok f) (hv : v ∈ f.defaultEntries) :
    (f.resolve? v).isSome = true ↔ ¬f.Overlooked v := by
  simp only [isSome_resolve?, Bool.and_eq_true, Bool.or_eq_true, Bool.not_eq_true']
  constructor
  · rintro ⟨⟨haccepts, hchoice⟩, hparts⟩ (⟨_, _, _, hentry⟩ | ⟨hk, _, hread⟩ | ⟨_, hbroken⟩)
    · rw [haccepts] at hentry
      cases hentry
    · rcases hchoice with hno | hfits
      · rw [hk] at hno
        cases hno
      · rw [hfits] at hread
        cases hread
    · rw [hparts] at hbroken
      cases hbroken
  · intro hnot
    have hchecked := checked_of_mem_defaultEntries h hv
    have haccepts : f.kind.accepts v = true := by
      rcases hchecked with ⟨haccepts, _⟩ | ⟨_, hunread⟩
      · exact haccepts
      · exact Bool.of_not_eq_false fun hentry => hnot (hunread hentry)
    refine ⟨⟨haccepts, ?_⟩, Bool.of_not_eq_false fun hparts => hnot (.broken haccepts hparts)⟩
    rcases hchecked with ⟨_, hallowed⟩ | ⟨hk, _⟩
    · cases hk : f.kind.isChoice with
      | false => exact .inl rfl
      | true =>
        exact .inr (Bool.of_not_eq_false fun hread => hnot (.reworded hk (hallowed hk) hread))
    · exact .inl hk

theorem nonNull?_of_mem_defaultEntries (hv : v ∈ f.defaultEntries) : v.nonNull? = some v := by
  obtain ⟨w, _, hnonNull⟩ := List.mem_filterMap.1 hv
  exact (Json.nonNull?_eq_some hnonNull).2

/-- An entry of the default of an accepted field resolves exactly when the
    making of the field overlooks nothing in it, and then it is good for every
    stored value. -/
theorem resolve_default_iff {kindName : String} {attributes : List Attribute}
    (h : ofAttributes kindName attributes = .ok f) (hv : v ∈ f.defaultEntries) :
    ((∃ r, f.resolve none (some v) = .ok r) ↔ ¬f.Overlooked v) ∧
      (¬f.Overlooked v → ∀ stored, ∃ r, f.resolve stored (some v) = .ok r) := by
  have hnonNull := nonNull?_of_mem_defaultEntries hv
  rw [← isSome_resolve?_default_iff h hv]
  exact ⟨resolve_fallback_iff hnonNull, exists_resolve_of_isSome hnonNull⟩

/-- A select with one option, which is also its default. -/
def toneAttributes (option : String) : List Attribute :=
  [.key "tone", .label "Tone", .options [⟨option, "Tone"⟩], .default (.str option)]

/-- A default with blanks around it is an option as it is written, but the
    text that is read is none. -/
theorem blank_default_malformed :
    ∃ f, ofAttributes "select" (toneAttributes " a ") = .ok f ∧ .str " a " ∈ f.defaultEntries ∧
      ¬∃ r, f.resolve none (some (.str " a ")) = .ok r := by
  refine ⟨_, rfl, .head _, ?_⟩
  rintro ⟨r, hr⟩
  cases hr

/-- The default without the blanks is good for every stored value. -/
theorem plain_default_resolves :
    ∃ f, ofAttributes "select" (toneAttributes "a") = .ok f ∧ .str "a" ∈ f.defaultEntries ∧
      ∀ stored, ∃ r, f.resolve stored (some (.str "a")) = .ok r := by
  have hmade : ofAttributes "select" (toneAttributes "a") = .ok _ := rfl
  refine ⟨_, hmade, .head _, (resolve_default_iff hmade (.head _)).2 ?_⟩
  rintro (⟨_, hmap, _, _⟩ | ⟨_, _, hread⟩ | ⟨_, hparts⟩)
  · cases hmap
  · cases hread
  · cases hparts

/-- The sides of a default dimension are not checked. -/
example : (ofAttributes "dimension" [.key "padding", .label "Padding",
    .default (.obj [("top", .bool true)])]).toOption.map
      (fun f => (f.resolve none (some f.default)).toOption.isNone) = some true := by rfl

/-- Nor are the entries of a default that is read as a responsive one where the
    field is not responsive. -/
example : (ofAttributes "icon" [.key "icon", .label "Icon",
    .default (.obj [("desktop", .str "star")])]).toOption.map
      (fun f => f.defaultEntries.map fun v => (f.resolve none (some v)).toOption.isNone) =
        some [true] := by rfl

end ScopedStyle.Field
