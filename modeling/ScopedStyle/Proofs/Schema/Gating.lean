import ScopedStyle.Proofs.Schema.Addressing
import ScopedStyle.Proofs.Value.Acceptance
import ScopedStyle.Schema.Effective

/-!
# Gating

A condition should see a field the way the style sheet does: a stored value
counts as long as resolution takes its desktop entry, and otherwise the default
counts. The test for conditions (`Field.canUse`) is one of its own, however. It
asks for the shape and the choice, but does not look into objects.

So the two agree but for one case (`Schema.effective?_agrees_iff`): a dimension,
a background or a typography value that has the right shape and a part that its
kind cannot use. Resolution falls back to the default for such a value, while
conditions go on with the value itself.
-/

namespace ScopedStyle

/-- The entry of a stored value for the desktop, unless it is `null`. -/
def Responsive.desktopEntry? (v : Json) : Option Json :=
  (desktopOf? v).bind Json.nonNull?

/-- Conditions compare the desktop entry. -/
theorem Clause.compared?_eq_desktopOf? (v : Json) : compared? v = Responsive.desktopOf? v := by
  rw [compared?, Responsive.desktopOf?, Responsive.ofStored, Responsive.ofMap?]
  split <;> rfl

namespace Field

variable {f : Field} {v : Json}

/-- Resolution takes the desktop entry of a stored value. -/
def TakesDesktop (f : Field) (v : Json) : Prop :=
  ∃ entry, Responsive.desktopEntry? v = some entry ∧ ∃ r, f.resolve (some entry) none = .ok r

/-- The desktop entry of a stored value has the shape of the kind, but a part
    that the kind cannot use. -/
def BrokenInside (f : Field) (v : Json) : Prop :=
  ∃ entry, Responsive.desktopEntry? v = some entry ∧ f.kind.accepts entry = true ∧
    f.kind.partsFit entry = false

/-- Fields without options allow every choice, but for alignments. -/
theorem Accepted.choiceFits (hf : f.Accepted) (hk : f.kind.isChoice = false) (v : Json) :
    f.choiceFits v = true := by
  have hallows (choice : String) : f.allowsChoice choice = true := by
    rw [allowsChoice, choiceAllowed, hf.options_eq_nil hk]
    cases hkind : f.kind <;> simp_all [Kind.isChoice]
  rw [Field.choiceFits]
  cases v.scalarText? with
  | none => rfl
  | some text => rw [Option.all_some, hallows, Bool.or_true]

/-- A kind that looks into objects is none of choices. -/
theorem isChoice_of_partsFit {k : Kind} (h : k.partsFit v = false) : k.isChoice = false := by
  cases k <;> first | rfl | cases h

/-- The test for conditions asks for the shape and the choice of the desktop
    entry. -/
theorem canUse_iff : f.canUse v = true ↔
    ∃ entry, Responsive.desktopEntry? v = some entry ∧ f.kind.accepts entry = true ∧
      f.choiceFits entry = true := by
  rw [canUse, Clause.compared?_eq_desktopOf?, ← Responsive.desktopEntry?]
  cases Responsive.desktopEntry? v with
  | none => simp
  | some entry =>
    simp only [Option.some.injEq, exists_eq_left', choiceFits]
    cases entry.scalarText? <;> simp

theorem nonNull?_desktopEntry {entry : Json} (h : Responsive.desktopEntry? v = some entry) :
    entry.nonNull? = some entry :=
  Json.nonNull?_of_bind h

/-- Resolution takes the desktop entry of a stored value when the field can use
    it. -/
theorem takesDesktop_iff_resolve? : f.TakesDesktop v ↔
    ∃ entry r, Responsive.desktopEntry? v = some entry ∧ f.resolve? entry = some r := by
  constructor
  · rintro ⟨entry, hentry, hresolve⟩
    rw [resolve_stored_iff (nonNull?_desktopEntry hentry)] at hresolve
    obtain ⟨r, hr⟩ := Option.isSome_iff_exists.1 hresolve
    exact ⟨entry, r, hentry, hr⟩
  · rintro ⟨entry, r, hentry, hr⟩
    refine ⟨entry, hentry, (resolve_stored_iff (nonNull?_desktopEntry hentry)).2 ?_⟩
    rw [hr]
    rfl

/-- A desktop entry that resolution does not take cannot be used. -/
theorem resolve?_eq_none_of_not_takesDesktop (h : ¬f.TakesDesktop v) {entry : Json}
    (hentry : Responsive.desktopEntry? v = some entry) : f.resolve? entry = none := by
  by_contra hsome
  obtain ⟨r, hr⟩ := Option.ne_none_iff_exists'.1 hsome
  exact h (takesDesktop_iff_resolve?.2 ⟨entry, r, hentry, hr⟩)

/-- Resolution also looks at the parts of the desktop entry. -/
theorem Accepted.takesDesktop_iff (hf : f.Accepted) : f.TakesDesktop v ↔
    ∃ entry, Responsive.desktopEntry? v = some entry ∧ f.kind.accepts entry = true ∧
      f.choiceFits entry = true ∧ f.kind.partsFit entry = true := by
  refine exists_congr fun entry => and_congr_right fun hentry => ?_
  rw [resolve_stored_iff (nonNull?_desktopEntry hentry), isSome_resolve?]
  -- Resolution asks for the choice of a choice only, but no other field rules one out.
  cases hk : f.kind.isChoice with
  | true => simp [and_assoc]
  | false => simp [hf.choiceFits hk]

/-- Conditions take what resolution takes, and what is broken inside. -/
theorem Accepted.canUse_iff_takesDesktop_or (hf : f.Accepted) :
    f.canUse v = true ↔ f.TakesDesktop v ∨ f.BrokenInside v := by
  rw [canUse_iff, hf.takesDesktop_iff]
  constructor
  · rintro ⟨entry, hentry, haccepts, hchoice⟩
    cases hparts : f.kind.partsFit entry with
    | true => exact .inl ⟨entry, hentry, haccepts, hchoice, hparts⟩
    | false => exact .inr ⟨entry, hentry, haccepts, hparts⟩
  · rintro (⟨entry, hentry, haccepts, hchoice, _⟩ | ⟨entry, hentry, haccepts, hparts⟩)
    · exact ⟨entry, hentry, haccepts, hchoice⟩
    · exact ⟨entry, hentry, haccepts, hf.choiceFits (isChoice_of_partsFit hparts) entry⟩

/-- What conditions do not take, resolution does not take either. -/
theorem Accepted.not_takesDesktop_of_canUse (hf : f.Accepted) (h : f.canUse v = false) :
    ¬f.TakesDesktop v := by
  intro htakes
  rw [hf.canUse_iff_takesDesktop_or.2 (.inl htakes)] at h
  cases h

theorem Accepted.not_takesDesktop (hf : f.Accepted) (h : f.BrokenInside v) :
    ¬f.TakesDesktop v := by
  rw [hf.takesDesktop_iff]
  rintro ⟨entry, hentry, _, _, hparts⟩
  obtain ⟨broken, hbroken, _, hfalse⟩ := h
  rw [hentry] at hbroken
  cases hbroken
  rw [hparts] at hfalse
  cases hfalse

end Field

namespace Schema

/-- A stored value counts in conditions exactly when resolution takes its
    desktop entry, and otherwise the default does, unless the value is broken
    inside and is not the default itself. -/
theorem effective?_agrees_iff {c : Category} {steps : List Step} {s : Schema}
    (h : ofSteps c steps = .ok s) {e : Entry} (he : e ∈ s.entries) {t : Tree} {v : Json}
    (hv : t.get? e.path = some v) :
    ((e.field.TakesDesktop v → s.effective? t e.path = some v) ∧
        (¬e.field.TakesDesktop v → s.effective? t e.path = e.field.default.nonNull?)) ↔
      ¬(e.field.BrokenInside v ∧ e.field.default.nonNull? ≠ some v) := by
  have hs := ofSteps_wellFormed h
  have hcanUse := (hs.accepted he).canUse_iff_takesDesktop_or (v := v)
  have heffective : s.effective? t e.path =
      if e.field.canUse v then some v else e.field.default.nonNull? := by
    rw [effective?, hs.field?_of_mem he, hv]
  rw [heffective]
  by_cases hbroken : e.field.BrokenInside v
  · -- Conditions take the value, resolution does not: only an equal default hides this.
    have htakes := (hs.accepted he).not_takesDesktop hbroken
    rw [if_pos (hcanUse.2 (.inr hbroken))]
    simp only [htakes, hbroken, false_implies, not_false_eq_true, true_implies, true_and, ne_eq,
      not_not]
    exact eq_comm
  · by_cases htakes : e.field.TakesDesktop v
    · rw [if_pos (hcanUse.2 (.inl htakes))]
      simp [htakes, hbroken]
    · have hcannot : ¬e.field.canUse v = true := fun hcan => (hcanUse.1 hcan).elim htakes hbroken
      rw [if_neg hcannot]
      simp [htakes, hbroken]

/-- A group with a padding. -/
def paddingSteps : List Step :=
  [.openGroup "box" "Box",
    .field "dimension" [.key "padding", .label "Padding", .default (.obj [("top", .str "1")])]]

/-- Settings that store a padding. -/
def paddingTree (v : Json) : Tree :=
  ⟨.obj [("box", .obj [("padding", v)])]⟩

/-- A padding whose top side is a list counts in conditions, although resolution
    does not take it and the default is another one. -/
theorem broken_padding_counts :
    ∃ s, ofSteps .style paddingSteps = .ok s ∧ ∃ e ∈ s.entries, ∃ v,
      v = .obj [("top", .arr [.ofNat 1])] ∧ (paddingTree v).get? e.path = some v ∧
      ¬e.field.TakesDesktop v ∧ s.effective? (paddingTree v) e.path = some v ∧
      e.field.default.nonNull? ≠ some v := by
  refine ⟨_, rfl, _, .head _, _, rfl, rfl, ?_, rfl, ?_⟩
  · rintro ⟨entry, hentry, r, hr⟩
    cases hentry
    cases hr
  · intro h
    cases h

/-- A padding whose top side is a text counts, as resolution takes it. -/
theorem stored_padding_counts :
    ∃ s, ofSteps .style paddingSteps = .ok s ∧ ∃ e ∈ s.entries, ∃ v,
      v = .obj [("top", .str "2")] ∧ (paddingTree v).get? e.path = some v ∧
      e.field.TakesDesktop v ∧ s.effective? (paddingTree v) e.path = some v := by
  have hsteps : ofSteps .style paddingSteps = .ok _ := rfl
  refine ⟨_, hsteps, _, .head _, _, rfl, rfl, ⟨_, rfl, _, rfl⟩, ?_⟩
  refine ((effective?_agrees_iff hsteps (.head _) rfl).2 ?_).1 ⟨_, rfl, _, rfl⟩
  rintro ⟨⟨entry, hentry, _, hparts⟩, _⟩
  cases hentry
  cases hparts

end Schema

end ScopedStyle
