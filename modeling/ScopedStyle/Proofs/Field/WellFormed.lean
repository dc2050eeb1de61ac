import ScopedStyle.Proofs.Field.Accepted
import ScopedStyle.Proofs.Settings.DottedPath

/-!
# Well-formed fields

The checks of a field stand in many places: every attribute is checked where it
is given, and some things are only checked at the end. What they add up to is
that the parts of the field go together (`Field.WellFormed`). A field is accepted
exactly when it is well-formed (`Field.accepted_iff_wellFormed`):

* no list of attributes, whatever its order and however often it replaces a
  part, makes a field that is not well-formed, because each attribute leaves
  behind what the kind may have (`Field.Declared.Fits.add`);
* no check refuses more than that, because a well-formed field is made again
  from its own parts, given one by one (`Field.Declared.Made`).
-/

namespace ScopedStyle

namespace Kind

variable {k : Kind}

theorem takesUnit_iff : k.takesUnit = true ↔ k = .number ∨ k = .dimension := by
  cases k <;> decide

theorem takesBounds_iff : k.takesBounds = true ↔ k = .number := by
  cases k <;> decide

theorem isChoice_iff : k.isChoice = true ↔ k = .select ∨ k = .alignment := by
  cases k <;> decide

end Kind

theorem Json.nonNull?_eq_some_iff {j v : Json} : j.nonNull? = some v ↔ j = v ∧ v ≠ .null := by
  cases j <;> simp [nonNull?] <;> rintro rfl <;> simp

namespace Field

/-- A value is a default value of a field: an entry of the default where it is
    keyed by breakpoints and the field is responsive, else the default itself.
    The value null is none. -/
def HasDefault (f : Field) (v : Json) : Prop :=
  v ≠ .null ∧
    if f.responsive && Responsive.isMap f.default then ∃ key, (key, v) ∈ f.default.entries
    else f.default = v

/-- The parts of a field go together. -/
structure WellFormed (f : Field) : Prop where
  /-- The key is one segment of a path. -/
  key : f.key ≠ "" ∧ ∀ c ∈ f.key.toList, c ≠ '.' ∧ Text.isBlank c = false
  label : f.label ≠ ""
  /-- Only numbers and dimensions have a unit. -/
  unit : f.unit.isSome = true → f.kind = .number ∨ f.kind = .dimension
  /-- Only numbers have bounds and a step. -/
  min : f.min.isSome = true → f.kind = .number
  max : f.max.isSome = true → f.kind = .number
  step : f.step.isSome = true → f.kind = .number
  /-- The least number is not above the greatest. -/
  bounds : ∀ min max, f.min = some min → f.max = some max → max.below min = false
  /-- The step is neither negative nor zero. -/
  upwards : ∀ x, f.step = some x → x.below .zero = false ∧ x.same .zero = false
  /-- Only choices have options. -/
  options : f.options ≠ [] → f.kind = .select ∨ f.kind = .alignment
  /-- Structured values do not vary by breakpoint, and style nothing. -/
  responsive : f.responsive = true → f.kind.isStructured = false
  structured : f.kind.isStructured = true → f.rules = []
  selectors : ∀ r ∈ f.rules, ∀ selector ∈ r.selectors, ∀ name ∈ selector.placeholders,
    name = Placeholder.wrapper
  /-- Declarations use tokens of the kind, if it has any. -/
  declared : ∀ selector body, .declared selector body ∈ f.rules →
    f.kind.tokenNames ≠ [] ∧ ∀ name ∈ body.placeholders, name ∈ f.kind.tokenNames
  /-- Only composites write their own declarations. -/
  composed : ∀ selectors, .composed selectors ∈ f.rules → f.kind.isComposite = true
  /-- Only fields of one text take part in the markup. -/
  classTemplate : ∀ t, f.classTemplate = some t →
    f.kind.takesAttributes = true ∧ ∀ name ∈ t.placeholders, name ∈ f.kind.tokenNames
  styleTemplate : ∀ t, f.styleTemplate = some t →
    f.kind.takesAttributes = true ∧ ∀ name ∈ t.placeholders, name ∈ f.kind.tokenNames
  axis : f.axis.isSome = true ↔ f.kind = .alignment
  /-- A default has the shape of the kind. -/
  default : ∀ v, f.HasDefault v → f.kind.accepts v = true
  /-- The default of a choice is one of the options. -/
  choice : f.kind.isChoice = true → ∀ v, f.HasDefault v →
    f.allowsChoice (Declared.choiceOf v) = true

/-! ### Accepted fields are well-formed -/

theorem Declared.mem_defaults_iff {d : Declared} {k : Kind} {key label : String} {v : Json} :
    v ∈ d.defaults ↔ (d.toField k key label).HasDefault v := by
  change v ∈ d.defaults ↔ v ≠ .null ∧
    if d.responsive && Responsive.isMap d.default then ∃ key, (key, v) ∈ d.default.entries
    else d.default = v
  rw [defaults]
  split
  · simp only [List.mem_filterMap, List.mem_map, Json.nonNull?_eq_some_iff]
    constructor
    · rintro ⟨_, ⟨⟨key, j⟩, hmem, rfl⟩, rfl, hv⟩
      exact ⟨hv, key, hmem⟩
    · rintro ⟨hv, key, hmem⟩
      exact ⟨v, ⟨(key, v), hmem, rfl⟩, rfl, hv⟩
  · rw [Option.mem_toList, Json.nonNull?_eq_some_iff, and_comm]

theorem Accepted.wellFormed {f : Field} (h : f.Accepted) : f.WellFormed := by
  obtain ⟨d, key, label, hkey, hlabel, hfits, hwhole, hf⟩ := h.exists_declared
  generalize f.kind = k at hfits hwhole hf
  subst hf
  obtain ⟨hbounds, hstep, hshape, hchoice⟩ := Declared.problem?_eq_none_iff.1 hwhole
  have hrule {r : Rule} (hr : r ∈ d.rules) :=
    ruleProblem?_eq_none_iff.1 (hfits.templates.rules r hr)
  exact {
    key := Path.isKey_iff.1 hkey
    label := hlabel
    unit := fun h => Kind.takesUnit_iff.1 (hfits.unit h)
    min := fun h => Kind.takesBounds_iff.1 (hfits.min h)
    max := fun h => Kind.takesBounds_iff.1 (hfits.max h)
    step := fun h => Kind.takesBounds_iff.1 (hfits.step h)
    bounds := hbounds
    upwards := hstep
    options := fun h => Kind.isChoice_iff.1 (hfits.options h)
    responsive := hfits.responsive
    structured := fun hk => List.eq_nil_iff_forall_not_mem.2 fun r hr =>
      Bool.false_ne_true ((hrule hr).1.symm.trans hk)
    selectors := fun r hr => (hrule hr).2.1
    declared := fun selector body hr => (hrule hr).2.2.1 body rfl
    composed := fun selectors hr => (hrule hr).2.2.2 rfl
    classTemplate := fun t ht => markupProblem?_eq_none_iff.1 (hfits.templates.classTemplate t ht)
    styleTemplate := fun t ht => markupProblem?_eq_none_iff.1 (hfits.templates.styleTemplate t ht)
    axis := by
      change (if k = .alignment then some d.axis else none).isSome = true ↔ k = .alignment
      split <;> simp_all
    default := fun v hv => hshape v (Declared.mem_defaults_iff.2 hv)
    choice := fun hk v hv => hchoice hk v (Declared.mem_defaults_iff.2 hv) }

/-! ### Well-formed fields are accepted -/

/-- The declarations of the parts of a field. -/
def declarations (f : Field) : Declared where
  key := some f.key
  label := some f.label
  description := f.description
  default := f.default
  unit := f.unit
  min := f.min
  max := f.max
  step := f.step
  options := f.options
  responsive := f.responsive
  condition := f.condition
  rules := f.rules
  axis := f.axis.getD .text
  classTemplate := f.classTemplate
  styleTemplate := f.styleTemplate

theorem toField_declarations {f : Field} (h : f.axis.isSome = true ↔ f.kind = .alignment) :
    f.declarations.toField f.kind f.key f.label = f := by
  have haxis : (if f.kind = .alignment then some (f.axis.getD .text) else none) = f.axis := by
    cases haxis : f.axis with
    | none => simp_all
    | some a => simp_all
  rw [Declared.toField, declarations, haxis]

namespace Declared

/-- Attributes that are no problem for the kind declare this. -/
def Made (k : Kind) (d : Declared) : Prop :=
  ∃ attributes : List Attribute, (∀ a ∈ attributes, a.problem? k = none) ∧
    ofAttributes attributes = d

variable {k : Kind} {d : Declared}

/-- One more attribute can be given at the end. -/
theorem Made.add (h : Made k d) {a : Attribute} (ha : a.problem? k = none) :
    Made k (d.add a) := by
  obtain ⟨attributes, hattributes, rfl⟩ := h
  refine ⟨attributes ++ [a], fun a' ha' => ?_, ?_⟩
  · rcases List.mem_append.1 ha' with h | h
    · exact hattributes a' h
    · rwa [List.mem_singleton.1 h]
  · rw [ofAttributes, List.foldl_append]
    rfl

/-- An optional part can be given at the end, or left out. -/
theorem Made.option {α : Type} (h : Made k d) (make : α → Attribute) (part : Option α)
    (declare : Declared → Option α → Declared) (hnone : declare d none = d)
    (hmake : ∀ x, d.add (make x) = declare d (some x))
    (hpart : ∀ x, part = some x → (make x).problem? k = none) : Made k (declare d part) := by
  cases part with
  | none => rwa [hnone]
  | some x =>
    rw [← hmake]
    exact h.add (hpart x rfl)

end Declared

namespace WellFormed

variable {f : Field} (h : f.WellFormed)

include h

/-- The rules of a well-formed field have no problem. -/
theorem ruleProblem?_eq_none {r : Rule} (hr : r ∈ f.rules) : ruleProblem? f.kind r = none := by
  refine ruleProblem?_eq_none_iff.2 ⟨?_, h.selectors r hr, fun body hbody => ?_, fun hbody => ?_⟩
  · refine Bool.of_not_eq_true fun hk => ?_
    rw [h.structured hk] at hr
    cases hr
  · cases r with
    | declared selector body' =>
      cases hbody
      exact h.declared selector _ hr
    | composed selectors => cases hbody
  · cases r with
    | declared selector body => cases hbody
    | composed selectors => exact h.composed selectors hr

/-- The parts of a well-formed field can be given one by one. -/
theorem made : Declared.Made f.kind f.declarations := by
  have hunit x (hx : f.unit = some x) : (Attribute.unit x).problem? f.kind = none := by
    simp [Attribute.problem?, Kind.takesUnit_iff.2 (h.unit (by simp [hx]))]
  have hmin x (hx : f.min = some x) : (Attribute.min x).problem? f.kind = none := by
    simp [Attribute.problem?, Kind.takesBounds_iff.2 (h.min (by simp [hx]))]
  have hmax x (hx : f.max = some x) : (Attribute.max x).problem? f.kind = none := by
    simp [Attribute.problem?, Kind.takesBounds_iff.2 (h.max (by simp [hx]))]
  have hstep x (hx : f.step = some x) : (Attribute.step x).problem? f.kind = none := by
    simp [Attribute.problem?, Kind.takesBounds_iff.2 (h.step (by simp [hx]))]
  have hclass t (ht : f.classTemplate = some t) :
      (Attribute.classTemplate t).problem? f.kind = none :=
    markupProblem?_eq_none_iff.2 (h.classTemplate t ht)
  have hstyle t (ht : f.styleTemplate = some t) :
      (Attribute.styleTemplate t).problem? f.kind = none :=
    markupProblem?_eq_none_iff.2 (h.styleTemplate t ht)
  have haxis a (ha : f.axis = some a) : (Attribute.axis a).problem? f.kind = none := by
    simp [Attribute.problem?, h.axis.1 (by simp [ha])]
  have hoptions (hne : f.options ≠ []) : (Attribute.options f.options).problem? f.kind = none := by
    simp [Attribute.problem?, Kind.isChoice_iff.2 (h.options hne)]
  have hresponsive : (Attribute.responsive f.responsive).problem? f.kind = none := by
    cases hb : f.responsive <;> simp [Attribute.problem?, h.responsive, hb]
  have hrules : (Attribute.rules f.rules).problem? f.kind = none :=
    List.findSome?_eq_none_iff.2 fun r hr => h.ruleProblem?_eq_none hr
  -- Every field has these parts, the others are given one after the other.
  have hmade : Declared.Made f.kind { Declared.nothing with
      key := some f.key, label := some f.label, default := f.default,
      responsive := f.responsive, rules := f.rules } :=
    ⟨[.key f.key, .label f.label, .default f.default, .responsive f.responsive, .rules f.rules],
      by simp only [List.forall_mem_cons, hresponsive, hrules]; simp [Attribute.problem?], rfl⟩
  replace hmade : Declared.Made f.kind { Declared.nothing with
      key := some f.key, label := some f.label, default := f.default, options := f.options,
      responsive := f.responsive, rules := f.rules } := by
    by_cases hnil : f.options = []
    · rwa [hnil]
    · exact hmade.add (hoptions hnil)
  exact hmade
    |>.option .description f.description (fun d x => { d with description := x }) rfl
      (fun _ => rfl) (fun _ _ => rfl)
    |>.option .unit f.unit (fun d x => { d with unit := x }) rfl (fun _ => rfl) hunit
    |>.option .min f.min (fun d x => { d with min := x }) rfl (fun _ => rfl) hmin
    |>.option .max f.max (fun d x => { d with max := x }) rfl (fun _ => rfl) hmax
    |>.option .step f.step (fun d x => { d with step := x }) rfl (fun _ => rfl) hstep
    |>.option .condition f.condition (fun d x => { d with condition := x }) rfl
      (fun _ => rfl) (fun _ _ => rfl)
    |>.option .axis f.axis (fun d x => { d with axis := x.getD .text }) rfl (fun _ => rfl) haxis
    |>.option .classTemplate f.classTemplate (fun d x => { d with classTemplate := x }) rfl
      (fun _ => rfl) hclass
    |>.option .styleTemplate f.styleTemplate (fun d x => { d with styleTemplate := x }) rfl
      (fun _ => rfl) hstyle

/-- The parts of a well-formed field have no problem as a whole. -/
theorem problem?_eq_none : f.declarations.problem? f.kind = none := by
  have hdefault {v : Json} (hv : v ∈ f.declarations.defaults) : f.HasDefault v := by
    rw [← toField_declarations h.axis]
    exact Declared.mem_defaults_iff.1 hv
  exact Declared.problem?_eq_none_iff.2 ⟨h.bounds, h.upwards, fun v hv => h.default v (hdefault hv),
    fun hk v hv => h.choice hk v (hdefault hv)⟩

theorem accepted : f.Accepted := by
  obtain ⟨attributes, hattributes, hdeclared⟩ := h.made
  refine ⟨f.kind.name, attributes, ?_⟩
  rw [ofAttributes, Kind.ofName?_name]
  have hkey : nonEmpty? f.declarations.key = some f.key := by
    simp [nonEmpty?, declarations, h.key.1]
  have hlabel : nonEmpty? f.declarations.label = some f.label := by
    simp [nonEmpty?, declarations, h.label]
  have hnone : (attributes.findSome? (Attribute.problem? f.kind) <|>
      f.declarations.problem? f.kind) = none := by
    rw [List.findSome?_eq_none_iff.2 hattributes, h.problem?_eq_none]
    rfl
  simp only [ofKind, hdeclared, hkey, hlabel, hnone, Path.isKey_iff.2 h.key, Bool.not_true,
    Bool.false_eq_true, if_false, toField_declarations h.axis]

end WellFormed

/-- A field is made by some list of attributes, of whatever length, order and
    repetition, exactly when its parts go together. -/
theorem accepted_iff_wellFormed (f : Field) :
    (∃ kindName attributes, ofAttributes kindName attributes = .ok f) ↔ f.WellFormed :=
  ⟨Accepted.wellFormed, WellFormed.accepted⟩

end Field

end ScopedStyle
