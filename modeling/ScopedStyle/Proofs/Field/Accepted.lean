import ScopedStyle.Field.Attribute

/-!
# Accepted fields

A field is *accepted* when some list of attributes makes it. Making a field
fails at the first problem, so an accepted one has a key and a label, none of
its attributes has a problem by itself, and what they declare together has none
either (`Field.ofAttributes_eq_ok`).

A problem of an attribute is not forgotten when a later attribute replaces it.
What an accepted field declares hence keeps every rule that the attributes are
checked against (`Field.Declared.fits_ofAttributes`): only choices have options
(`Field.Accepted.options_eq_nil`), selectors have no placeholder but that of the
wrapper, and declarations have only those that the kind has tokens for
(`Field.Accepted.mem_tokenNames`).
-/

namespace ScopedStyle

/-- The declaration of a rule, if it has one. -/
def Rule.body? : Rule → Option Template
  | .declared _ body => some body
  | .composed _ => none

namespace Field

/-- Some list of attributes makes the field. -/
def Accepted (f : Field) : Prop :=
  ∃ kindName attributes, ofAttributes kindName attributes = .ok f

theorem nonEmpty?_eq_some {s : Option String} {text : String} (h : nonEmpty? s = some text) :
    s = some text ∧ text ≠ "" := by
  simpa [nonEmpty?, Option.filter_eq_some_iff] using h

/-- All that the making of a field of a kind has checked. -/
theorem ofKind_eq_ok {k : Kind} {attributes : List Attribute} {f : Field}
    (h : ofKind k attributes = .ok f) :
    ∃ key label, Path.isKey key = true ∧ label ≠ "" ∧
      (∀ a ∈ attributes, a.problem? k = none) ∧
      (Declared.ofAttributes attributes).problem? k = none ∧
      f = (Declared.ofAttributes attributes).toField k key label := by
  cases hkey : nonEmpty? (Declared.ofAttributes attributes).key with
  | none => simp [ofKind, hkey] at h
  | some key =>
    simp only [ofKind, hkey] at h
    split at h
    · cases h
    rename_i hisKey
    cases hlabel : nonEmpty? (Declared.ofAttributes attributes).label with
    | none => simp [hlabel] at h
    | some label =>
      simp only [hlabel] at h
      split at h
      · cases h
      -- Neither an attribute nor the whole has a problem.
      rename_i hnone
      rw [Option.orElse_eq_orElse, Option.orElse_eq_or, Option.or_eq_none_iff] at hnone
      obtain ⟨hattributes, hwhole⟩ := hnone
      exact ⟨key, label, by simpa using hisKey, (nonEmpty?_eq_some hlabel).2,
        List.findSome?_eq_none_iff.1 hattributes, hwhole, (Except.ok.inj h).symm⟩

/-- All that the making of a field has checked. -/
theorem ofAttributes_eq_ok {kindName : String} {attributes : List Attribute} {f : Field}
    (h : ofAttributes kindName attributes = .ok f) :
    ∃ k key label, Path.isKey key = true ∧ label ≠ "" ∧
      (∀ a ∈ attributes, a.problem? k = none) ∧
      (Declared.ofAttributes attributes).problem? k = none ∧
      f = (Declared.ofAttributes attributes).toField k key label := by
  rw [ofAttributes] at h
  cases hk : Kind.ofName? kindName with
  | none => simp [hk] at h
  | some k =>
    rw [hk] at h
    exact ⟨k, ofKind_eq_ok h⟩

/-- Attributes that make a field, found by making it. -/
theorem exists_of_any (kindName : String) (attributes : List Attribute) (q : Field → Bool)
    (h : (ofAttributes kindName attributes).toOption.any q = true) :
    ∃ f, ofAttributes kindName attributes = .ok f ∧ q f = true := by
  cases hf : ofAttributes kindName attributes with
  | error e => simp [hf, Except.toOption] at h
  | ok f =>
    rw [hf] at h
    exact ⟨f, rfl, h⟩

/-! ### What problem-free attributes declare -/

/-- None of the rules and templates has a problem in a field of the kind. -/
structure TemplatesFit (k : Kind) (rules : List Rule)
    (classTemplate styleTemplate : Option Template) : Prop where
  rules : ∀ r ∈ rules, ruleProblem? k r = none
  classTemplate : ∀ t, classTemplate = some t → markupProblem? k "class" t = none
  styleTemplate : ∀ t, styleTemplate = some t → markupProblem? k "style" t = none

namespace Declared

/-- A field of the kind may have all that is declared one by one. -/
structure Fits (k : Kind) (d : Declared) : Prop where
  unit : d.unit.isSome = true → k.takesUnit = true
  min : d.min.isSome = true → k.takesBounds = true
  max : d.max.isSome = true → k.takesBounds = true
  step : d.step.isSome = true → k.takesBounds = true
  options : d.options ≠ [] → k.isChoice = true
  responsive : d.responsive = true → k.isStructured = false
  templates : TemplatesFit k d.rules d.classTemplate d.styleTemplate

variable {k : Kind} {attributes : List Attribute}

theorem fits_nothing : Fits k nothing where
  unit := nofun
  min := nofun
  max := nofun
  step := nofun
  options h := absurd rfl h
  responsive := nofun
  templates := ⟨nofun, nofun, nofun⟩

/-- One more attribute without a problem changes only its own part. -/
theorem Fits.add {d : Declared} (hd : d.Fits k) {a : Attribute} (ha : a.problem? k = none) :
    (d.add a).Fits k := by
  cases a with
  | unit s => exact { hd with unit := fun _ => by simpa [Attribute.problem?] using ha }
  | min x => exact { hd with min := fun _ => by simpa [Attribute.problem?] using ha }
  | max x => exact { hd with max := fun _ => by simpa [Attribute.problem?] using ha }
  | step x => exact { hd with step := fun _ => by simpa [Attribute.problem?] using ha }
  | options choices => exact { hd with options := fun _ => by simpa [Attribute.problem?] using ha }
  | responsive b =>
    refine { hd with responsive := fun hb => ?_ }
    cases hb
    simpa [Attribute.problem?] using ha
  | rule r =>
    refine { hd with templates := { hd.templates with rules := fun r' hr' => ?_ } }
    rcases List.mem_append.1 hr' with hr' | hr'
    · exact hd.templates.rules r' hr'
    · rwa [List.mem_singleton.1 hr']
  | rules rs =>
    exact { hd with templates := { hd.templates with rules := List.findSome?_eq_none_iff.1 ha } }
  | classTemplate t =>
    refine { hd with templates := { hd.templates with classTemplate := fun t' ht' => ?_ } }
    cases ht'
    exact ha
  | styleTemplate t =>
    refine { hd with templates := { hd.templates with styleTemplate := fun t' ht' => ?_ } }
    cases ht'
    exact ha
  | _ => exact { hd with }

/-- A field of the kind may have all that attributes without problems declare. -/
theorem fits_ofAttributes (h : ∀ a ∈ attributes, a.problem? k = none) :
    (ofAttributes attributes).Fits k :=
  List.foldlRecOn attributes add fits_nothing fun _ hd a ha => hd.add (h a ha)

end Declared

/-! ### Problem-free templates -/

/-- The templates of a field that the tokens of its value are put into. -/
def tokenTemplates (f : Field) : List Template :=
  f.rules.filterMap Rule.body? ++ (f.classTemplate.toList ++ f.styleTemplate.toList)

/-- A template has no strange token when the kind names all of its own. -/
theorem strangeToken?_eq_none_iff {k : Kind} {t : Template} :
    strangeToken? k t = none ↔ ∀ name ∈ t.placeholders, name ∈ k.tokenNames := by
  simp [strangeToken?]

/-- A selector may have the placeholder of the wrapper alone. -/
theorem strangeSelector?_eq_none_iff {t : Template} :
    strangeSelector? t = none ↔ ∀ name ∈ t.placeholders, name = Placeholder.wrapper := by
  simp [strangeSelector?]

/-- A rule has no problem in a field that may have rules when its selectors have
    the placeholder of the wrapper alone, and it is of the sort that the kind
    needs: with a declaration that uses tokens, or without one. -/
theorem ruleProblem?_eq_none_iff {k : Kind} {r : Rule} :
    ruleProblem? k r = none ↔ k.isStructured = false ∧
      (∀ selector ∈ r.selectors, ∀ name ∈ selector.placeholders, name = Placeholder.wrapper) ∧
      (∀ body, r.body? = some body →
        k.tokenNames ≠ [] ∧ ∀ name ∈ body.placeholders, name ∈ k.tokenNames) ∧
      (r.body? = none → k.isComposite = true) := by
  rw [ruleProblem?.eq_def]
  cases k.isStructured with
  | true => simp
  | false =>
    simp only [Bool.false_eq_true, if_false, true_and, Option.orElse_eq_orElse,
      Option.orElse_eq_or, Option.or_eq_none_iff, List.findSome?_eq_none_iff,
      strangeSelector?_eq_none_iff]
    refine and_congr_right fun _ => ?_
    cases r with
    | declared selector body =>
      cases hnames : k.tokenNames with
      | nil => simp [Rule.body?]
      | cons name names => simp [Rule.body?, strangeToken?_eq_none_iff, hnames]
    | composed selectors => simp [Rule.body?]

/-- A template for the markup has no problem in a field that takes part in the
    markup when the kind names all of its tokens. -/
theorem markupProblem?_eq_none_iff {k : Kind} {markup : String} {t : Template} :
    markupProblem? k markup t = none ↔
      k.takesAttributes = true ∧ ∀ name ∈ t.placeholders, name ∈ k.tokenNames := by
  rw [markupProblem?]
  cases k.takesAttributes <;> simp [strangeToken?_eq_none_iff]

/-! ### The whole -/

/-- The declarations have no problem as a whole when the bounds do not cross, the
    step leads upwards, and every default value has the shape of the kind and is
    one of the options where there is a choice. -/
theorem Declared.problem?_eq_none_iff {d : Declared} {k : Kind} :
    d.problem? k = none ↔
      (∀ min max, d.min = some min → d.max = some max → max.below min = false) ∧
      (∀ x, d.step = some x → x.below .zero = false ∧ x.same .zero = false) ∧
      (∀ v ∈ d.defaults, k.accepts v = true) ∧
      (k.isChoice = true → ∀ v ∈ d.defaults, choiceAllowed k d.options (choiceOf v) = true) := by
  have hbounds : d.boundsProblem? = none ↔
      ∀ min max, d.min = some min → d.max = some max → max.below min = false := by
    rw [boundsProblem?]
    cases d.min <;> cases d.max <;> simp
  have hstep : d.stepProblem? = none ↔
      ∀ x, d.step = some x → x.below .zero = false ∧ x.same .zero = false := by
    rw [stepProblem?]
    cases d.step <;> simp
  have hshape : d.shapeProblem? k = none ↔ ∀ v ∈ d.defaults, k.accepts v = true := by
    simp [shapeProblem?]
  have hchoice : d.choiceProblem? k = none ↔ (k.isChoice = true →
      ∀ v ∈ d.defaults, choiceAllowed k d.options (choiceOf v) = true) := by
    rw [choiceProblem?]
    cases k.isChoice <;> simp
  simp only [problem?, Option.orElse_eq_orElse, Option.orElse_eq_or, Option.or_eq_none_iff, hbounds,
    hstep, hshape, hchoice]

/-! ### Accepted fields -/

namespace Accepted

variable {f : Field}

/-- All that is known of an accepted field: its key and label, and that what its
    attributes declare has been checked, one by one and as a whole. -/
theorem exists_declared (h : f.Accepted) :
    ∃ d key label, Path.isKey key = true ∧ label ≠ "" ∧ Declared.Fits f.kind d ∧
      d.problem? f.kind = none ∧ f = d.toField f.kind key label := by
  obtain ⟨_, _, h⟩ := h
  obtain ⟨k, key, label, hkey, hlabel, hattributes, hwhole, rfl⟩ := ofAttributes_eq_ok h
  exact ⟨_, key, label, hkey, hlabel, Declared.fits_ofAttributes hattributes, hwhole, rfl⟩

theorem isKey (h : f.Accepted) : Path.isKey f.key = true := by
  obtain ⟨_, _, _, hkey, _, _, _, hf⟩ := h.exists_declared
  rw [hf]
  exact hkey

/-- Only choices have options. -/
theorem options_eq_nil (h : f.Accepted) (hk : f.kind.isChoice = false) : f.options = [] := by
  obtain ⟨d, _, _, _, _, hfits, _, hf⟩ := h.exists_declared
  rw [hf]
  refine Decidable.byContradiction fun hne => ?_
  simp [hfits.options hne] at hk

theorem templatesFit (h : f.Accepted) :
    TemplatesFit f.kind f.rules f.classTemplate f.styleTemplate := by
  obtain ⟨_, _, _, _, _, hfits, _, hf⟩ := h.exists_declared
  rw [hf]
  exact hfits.templates

/-- Selectors have no placeholder but that of the wrapper. -/
theorem selector_placeholder_eq (h : f.Accepted) {r : Rule} (hr : r ∈ f.rules) {selector : Template}
    (hselector : selector ∈ r.selectors) {name : String} (hname : name ∈ selector.placeholders) :
    name = Placeholder.wrapper :=
  (ruleProblem?_eq_none_iff.1 (h.templatesFit.rules r hr)).2.1 selector hselector name hname

/-- Declarations have only placeholders that the kind has tokens for. -/
theorem mem_tokenNames (h : f.Accepted) {t : Template} (ht : t ∈ f.tokenTemplates)
    {name : String} (hname : name ∈ t.placeholders) : name ∈ f.kind.tokenNames := by
  obtain ⟨hrules, hclass, hstyle⟩ := h.templatesFit
  rcases List.mem_append.1 ht with ht | ht
  · obtain ⟨r, hr, hbody⟩ := List.mem_filterMap.1 ht
    exact ((ruleProblem?_eq_none_iff.1 (hrules r hr)).2.2.1 t hbody).2 name hname
  · rcases List.mem_append.1 ht with ht | ht
    · exact (markupProblem?_eq_none_iff.1 (hclass t (Option.mem_toList.1 ht))).2 name hname
    · exact (markupProblem?_eq_none_iff.1 (hstyle t (Option.mem_toList.1 ht))).2 name hname

end Accepted

end Field

end ScopedStyle
