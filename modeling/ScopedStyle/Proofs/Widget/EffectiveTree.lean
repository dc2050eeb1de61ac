import ScopedStyle.Proofs.Schema.Gating
import ScopedStyle.Proofs.Style.StoredDefault
import ScopedStyle.Proofs.Value.Tokens
import ScopedStyle.Widget.Instance

/-!
# Trees of effective values

The effective values of all fields, stored one after the other, make a tree of
their own (`Schema.effectiveTree`). The paths of the fields are apart, so no
value is written over another, and the tree stores the effective value of every
field (`Schema.WellFormed.get?_effectiveTree`). Read as settings it has the same
effective values again, so filling in the defaults a second time changes nothing
(`Schema.WellFormed.sameEffective_effectiveTree`).

The markup is made from the stored values and not from the effective ones. But a
stored value that conditions cannot use is none that resolution takes either,
and a field contributes then what its default does
(`Field.Accepted.contribution?_of_canUse_eq_false`). Hence an instance looks the
same with its defaults filled in (`Instance.fillDefaults_unchanged`).
-/

namespace ScopedStyle

/-! ### Storing values for many fields -/

namespace Tree

/-- The tree with a value stored at a path, if there is one. -/
def store (t : Tree) (p : Path) : Option Json → Tree
  | some value => t.put p value
  | none => t

/-- The tree with a value stored for each of the fields that has one. -/
def storeAll (t : Tree) (es : List Entry) (values : Path → Option Json) : Tree :=
  es.foldl (fun t e => t.store e.path (values e.path)) t

variable (t : Tree) {p q : Path} {es : List Entry} {values values' : Path → Option Json}

/-- No value is stored in the empty tree. -/
theorem get?_empty (e : Entry) : empty.get? e.path = none := by
  obtain ⟨⟨segments⟩, f⟩ := e
  cases segments <;> rfl

theorem get?_store_self {value? : Option Json} (h : ∀ v, value? = some v → v.nonNull? = some v) :
    (t.store p value?).get? p = value?.or (t.get? p) := by
  cases value? with
  | none => rfl
  | some v => exact (t.get?_put_self p v).trans (h v rfl)

theorem get?_store_of_apart (h : p.Apart q) (value? : Option Json) :
    (t.store p value?).get? q = t.get? q := by
  cases value? with
  | none => rfl
  | some v => exact t.get?_put_of_apart h v

/-- What is stored apart from all the fields stays. -/
theorem get?_storeAll_of_apart (h : ∀ e ∈ es, e.path.Apart q) :
    (t.storeAll es values).get? q = t.get? q := by
  induction es generalizing t with
  | nil => rfl
  | cons e es ih =>
    obtain ⟨he, hes⟩ := List.forall_mem_cons.1 h
    exact (ih _ hes).trans (t.get?_store_of_apart he _)

/-- Fields with paths that are apart get a value each. -/
theorem get?_storeAll (hes : es.Pairwise fun e₁ e₂ => e₁.path.Apart e₂.path)
    (hvalues : ∀ p v, values p = some v → v.nonNull? = some v) {e : Entry} (he : e ∈ es) :
    (t.storeAll es values).get? e.path = (values e.path).or (t.get? e.path) := by
  induction es generalizing t with
  | nil => cases he
  | cons first rest ih =>
    obtain ⟨hfirst, hrest⟩ := List.pairwise_cons.1 hes
    rcases List.mem_cons.1 he with rfl | he
    · -- What is stored first stays while the others are stored.
      exact (get?_storeAll_of_apart _ fun e' he' => (hfirst e' he').symm).trans
        (t.get?_store_self (hvalues _))
    · rw [← t.get?_store_of_apart (hfirst e he) (values first.path)]
      exact ih _ hrest he

theorem storeAll_congr (h : ∀ e ∈ es, values e.path = values' e.path) :
    t.storeAll es values = t.storeAll es values' :=
  List.foldl_ext _ _ _ fun _ e he => by rw [h e he]

end Tree

/-! ### Effective values -/

namespace Schema

/-- The effective values of all fields as a tree. -/
def effectiveTree (s : Schema) (t : Tree) : Tree :=
  Tree.empty.storeAll s.entries (s.effective? t)

variable {s : Schema} {t : Tree} {p : Path} {f : Field}

namespace WellFormed

variable (hs : s.WellFormed)

include hs

/-- The tree of effective values stores that of every field. -/
theorem get?_effectiveTree (hf : s.field? p = some f) :
    (s.effectiveTree t).get? p = s.effective? t p := by
  obtain ⟨e, he, rfl, rfl⟩ := exists_mem_of_field? hf
  rw [effectiveTree, Tree.get?_storeAll _ hs.pairwise_apart (fun _ _ => nonNull?_effective) he,
    Tree.get?_empty, Option.or_none]

/-- With the defaults filled in the effective values are as before. -/
theorem sameEffective_effectiveTree (t : Tree) : s.SameEffective (s.effectiveTree t) t := by
  intro p f hf
  have hget := hs.get?_effectiveTree (t := t) hf
  rcases effective?_cases (t := t) hf with ⟨v, _, hcan, heffective⟩ | ⟨_, heffective⟩
  · rw [heffective] at hget ⊢
    rw [effective?, hf, hget]
    exact if_pos hcan
  · rw [heffective] at hget ⊢
    exact effective?_of_get?_eq_default hf hget

theorem effectiveTree_effectiveTree (t : Tree) :
    s.effectiveTree (s.effectiveTree t) = s.effectiveTree t :=
  Tree.storeAll_congr _ fun e he =>
    hs.sameEffective_effectiveTree t e.path e.field (hs.field?_of_mem he)

/-- A condition holds over the filled tree as over the effective values, if all
    its clauses are about fields. -/
theorem holds_source_effectiveTree {c : Condition} {group : Path}
    (h : ∀ clause ∈ c.clauses, ∃ f, s.field? (clause.target group) = some f) :
    c.holds (s.effectiveTree t).source group = c.holds (s.source t) group := by
  refine c.holds_congr fun clause hclause => ?_
  obtain ⟨f, hf⟩ := h clause hclause
  have hfield : (s.source t).hasField (clause.target group) = true :=
    Option.isSome_iff_exists.2 ⟨f, hf⟩
  exact ⟨hfield.symm, fun _ => hs.get?_effectiveTree hf⟩

end WellFormed

end Schema

/-! ### Contributions to the markup -/

namespace Field

variable {f : Field} {v : Json}

/-- A field without a value does not contribute. -/
theorem contributes_unset (f : Field) : Markup.contributes f (Scalar.unset f) = false := by
  rw [Markup.contributes, Scalar.unset, Resolved.ofTokens, Scalar.get?_value_tokens]
  split <;> rfl

/-- Without a stored value that resolution takes, a field contributes what its
    default does. -/
theorem contribution?_eq_default {stored : Option Json}
    (h : ∀ v, stored = some v → ¬f.TakesDesktop v) : f.contribution? stored =
      ((Responsive.desktopEntry? f.default).bind f.resolve?).filter (Markup.contributes f) := by
  have hrefused : ∀ entry, (stored.bind Responsive.desktopOf?).bind Json.nonNull? = some entry →
      f.resolve? entry = none := by
    intro entry hentry
    rw [Option.bind_assoc] at hentry
    obtain ⟨v, hv, hentry⟩ := Option.bind_eq_some_iff.1 hentry
    exact resolve?_eq_none_of_not_takesDesktop (h v hv) hentry
  rw [contribution?, resolveDesktop?]
  cases hr : f.resolve (stored.bind Responsive.desktopOf?) (Responsive.desktopOf? f.default) with
  | ok r =>
    rcases resolve_eq_ok_iff.1 hr with ⟨entry, hentry, hused⟩ | ⟨-, d, hd, hused⟩ | ⟨-, hd, hunset⟩
    · rw [hrefused entry hentry] at hused
      cases hused
    · rw [Responsive.desktopEntry?, hd, Option.bind_some, hused]
    · -- A missing value may be the empty text, which does not contribute.
      obtain ⟨-, rfl⟩ := resolveUnset_eq_ok hunset
      rw [Responsive.desktopEntry?, hd, Option.filter_some, if_neg]
      · rfl
      · simp [f.contributes_unset]
  | error e =>
    cases hd : Responsive.desktopEntry? f.default with
    | none => rfl
    | some d =>
      cases hused : f.resolve? d with
      | none => rw [Option.bind_some, hused]
      | some r =>
        rw [resolve_eq_ok_iff.2 (.inr (.inl ⟨hrefused, d, hd, hused⟩))] at hr
        cases hr

/-- A value that resolution does not take leaves it to the default what the
    field contributes. -/
theorem contribution?_of_not_takesDesktop (h : ¬f.TakesDesktop v) :
    f.contribution? (some v) = f.contribution? none := by
  rw [contribution?_eq_default, contribution?_eq_default]
  · nofun
  · rintro _ ⟨⟩
    exact h

/-- Conditions can use whatever resolution takes. -/
theorem Accepted.contribution?_of_canUse_eq_false (hf : f.Accepted) (h : f.canUse v = false) :
    f.contribution? (some v) = f.contribution? none :=
  contribution?_of_not_takesDesktop (hf.not_takesDesktop_of_canUse h)

end Field

namespace Schema

variable {s : Schema} (hs : s.WellFormed) (t : Tree)

include hs

/-- A field contributes the same to the markup with the defaults filled in. -/
theorem WellFormed.contribution?_effectiveTree {e : Entry} (he : e ∈ s.entries) :
    e.field.contribution? ((s.effectiveTree t).get? e.path) =
      e.field.contribution? (t.get? e.path) := by
  have hf := hs.field?_of_mem he
  rw [hs.get?_effectiveTree hf]
  rcases effective?_cases (t := t) hf with ⟨v, hv, _, heffective⟩ | ⟨hcannot, heffective⟩
  · rw [heffective, hv]
  · rw [heffective, e.field.contribution?_default]
    cases hstored : t.get? e.path with
    | none => rfl
    | some v => exact ((hs.accepted he).contribution?_of_canUse_eq_false (hcannot v hstored)).symm

theorem WellFormed.markupTexts_effectiveTree (templateOf : Field → Option Template) :
    s.markupTexts (s.effectiveTree t) templateOf = s.markupTexts t templateOf :=
  markupTexts_congr (hs.sameEffective_effectiveTree t)
    (fun _ he => hs.contribution?_effectiveTree t he) templateOf

end Schema

/-! ### Instances -/

namespace Instance

/-- The instance with the defaults filled in to its general settings. -/
def fillDefaults (i : Instance) : Instance :=
  { i with settings := { i.settings with general := i.effectiveGeneral } }

theorem effectiveGeneral_eq (i : Instance) :
    i.effectiveGeneral = i.general.effectiveTree i.settings.general := by
  refine List.foldl_ext _ _ _ fun t e _ => ?_
  cases i.general.effective? i.settings.general e.path <;> rfl

theorem settings_fillDefaults (i : Instance) :
    i.fillDefaults.settings.general = i.general.effectiveTree i.settings.general :=
  i.effectiveGeneral_eq

/-- Filling in the defaults of the general settings stores the effective value
    of every field, and a second time changes nothing. Every condition holds as
    before, over the effective values and, if it is about fields alone, over the
    stored ones as well. The attributes of the element are as before, and so is
    the setting of every field as a text and as a switch. -/
theorem fillDefaults_unchanged {c : Category} {steps : List Schema.Step} {i : Instance}
    (h : Schema.ofSteps c steps = .ok i.general) :
    (∀ p f, i.general.field? p = some f →
      i.effectiveGeneral.get? p = i.general.effective? i.settings.general p) ∧
    i.fillDefaults.effectiveGeneral = i.effectiveGeneral ∧
    (∀ (condition : Condition) (group : Path),
      condition.holds (i.general.source i.effectiveGeneral) group =
        condition.holds (i.general.source i.settings.general) group ∧
      ((∀ clause ∈ condition.clauses, ∃ f, i.general.field? (clause.target group) = some f) →
        condition.holds i.effectiveGeneral.source group =
          condition.holds (i.general.source i.settings.general) group)) ∧
    i.fillDefaults.cssClasses = i.cssClasses ∧
    i.fillDefaults.styleAttribute = i.styleAttribute ∧
    ∀ path f, i.general.field? (.ofText path) = some f →
      i.fillDefaults.text path = i.text path ∧ i.fillDefaults.flag path = i.flag path := by
  have hs := Schema.ofSteps_wellFormed h
  have heffective := hs.sameEffective_effectiveTree i.settings.general
  have hmarkup (templateOf : Field → Option Template) :
      i.fillDefaults.general.markupTexts i.fillDefaults.settings.general templateOf =
        i.general.markupTexts i.settings.general templateOf := by
    rw [settings_fillDefaults]
    exact hs.markupTexts_effectiveTree _ _
  rw [i.effectiveGeneral_eq]
  refine ⟨fun p f hf => hs.get?_effectiveTree hf, ?_,
    fun condition group => ⟨?_, fun hfields => ?_⟩, ?_, ?_, fun path f hf => ?_⟩
  · rw [effectiveGeneral_eq, settings_fillDefaults]
    exact hs.effectiveTree_effectiveTree _
  · exact condition.holds_congr fun clause _ => heffective.agree.agreeAt (clause.target group)
  · exact hs.holds_source_effectiveTree hfields
  · rw [cssClasses, cssClasses, Schema.cssClasses, Schema.cssClasses, hmarkup]
  · rw [styleAttribute, styleAttribute, Schema.styleAttribute, Schema.styleAttribute, hmarkup]
  · have hvalue : i.fillDefaults.value? path = i.value? path := by
      rw [value?, value?, settings_fillDefaults]
      exact congrArg (Option.bind · Responsive.desktopOf?) (heffective _ f hf)
    rw [text, text, flag, flag, hvalue]
    exact ⟨rfl, rfl⟩

/-- A size to choose and a title that varies by breakpoint. -/
def cardSteps : List Schema.Step :=
  [.openGroup "look" "Look",
    .field "select" [.key "size", .label "Size",
      .options [⟨"small", "Small"⟩, ⟨"large", "Large"⟩], .default (.str "small"),
      .classTemplate ⟨"size-\x7b\x7bVALUE\x7d\x7d"⟩],
    .field "text" [.key "title", .label "Title", .default (.str "Hi"), .responsive true]]

/-- A card with a size that is no option and a title for phones alone. -/
def cardOf (s : Schema) : Instance where
  id := "card"
  settings.general := ⟨.obj [("look",
    .obj [("size", .str "huge"), ("title", .obj [("mobile", .str "Yo")])])]⟩
  settings.style := .empty
  general := s
  style := .empty .style

/-- Both settings of such a card are filled in with their defaults, and the card
    looks the same. -/
theorem cardOf_fillDefaults : ∃ s, Schema.ofSteps .general cardSteps = .ok s ∧
    (cardOf s).effectiveGeneral.toText =
      "\x7b\"look\":\x7b\"size\":\"small\",\"title\":\"Hi\"\x7d\x7d" ∧
    (cardOf s).fillDefaults.effectiveGeneral = (cardOf s).effectiveGeneral ∧
    (cardOf s).fillDefaults.cssClasses = "size-small" ∧
    (cardOf s).fillDefaults.text "look.title" = "Hi" := by
  obtain ⟨s, hs, hq⟩ := Schema.exists_of_any .general cardSteps (fun s =>
    (cardOf s).effectiveGeneral.toText =
        "\x7b\"look\":\x7b\"size\":\"small\",\"title\":\"Hi\"\x7d\x7d" &&
      (cardOf s).cssClasses = "size-small" && (cardOf s).text "look.title" = "Hi" &&
      (s.field? (.ofText "look.title")).isSome) (by decide +kernel)
  simp only [Bool.and_eq_true, decide_eq_true_eq] at hq
  obtain ⟨⟨⟨htree, hclasses⟩, htitle⟩, hfield⟩ := hq
  obtain ⟨f, hf⟩ := Option.isSome_iff_exists.1 hfield
  obtain ⟨-, hagain, -, hsame, -, htexts⟩ := fillDefaults_unchanged (i := cardOf s) hs
  exact ⟨s, hs, htree, hagain, hsame.trans hclasses, (htexts _ f hf).1.trans htitle⟩

end Instance

end ScopedStyle
