import ScopedStyle.Proofs.Schema.Addressing
import ScopedStyle.Proofs.Style.Reads

/-!
# Storing a default

A setting that is left alone counts as its default, so writing the default of a
field down where nothing is stored changes nothing in the output
(`Schema.output_put_default`). There are three ways on which the default
arrives: by breakpoint in the style sheet, at the desktop in the markup, and as
the effective value in conditions. On each of them the default stands behind
the stored value anyway, so that it makes no difference whether it also stands
in front (`Field.resolve_self`).
-/

namespace ScopedStyle

namespace Field

variable (f : Field)

/-- A value that gives way to itself counts as if it were not stored. -/
theorem resolve_self (value : Option Json) : f.resolve value value = f.resolve none value := by
  cases hvalue : value.bind Json.nonNull? with
  | none =>
    rw [resolve, resolve, hvalue]
    rfl
  | some v =>
    -- Where both fail, they report the value as it is stored.
    have hv : value.getD v = v := by
      cases value with
      | none => rfl
      | some j => cases j <;> simp_all [Json.nonNull?]
    rw [resolve, resolve, hvalue]
    cases hresolved : f.resolve? v with
    | none => simp [hresolved, hv]
    | some r => simp [hresolved]

/-- A field without a default has nothing to store. -/
theorem nonNull?_default_cases :
    f.default.nonNull? = none ∨ f.default.nonNull? = some f.default := by
  cases f.default with
  | null => exact .inl rfl
  | _ => exact .inr rfl

/-- The default as the stored value makes the blocks that it makes anyway. -/
theorem blocks_default (w : Widths) (wrapper : String) :
    f.blocks f.default.nonNull? w wrapper = f.blocks none w wrapper := by
  rcases f.nonNull?_default_cases with h | h
  · rw [h]
  · have hat (b : Breakpoint) :
        f.resolveAt (some (.ofStored f.default)) b = f.resolveAt none b :=
      f.resolve_self _
    have hblocksAt : f.blocksAt (some (.ofStored f.default)) w wrapper =
        f.blocksAt none w wrapper := by
      funext b
      rw [blocksAt, blocksAt, hat]
    rw [h]
    change (f.breakpoints (some (.ofStored f.default))).flatMap
      (f.blocksAt (some (.ofStored f.default)) w wrapper) = _
    rw [hblocksAt]
    rfl

/-- The default as the stored value contributes to the markup what it does
    anyway. -/
theorem contribution?_default : f.contribution? f.default.nonNull? = f.contribution? none := by
  rcases f.nonNull?_default_cases with h | h
  · rw [h]
  · rw [h, contribution?, contribution?, resolveDesktop?, resolveDesktop?, Option.bind_some,
      resolve_self]
    rfl

end Field

namespace Schema

variable {s : Schema} (hs : s.WellFormed) {e : Entry} (he : e ∈ s.entries)

include hs he

/-- The default is the effective value of its field, stored or not. -/
theorem sameEffective_put_default {t : Tree} (hunset : t.get? e.path = none) :
    s.SameEffective (t.put e.path e.field.default) t := by
  intro p f hf
  obtain ⟨e', he', rfl, rfl⟩ := exists_mem_of_field? hf
  by_cases hee : e' = e
  · subst hee
    rw [effective?_of_get?_eq_default hf (t.get?_put_self _ _),
      effective?_of_get?_eq_none hf hunset]
  · exact effective?_congr (hs.get?_put_of_ne he he' hee t _)

/-- Writing the default of a field down where nothing is stored changes nothing
    that a field contributes, to the style sheet or to the markup. -/
theorem contributions_put_default {t : Tree} (hunset : t.get? e.path = none) {e' : Entry}
    (he' : e' ∈ s.entries) :
    (∀ w wrapper, e'.field.blocks ((t.put e.path e.field.default).get? e'.path) w wrapper =
      e'.field.blocks (t.get? e'.path) w wrapper) ∧
    e'.field.contribution? ((t.put e.path e.field.default).get? e'.path) =
      e'.field.contribution? (t.get? e'.path) := by
  by_cases hee : e' = e
  · subst hee
    rw [t.get?_put_self, hunset]
    exact ⟨e'.field.blocks_default, e'.field.contribution?_default⟩
  · rw [hs.get?_put_of_ne he he' hee]
    exact ⟨fun _ _ => rfl, rfl⟩

omit hs he in
/-- A setting that is left alone counts as its default: writing the default of a
    field down where nothing is stored changes neither the style sheet nor the
    attributes of the markup. -/
theorem output_put_default {c : Category} {steps : List Step} {s : Schema}
    (h : ofSteps c steps = .ok s) {e : Entry} (he : e ∈ s.entries) {t : Tree}
    (hunset : t.get? e.path = none) (config : Config) (id : String) (sectionId : Option String) :
    s.compile (t.put e.path e.field.default) config id sectionId =
        s.compile t config id sectionId ∧
      s.cssClasses (t.put e.path e.field.default) = s.cssClasses t ∧
      s.styleAttribute (t.put e.path e.field.default) = s.styleAttribute t := by
  have hs := ofSteps_wellFormed h
  have heffective := sameEffective_put_default hs he hunset
  have hmarkup := markupTexts_congr heffective fun e' he' =>
    (contributions_put_default hs he hunset he').2
  refine ⟨?_, ?_, ?_⟩
  · exact compile_congr heffective (fun e' he' wrapper =>
      (contributions_put_default hs he hunset he').1 _ wrapper) id sectionId
  · rw [cssClasses, cssClasses, hmarkup]
  · rw [styleAttribute, styleAttribute, hmarkup]

/-- A gap with a default for every width and one for the phone, which is a class and
    a declaration of the element as well, and a color that goes with it. -/
def rowSteps : List Step :=
  [.openGroup "layout" "Layout",
    .field "number" [.key "gap", .label "Gap", .responsive true,
      .default (.obj [("desktop", .ofNat 20), ("mobile", .ofNat 8)]),
      .classTemplate ⟨"gap-\x7b\x7bVALUE\x7d\x7d"⟩,
      .styleTemplate ⟨"--gap: \x7b\x7bVALUE\x7d\x7dpx"⟩,
      .rule (.declared ⟨"\x7b\x7bWRAPPER\x7d\x7d"⟩ ⟨"gap: \x7b\x7bVALUE\x7d\x7dpx;"⟩)],
    .field "color" [.key "tone", .label "Tone", .default (.str "red"),
      .condition ⟨[⟨⟨["gap"]⟩, .eq, .ofNat 20⟩]⟩,
      .rule (.declared ⟨"\x7b\x7bWRAPPER\x7d\x7d"⟩ ⟨"color: \x7b\x7bVALUE\x7d\x7d;"⟩)]]

omit hs he in
/-- The gap of a row, written down in a document that is a list, where it was in
    effect before: in the sheet, in a condition, and in the attributes. -/
theorem row_gap_put_default :
    ∃ s, ofSteps .general rowSteps = .ok s ∧ ∃ e ∈ s.entries,
      e.path = ⟨["layout", "gap"]⟩ ∧ Tree.get? ⟨.arr []⟩ e.path = none ∧
      s.compile (Tree.put ⟨.arr []⟩ e.path e.field.default) .standard "w" none =
        [.rule ⟨"#w", "gap: 20px;"⟩, .media 767 [⟨"#w", "gap: 8px;"⟩],
          .rule ⟨"#w", "color: red;"⟩] ∧
      s.cssClasses (Tree.put ⟨.arr []⟩ e.path e.field.default) = "gap-20" ∧
      s.styleAttribute (Tree.put ⟨.arr []⟩ e.path e.field.default) = "--gap: 20px" := by
  obtain ⟨s, h, hq⟩ := exists_of_any .general rowSteps (fun s =>
    (s.entries.any fun e => e.path = ⟨["layout", "gap"]⟩) &&
      s.compile ⟨.arr []⟩ .standard "w" none =
        [.rule ⟨"#w", "gap: 20px;"⟩, .media 767 [⟨"#w", "gap: 8px;"⟩],
          .rule ⟨"#w", "color: red;"⟩] &&
      s.cssClasses ⟨.arr []⟩ = "gap-20" && s.styleAttribute ⟨.arr []⟩ = "--gap: 20px")
    (by decide +kernel)
  simp only [Bool.and_eq_true, decide_eq_true_eq] at hq
  obtain ⟨⟨⟨hentry, hsheet⟩, hclass⟩, hstyle⟩ := hq
  obtain ⟨e, he, hpath⟩ := List.any_eq_true.1 hentry
  have hpath := of_decide_eq_true hpath
  have hunset : Tree.get? ⟨.arr []⟩ e.path = none := by rw [hpath]; rfl
  obtain ⟨hsheet', hclass', hstyle'⟩ := output_put_default h he hunset .standard "w" none
  exact ⟨s, h, e, he, hpath, hunset, hsheet'.trans hsheet, hclass'.trans hclass,
    hstyle'.trans hstyle⟩

end Schema

end ScopedStyle
