import ScopedStyle.Markup.Attributes
import ScopedStyle.Proofs.Schema.Relocation
import ScopedStyle.Proofs.Style.Cascade

/-!
# The output of a schema moved into a tab

A field contributes to the output by its stored value and by whether its
condition holds. Both are as before when the groups of a schema are moved into a
tab together with what is stored for them, as long as the conditions are on
siblings. So the style sheet and the attributes of the markup stay the same
(`Schema.output_inTab`). Only a comment in front of the rules of a field would
tell, because it names the path.
-/

namespace ScopedStyle.Schema

section

variable {s : Schema} (hs : s.WellFormed) (hroot : ∀ t, .tab t ∉ s.nodes) {key : String}
  (hkey : Path.isKey key = true) (label : String) {e : Entry} (he : e.field.ComparesSiblings)
  (t : Tree)

include hs hroot hkey he

/-- A field has the rules in the tab that it has at the root. -/
theorem WellFormed.rulesAt_inTab (wrapper : String) :
    (e.below key).rulesAt (s.inTab key label) (t.below key) wrapper = e.rulesAt s t wrapper := by
  funext b
  have hstored : (t.below key).get? (e.below key).path = t.get? e.path := t.get?_below e.path key
  rw [Entry.rulesAt, Entry.rulesAt, hs.active_inTab hroot hkey label he, hstored]
  rfl

/-- A field has the text in the markup in the tab that it has at the root. -/
theorem WellFormed.markup?_inTab (template : Template) :
    (e.below key).markup? (s.inTab key label) (t.below key) template = e.markup? s t template := by
  have hstored : (t.below key).get? (e.below key).path = t.get? e.path := t.get?_below e.path key
  rw [Entry.markup?, Entry.markup?, hs.active_inTab hroot hkey label he, hstored]
  rfl

end

/-- The texts that the fields contribute to the markup are the same in a tab. -/
theorem WellFormed.markupTexts_inTab {s : Schema} (hs : s.WellFormed)
    (hroot : ∀ t, .tab t ∉ s.nodes) {key : String} (hkey : Path.isKey key = true) (label : String)
    (hsiblings : ∀ e ∈ s.entries, e.field.ComparesSiblings) (t : Tree)
    (templateOf : Field → Option Template) :
    (s.inTab key label).markupTexts (t.below key) templateOf = s.markupTexts t templateOf := by
  have hcategory : (s.inTab key label).category = s.category := rfl
  rw [markupTexts, markupTexts, entries_inTab hroot, List.filterMap_map, hcategory]
  cases s.category with
  | style => rfl
  | general =>
    refine List.filterMap_congr fun e he => ?_
    refine congrArg ((templateOf e.field).bind ·) (funext fun template => ?_)
    exact hs.markup?_inTab hroot hkey label (hsiblings e he) t template

/-- The groups of a schema without tabs can be moved into a tab, if no condition
    is on more than siblings. The schema can still be written down, and with the
    settings moved along it has the same style sheet, without comments, and the
    same attributes of the markup. -/
theorem output_inTab {category : Category} {steps : List Step} {s : Schema}
    (h : ofSteps category steps = .ok s) (hroot : ∀ t, .tab t ∉ s.nodes)
    (hsiblings : ∀ e ∈ s.entries, e.field.ComparesSiblings) {key : String}
    (hkey : Path.isKey key = true) (label : String) (t : Tree) :
    (label ≠ "" →
      ofSteps category (.openTab key label :: steps.map Step.inTab) = .ok (s.inTab key label)) ∧
    (∀ (c : Config) (id : String) (sectionId : Option String), c.comments = false →
      (s.inTab key label).compile (t.below key) c id sectionId = s.compile t c id sectionId) ∧
    (s.inTab key label).cssClasses (t.below key) = s.cssClasses t ∧
    (s.inTab key label).styleAttribute (t.below key) = s.styleAttribute t := by
  have hs := ofSteps_wellFormed h
  refine ⟨ofSteps_inTab h hroot hkey, fun c id sectionId hc => ?_, ?_, ?_⟩
  · rw [compile, compile, entries_inTab hroot, List.flatMap_map]
    refine List.flatMap_congr fun e he => ?_
    rw [Entry.blocks_eq_flatMap hc, Entry.blocks_eq_flatMap hc,
      hs.rulesAt_inTab hroot hkey label (hsiblings e he)]
  · rw [cssClasses, cssClasses, hs.markupTexts_inTab hroot hkey label hsiblings]
  · rw [styleAttribute, styleAttribute, hs.markupTexts_inTab hroot hkey label hsiblings]

/-- A frame and the color that it has. -/
def framedSteps : List Step :=
  [.openGroup "look" "Look",
    .field "toggle" [.key "framed", .label "Framed", .default (.bool false),
      .classTemplate ⟨"framed"⟩],
    .field "color" [.key "tone", .label "Tone", .default (.str "red"),
      .condition ⟨[⟨⟨["framed"]⟩, .eq, .bool true⟩]⟩,
      .rule (.declared ⟨"\x7b\x7bWRAPPER\x7d\x7d"⟩ ⟨"border-color: \x7b\x7bVALUE\x7d\x7d;"⟩),
      .styleTemplate ⟨"color: \x7b\x7bVALUE\x7d\x7d"⟩],
    .closeTab]

/-- Settings that store whether there is a frame. -/
def framedTree (framed : Bool) : Tree :=
  ⟨.obj [("look", .obj [("framed", .bool framed)])]⟩

/-- The color of the frame depends on the frame in a tab as well. -/
theorem framed_in_tab :
    ∃ s, ofSteps .general framedSteps = .ok s ∧
      ofSteps .general (.openTab "normal" "Normal" :: framedSteps.map Step.inTab) =
        .ok (s.inTab "normal" "Normal") ∧
      (s.inTab "normal" "Normal").compile ((framedTree true).below "normal") .standard "w" none =
        [.rule ⟨"#w", "border-color: red;"⟩] ∧
      (s.inTab "normal" "Normal").compile ((framedTree false).below "normal") .standard "w" none =
        [] ∧
      (s.inTab "normal" "Normal").cssClasses ((framedTree true).below "normal") = "framed" ∧
      (s.inTab "normal" "Normal").styleAttribute ((framedTree true).below "normal") =
        "color: red" := by
  obtain ⟨s, hs, hq⟩ := exists_of_any .general framedSteps (fun s =>
    s.nodes.all (·.group?.isSome) &&
      (s.entries.all fun e => e.field.condition.all fun c =>
        c.clauses.all fun clause => clause.field.length = 1) &&
      s.compile (framedTree true) .standard "w" none = [.rule ⟨"#w", "border-color: red;"⟩] &&
      s.compile (framedTree false) .standard "w" none = [] &&
      s.cssClasses (framedTree true) = "framed" &&
      s.styleAttribute (framedTree true) = "color: red") (by decide +kernel)
  simp only [Bool.and_eq_true, decide_eq_true_eq] at hq
  obtain ⟨⟨⟨⟨⟨hgroups, hclauses⟩, hframed⟩, hplain⟩, hclasses⟩, hstyle⟩ := hq
  have hroot : ∀ t, .tab t ∉ s.nodes := fun t ht => by
    cases List.all_eq_true.1 hgroups _ ht
  have hsiblings : ∀ e ∈ s.entries, e.field.ComparesSiblings := by
    intro e he c hc clause hclause
    have hall := (Option.all_eq_true _ _).1 (List.all_eq_true.1 hclauses e he) c hc
    exact of_decide_eq_true (List.all_eq_true.1 hall clause hclause)
  have hkey : Path.isKey "normal" = true := by decide
  obtain ⟨hsteps, hcompile, hclasses', hstyle'⟩ :=
    output_inTab hs hroot hsiblings hkey "Normal" (framedTree true)
  obtain ⟨-, hcompile', -⟩ := output_inTab hs hroot hsiblings hkey "Normal" (framedTree false)
  exact ⟨s, hs, hsteps (by decide), (hcompile _ _ _ rfl).trans hframed,
    (hcompile' _ _ _ rfl).trans hplain, hclasses'.trans hclasses, hstyle'.trans hstyle⟩

end ScopedStyle.Schema
