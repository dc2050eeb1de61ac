import ScopedStyle.Markup.Attributes
import ScopedStyle.Proofs.Style.Cascade
import ScopedStyle.Proofs.Value.Tokens

/-!
# Placeholders in the output

Rendering a template keeps an unknown placeholder as it is written. That this
never shows in the output rests on three tables that have to agree: the
placeholders that a kind names, those that the making of a field lets through,
and the tokens that a value is resolved to. The first two meet in
`Field.Accepted.mem_tokenNames`, the first and the last in
`Field.knows_of_resolve`.

Every rule of a style sheet, and every text in the markup, is hence made of
templates that could be filled (`Rule.Fills`), all their placeholders replaced
(`Schema.placeholders_replaced`).
-/

namespace ScopedStyle

/-! ### Rules -/

namespace Template

/-- A selector with that of the widget instance put in, unless it has another
    placeholder. -/
def within? (t : Template) (wrapper : String) : Option String :=
  t.fill? fun name => if name = Placeholder.wrapper then some wrapper else none

/-- A selector whose placeholders are all that of the wrapper is filled as it is
    rendered. -/
theorem within?_eq_some_iff {t : Template} {wrapper text : String} :
    t.within? wrapper = some text ↔
      (∀ name ∈ t.placeholders, name = Placeholder.wrapper) ∧ t.within wrapper = text := by
  rw [within?, fill?_eq_some_iff, within]
  simp only [Option.isSome_ite]

end Template

/-- How a rule of a field makes a rule of the sheet, with all of its placeholders
    replaced. -/
inductive Rule.Fills (wrapper : String) (v : Resolved) : Rule → StyleRule → Prop
  /-- From a declaration. -/
  | declared {selector body : Template} {written text : String}
      (hselector : selector.within? wrapper = some written)
      (hbody : v.tokens.fill? body = some text) :
      Fills wrapper v (.declared selector body) ⟨written, text⟩
  /-- From the declarations of the value. -/
  | plain {selectors : List Template} {selector : Template} {written : String}
      (hmem : selector ∈ selectors) (hselector : selector.within? wrapper = some written) :
      Fills wrapper v (.composed selectors) ⟨written, Declaration.joined v.declarations⟩
  /-- From the declarations of the value for the state `:hover`. -/
  | hover {selectors : List Template} {selector : Template} {written : String}
      (hmem : selector ∈ selectors) (hselector : selector.within? wrapper = some written) :
      Fills wrapper v (.composed selectors) ⟨Selector.hover written, Declaration.joined v.hover⟩

/-- A composed rule has one of the selectors. -/
theorem StyleRule.eq_of_mem_composed {ds : List Declaration} {selectors : List String}
    {rule : StyleRule} (h : rule ∈ composed ds selectors) :
    ∃ selector ∈ selectors, rule = ⟨selector, Declaration.joined ds⟩ := by
  rw [composed] at h
  split at h
  · exact absurd h List.not_mem_nil
  · obtain ⟨selector, hselector, rfl⟩ := List.mem_map.1 h
    exact ⟨selector, hselector, rfl⟩

/-- A rule whose placeholders are known makes filled rules only. -/
theorem Rule.fills_of_mem_styleRules {r : Rule} {v : Resolved} {wrapper : String}
    (hselectors : ∀ selector ∈ r.selectors, ∀ name ∈ selector.placeholders,
      name = Placeholder.wrapper)
    (hbody : ∀ body, r.body? = some body → ∀ name ∈ body.placeholders, v.tokens.Knows name)
    {rule : StyleRule} (h : rule ∈ r.styleRules v wrapper) : r.Fills wrapper v rule := by
  have hwithin (selector) (hs : selector ∈ r.selectors) :
      selector.within? wrapper = some (selector.within wrapper) :=
    Template.within?_eq_some_iff.2 ⟨hselectors selector hs, rfl⟩
  cases r with
  | declared selector body =>
    rw [List.mem_singleton.1 h]
    exact .declared (hwithin selector (.head _)) (Tokens.fill?_eq_some_iff.2 ⟨hbody body rfl, rfl⟩)
  | composed selectors =>
    rcases List.mem_append.1 h with h | h
    · obtain ⟨_, hplain, rfl⟩ := StyleRule.eq_of_mem_composed h
      obtain ⟨selector, hs, rfl⟩ := List.mem_map.1 hplain
      exact .plain hs (hwithin selector hs)
    · obtain ⟨_, hhover, rfl⟩ := StyleRule.eq_of_mem_composed h
      obtain ⟨_, hplain, rfl⟩ := List.mem_map.1 hhover
      obtain ⟨selector, hs, rfl⟩ := List.mem_map.1 hplain
      exact .hover hs (hwithin selector hs)

/-! ### Fields -/

namespace Field.Accepted

variable {f : Field} {stored fallback : Option Json} {v : Resolved}

/-- A resolved value has a token for every placeholder of the templates of its
    field. -/
theorem knows (hf : f.Accepted) (h : f.resolve stored fallback = .ok v) {t : Template}
    (ht : t ∈ f.tokenTemplates) {name : String} (hname : name ∈ t.placeholders) :
    v.tokens.Knows name :=
  (knows_of_resolve h).2 (hf.mem_tokenNames ht hname)

/-- The rules of a resolved value are filled. -/
theorem exists_fills (hf : f.Accepted) (h : f.resolve stored fallback = .ok v) {wrapper : String}
    {rule : StyleRule} (hrule : rule ∈ f.styleRules v wrapper) :
    ∃ r ∈ f.rules, r.Fills wrapper v rule := by
  obtain ⟨r, hr, hrule⟩ := List.mem_flatMap.1 hrule
  refine ⟨r, hr, Rule.fills_of_mem_styleRules (fun selector hs name hname => ?_)
    (fun body hbody name hname => ?_) hrule⟩
  · exact hf.selector_placeholder_eq hr hs hname
  · exact hf.knows h (List.mem_append_left _ (List.mem_filterMap.2 ⟨r, hr, hbody⟩)) hname

end Field.Accepted

/-! ### The output -/

/-- The rules in a block. -/
def Block.rules : Block → List StyleRule
  | .rule r => [r]
  | .media _ rules => rules
  | .comment _ => []

theorem Widths.mem_of_mem_blocksOf {w : Widths} {b : Breakpoint} {rs : List StyleRule}
    {block : Block} (h : block ∈ w.blocksOf b rs) {rule : StyleRule} (hrule : rule ∈ block.rules) :
    rule ∈ rs := by
  rcases mem_blocksOf_cases h with ⟨r, hr, rfl⟩ | ⟨maxWidth, rfl⟩
  · rwa [List.mem_singleton.1 hrule]
  · exact hrule

namespace Entry

variable {e : Entry} {s : Schema} {t : Tree}

/-- A rule that a field adds is one of its rules for the value at a breakpoint. -/
theorem exists_resolveAt_of_mem_blocks {c : Config} {wrapper : String} {block : Block}
    (h : block ∈ e.blocks s t c wrapper) {rule : StyleRule} (hrule : rule ∈ block.rules) :
    ∃ b v, e.field.resolveAt ((t.get? e.path).map .ofStored) b = .ok v ∧
      rule ∈ e.field.styleRules v wrapper := by
  -- A comment has no rules, so the block is one of a breakpoint.
  have hblock : block ∈ (e.blocks s t c wrapper).filter (!·.isComment) := by
    refine List.mem_filter.2 ⟨h, ?_⟩
    cases block with
    | comment text => exact absurd hrule List.not_mem_nil
    | _ => rfl
  rw [filter_blocks] at hblock
  obtain ⟨b, _, hblock⟩ := List.mem_flatMap.1 hblock
  have hmem := Widths.mem_of_mem_blocksOf hblock hrule
  rw [rulesAt] at hmem
  split at hmem
  · rw [Field.rulesAt] at hmem
    split at hmem
    · exact absurd hmem List.not_mem_nil
    · rename_i v hv
      exact ⟨b, v, hv, hmem⟩
  · exact absurd hmem List.not_mem_nil

/-- A text in the markup is that of a template with the tokens of the desktop
    value. -/
theorem exists_resolveDesktop?_of_markup? {template : Template} {text : String}
    (h : e.markup? s t template = some text) :
    ∃ v, e.field.resolveDesktop? (t.get? e.path) = some v ∧
      Markup.escape (Text.trim (v.tokens.render template)) = text := by
  -- Of the four steps, three are guards that have been passed.
  obtain ⟨_, _, h⟩ := Option.bind_eq_some_iff.1 h
  obtain ⟨v, hv, h⟩ := Option.bind_eq_some_iff.1 h
  obtain ⟨_, _, h⟩ := Option.bind_eq_some_iff.1 h
  obtain ⟨_, _, h⟩ := Option.bind_eq_some_iff.1 h
  exact ⟨v, hv, Option.some.inj h⟩

end Entry

theorem Field.resolve_of_resolveDesktop? {f : Field} {stored : Option Json} {v : Resolved}
    (h : f.resolveDesktop? stored = some v) :
    f.resolve (stored.bind Responsive.desktopOf?) (Responsive.desktopOf? f.default) = .ok v := by
  rw [resolveDesktop?] at h
  split at h
  · rename_i hv
    cases h
    exact hv
  · cases h

/-- In a field that attributes make, selectors have no placeholder but that of
    the wrapper, and whatever the value is resolved to has a token for every
    placeholder of the declarations. The fields of a schema that is written down
    by steps are such fields. So every rule of its style sheet, and every text in
    its markup, is a template of a field with all placeholders replaced. -/
theorem Schema.placeholders_replaced :
    (∀ f : Field, f.Accepted →
      (∀ r ∈ f.rules, ∀ selector ∈ r.selectors, ∀ name ∈ selector.placeholders,
        name = Placeholder.wrapper) ∧
      ∀ stored fallback v, f.resolve stored fallback = .ok v →
        ∀ template ∈ f.tokenTemplates, ∀ name ∈ template.placeholders,
          (v.tokens.get? name).isSome = true) ∧
    ∀ category steps s, ofSteps category steps = .ok s → ∀ t : Tree,
      (∀ e ∈ s.entries, e.field.Accepted) ∧
      (∀ c id sectionId, ∀ block ∈ s.compile t c id sectionId, ∀ rule ∈ block.rules,
        ∃ e ∈ s.entries, ∃ r ∈ e.field.rules, ∃ b v,
          e.field.resolveAt ((t.get? e.path).map .ofStored) b = .ok v ∧
            r.Fills (Selector.wrapper id sectionId) v rule) ∧
      ∀ templateOf ∈ [Field.classTemplate, Field.styleTemplate],
        ∀ text ∈ s.markupTexts t templateOf,
          ∃ e ∈ s.entries, ∃ template v filled, templateOf e.field = some template ∧
            e.field.resolveDesktop? (t.get? e.path) = some v ∧
              v.tokens.fill? template = some filled ∧ text = Markup.escape (Text.trim filled) := by
  refine ⟨fun f hf => ⟨fun r hr selector hs name hname => hf.selector_placeholder_eq hr hs hname,
    fun stored fallback v hv template ht name hname => hf.knows hv ht hname⟩, ?_⟩
  intro category steps s h t
  have hs := ofSteps_wellFormed h
  refine ⟨fun e he => hs.accepted he, ?_, ?_⟩
  · intro c id sectionId block hblock rule hrule
    obtain ⟨e, he, hblock⟩ := List.mem_flatMap.1 hblock
    obtain ⟨b, v, hv, hrule⟩ := Entry.exists_resolveAt_of_mem_blocks hblock hrule
    obtain ⟨r, hr, hfills⟩ := (hs.accepted he).exists_fills hv hrule
    exact ⟨e, he, r, hr, b, v, hv, hfills⟩
  · intro templateOf htemplateOf text htext
    rw [markupTexts] at htext
    split at htext
    · obtain ⟨e, he, htext⟩ := List.mem_filterMap.1 htext
      obtain ⟨template, htemplate, htext⟩ := Option.bind_eq_some_iff.1 htext
      obtain ⟨v, hv, htext⟩ := Entry.exists_resolveDesktop?_of_markup? htext
      have hmem : template ∈ e.field.tokenTemplates := by
        refine List.mem_append_right _ (List.mem_append.2 ?_)
        rcases List.mem_cons.1 htemplateOf with rfl | htemplateOf
        · exact .inl (Option.mem_toList.2 htemplate)
        · rw [List.mem_singleton.1 htemplateOf] at htemplate
          exact .inr (Option.mem_toList.2 htemplate)
      have hknows : ∀ name ∈ template.placeholders, v.tokens.Knows name := fun name hname =>
        (hs.accepted he).knows (Field.resolve_of_resolveDesktop? hv) hmem hname
      exact ⟨e, he, template, v, _, htemplate, hv, Tokens.fill?_eq_some_iff.2 ⟨hknows, rfl⟩,
        htext.symm⟩
    · exact absurd htext List.not_mem_nil

/-- A note with a padding, which takes a unit, and a color in the markup. -/
def Schema.noteSteps : List Schema.Step :=
  [.openGroup "note" "Note",
    .field "dimension" [.key "padding", .label "Padding", .unit "px",
      .rule (.declared ⟨"\x7b\x7bWRAPPER\x7d\x7d p"⟩
        ⟨"padding-top: \x7b\x7bVALUE.TOP\x7d\x7d\x7b\x7bUNIT\x7d\x7d;"⟩)],
    .field "color" [.key "tone", .label "Tone", .styleTemplate ⟨"color: \x7b\x7bVALUE\x7d\x7d"⟩]]

/-- Settings that store a padding and a color. -/
def noteTree : Tree :=
  ⟨.obj [("note", .obj [("padding", .obj [("top", .ofNat 4)]), ("tone", .str "red")])]⟩

/-- The padding of a note has a token for each of its placeholders, and nothing is
    left open in its style sheet and its markup. -/
theorem note_placeholders_replaced :
    ∃ s, Schema.ofSteps .general Schema.noteSteps = .ok s ∧
      (∃ e ∈ s.entries, ∃ v, e.field.resolve (some (.obj [("top", .ofNat 4)])) none = .ok v ∧
        ∃ template ∈ e.field.tokenTemplates, template.placeholders = ["VALUE.TOP", "UNIT"] ∧
          ∀ name ∈ template.placeholders, (v.tokens.get? name).isSome = true) ∧
      s.compile noteTree .standard "w" none = [.rule ⟨"#w p", "padding-top: 4px;"⟩] ∧
      (∃ e ∈ s.entries, ∃ r ∈ e.field.rules, ∃ v : Resolved,
        r.Fills "#w" v ⟨"#w p", "padding-top: 4px;"⟩) ∧
      s.markupTexts noteTree Field.styleTemplate = ["color: red"] ∧
      ∃ e ∈ s.entries, ∃ template filled, ∃ v : Resolved, e.field.styleTemplate = some template ∧
        v.tokens.fill? template = some filled ∧
          "color: red" = Markup.escape (Text.trim filled) := by
  obtain ⟨s, hs, hq⟩ := Schema.exists_of_any .general Schema.noteSteps (fun s =>
    (s.entries.any fun e =>
      (e.field.resolve (some (.obj [("top", .ofNat 4)])) none).toOption.isSome &&
        e.field.tokenTemplates.any (·.placeholders = ["VALUE.TOP", "UNIT"])) &&
      s.compile noteTree .standard "w" none = [.rule ⟨"#w p", "padding-top: 4px;"⟩] &&
      s.markupTexts noteTree Field.styleTemplate = ["color: red"]) (by decide +kernel)
  simp only [Bool.and_eq_true, decide_eq_true_eq, List.any_eq_true] at hq
  obtain ⟨⟨⟨e, he, hresolve, template, htemplate, hnames⟩, hcompile⟩, hmarkup⟩ := hq
  obtain ⟨v, hv⟩ := Option.isSome_iff_exists.1 hresolve
  have hresolve := Schema.eq_ok_of_toOption hv
  obtain ⟨hfields, hschemas⟩ := Schema.placeholders_replaced
  obtain ⟨haccepted, hrules, htexts⟩ := hschemas _ _ s hs noteTree
  have htokens := (hfields e.field (haccepted e he)).2 _ _ v hresolve
  obtain ⟨e₁, he₁, r, hr, b, v₁, -, hfills⟩ :=
    hrules .standard "w" none _ (by rw [hcompile]; exact .head _) _ (.head _)
  obtain ⟨e₂, he₂, template₂, v₂, filled, htemplate₂, -, hfilled, htext⟩ :=
    htexts Field.styleTemplate (.tail _ (.head _)) "color: red" (by rw [hmarkup]; exact .head _)
  exact ⟨s, hs, ⟨e, he, v, hresolve, template, htemplate, hnames, htokens template htemplate⟩,
    hcompile, ⟨e₁, he₁, r, hr, v₁, hfills⟩, hmarkup,
    e₂, he₂, template₂, filled, v₂, htemplate₂, hfilled, htext⟩

end ScopedStyle
