import ScopedStyle.Proofs.Schema.Addressing
import ScopedStyle.Widget.Catalog

/-!
# Runs of registrations

A catalog is filled by calls that register types. A call fails if the name of the
type is taken or if a schema of it cannot be made, and the next call goes on with
the catalog as it was. So what a call does is said name by name: it puts what it
offers under a name that is free (`Catalog.get?_after`). By induction a run leaves
under each name what was offered for it first (`Catalog.get?_run`).

As a catalog is in the order of names, it is determined by what it has under them
(`Dict.ext_get?`). Hence the calls for one type neither see nor change those for
another: a run is determined by its calls type by type, and so are the answers of
the calls (`Catalog.filter_answers`). All of it is put together in
`Catalog.run_answers`.
-/

namespace ScopedStyle

/-- Both schemas of a type can be made. -/
def Widget.Valid (w : Widget) : Prop :=
  ∃ general style, w.general = .ok general ∧ w.style = .ok style

namespace Catalog

/-! ### One call -/

/-- What a call to register a type offers for a name: the type with its schemas, if
    it has the name and they can be made. -/
def offered? (name : String) (w : Widget) : Option Registered :=
  if w.name = name then (build w).toOption else none

/-- The error of a call to register a type. -/
def refusal? (c : Catalog) (w : Widget) : Option Error :=
  match c.register w with
  | .ok _ => none
  | .error e => some e

/-- The catalog after a call to register a type, the same one if the call fails. -/
def after (c : Catalog) (w : Widget) : Catalog :=
  match c.register w with
  | .ok c => c
  | .error _ => c

variable {c c' : Catalog} {w : Widget} {ws ws' : List Widget} {r : Registered} {name : String}

theorem build_eq_ok_iff : build w = .ok r ↔
    ∃ general style, w.general = .ok general ∧ w.style = .ok style ∧ r = ⟨w, general, style⟩ := by
  rw [build]
  cases w.general with
  | error e =>
    refine iff_of_false (by rintro ⟨⟩) ?_
    rintro ⟨_, _, ⟨⟩, _⟩
  | ok general =>
    cases w.style with
    | error e =>
      refine iff_of_false (by rintro ⟨⟩) ?_
      rintro ⟨_, _, _, ⟨⟩, _⟩
    | ok style =>
      constructor
      · rintro ⟨⟩
        exact ⟨general, style, rfl, rfl, rfl⟩
      · rintro ⟨_, _, ⟨⟩, ⟨⟩, rfl⟩
        rfl

theorem offered?_eq_some_iff : offered? name w = some r ↔ w.name = name ∧ build w = .ok r := by
  rw [offered?]
  split
  · cases build w <;> simp [Except.toOption, *]
  · simp [*]

/-- The types that offer nothing for a name have another one or are not valid. -/
theorem offered?_eq_none_iff : offered? name w = none ↔ (w.name = name → ¬w.Valid) := by
  rw [Option.eq_none_iff_forall_ne_some]
  constructor
  · rintro h rfl ⟨general, style, hgeneral, hstyle⟩
    exact h _ (offered?_eq_some_iff.2 ⟨rfl, build_eq_ok_iff.2 ⟨_, _, hgeneral, hstyle, rfl⟩⟩)
  · intro h r hr
    obtain ⟨hname, hbuild⟩ := offered?_eq_some_iff.1 hr
    obtain ⟨general, style, hgeneral, hstyle, -⟩ := build_eq_ok_iff.1 hbuild
    exact h hname ⟨general, style, hgeneral, hstyle⟩

/-- A call succeeds if the name is free and the type valid, and then puts the type
    under its name. Otherwise it leaves the catalog as it is. -/
theorem after_cases (c : Catalog) (w : Widget) :
    (c.widgets.get? w.name = none ∧ c.refusal? w = none ∧
      ∃ r, build w = .ok r ∧ c.after w = { c with widgets := c.widgets.put w.name r }) ∨
    ((c.widgets.get? w.name ≠ none ∨ ¬w.Valid) ∧ c.refusal? w ≠ none ∧ c.after w = c) := by
  rw [refusal?, after, register, Dict.contains]
  cases hget : c.widgets.get? w.name with
  | some r => exact .inr ⟨.inl (by simp), by simp, rfl⟩
  | none =>
    cases hbuild : build w with
    | ok r => exact .inl ⟨rfl, rfl, r, rfl, rfl⟩
    | error e =>
      refine .inr ⟨.inr ?_, by simp [Except.map], rfl⟩
      rintro ⟨general, style, hgeneral, hstyle⟩
      rw [build_eq_ok_iff.2 ⟨general, style, hgeneral, hstyle, rfl⟩] at hbuild
      cases hbuild

/-- A call succeeds exactly if the name is free and the type valid. -/
theorem refusal?_eq_none_iff :
    c.refusal? w = none ↔ c.widgets.get? w.name = none ∧ w.Valid := by
  rcases c.after_cases w with ⟨hfree, hnone, r, hr, -⟩ | ⟨hwhy, hsome, -⟩
  · obtain ⟨general, style, hgeneral, hstyle, -⟩ := build_eq_ok_iff.1 hr
    exact iff_of_true hnone ⟨hfree, general, style, hgeneral, hstyle⟩
  · refine iff_of_false hsome fun ⟨hfree, hvalid⟩ => ?_
    exact hwhy.elim (fun htaken => htaken hfree) fun hinvalid => hinvalid hvalid

/-- A call that fails leaves the catalog as it is. -/
theorem after_eq_self (h : c.refusal? w ≠ none) : c.after w = c := by
  rcases c.after_cases w with ⟨-, hnone, -⟩ | ⟨-, -, hafter⟩
  · exact absurd hnone h
  · exact hafter

/-- A call puts what it offers under a name that is free, and does nothing else. -/
theorem get?_after (c : Catalog) (w : Widget) (name : String) :
    (c.after w).widgets.get? name = (c.widgets.get? name).or (offered? name w) := by
  rcases c.after_cases w with ⟨hfree, -, r, hr, hafter⟩ | ⟨hwhy, -, hafter⟩
  · rw [hafter]
    by_cases hname : w.name = name
    · subst hname
      rw [Dict.get?_put_self, hfree, offered?_eq_some_iff.2 ⟨rfl, hr⟩, Option.none_or]
    · rw [Dict.get?_put_of_ne _ (Ne.symm hname), offered?, if_neg hname, Option.or_none]
  · rw [hafter]
    cases hget : c.widgets.get? name with
    | some r => rfl
    | none =>
      refine (offered?_eq_none_iff.2 fun hname => ?_).symm
      exact hwhy.resolve_left fun htaken => htaken (hname ▸ hget)

theorem config_after (c : Catalog) (w : Widget) : (c.after w).config = c.config := by
  rcases c.after_cases w with ⟨-, -, r, -, hafter⟩ | ⟨-, -, hafter⟩ <;> rw [hafter]

theorem ordered_after (h : Dict.Ordered c.widgets) (w : Widget) :
    Dict.Ordered (c.after w).widgets := by
  rcases c.after_cases w with ⟨-, -, r, -, hafter⟩ | ⟨-, -, hafter⟩ <;> rw [hafter]
  · exact Dict.ordered_put h w.name r
  · exact h

/-- Two catalogs that have the same under the name of a type give the same answer
    to a call for it. -/
theorem refusal?_congr (h : c.widgets.get? w.name = c'.widgets.get? w.name) :
    c.refusal? w = c'.refusal? w := by
  rw [refusal?, refusal?, register, register, Dict.contains, Dict.contains, h]
  cases c'.widgets.get? w.name with
  | some r => rfl
  | none => cases build w <;> rfl

/-- Two catalogs in the order of names are the same if they have the same under
    all names. -/
theorem eq_of_get? (hc : Dict.Ordered c.widgets) (hc' : Dict.Ordered c'.widgets)
    (hconfig : c.config = c'.config)
    (hget : ∀ name, c.widgets.get? name = c'.widgets.get? name) : c = c' := by
  obtain ⟨config, widgets⟩ := c
  obtain ⟨config', widgets'⟩ := c'
  obtain rfl : config = config' := hconfig
  exact congrArg _ (Dict.ext_get? hc hc' hget)

/-! ### Runs -/

/-- The catalog after calls to register types, one after the other. -/
def afterAll (c : Catalog) (ws : List Widget) : Catalog :=
  ws.foldl after c

/-- The types of a run of calls, each with the error of its call. -/
def answers (c : Catalog) : List Widget → List (Widget × Option Error)
  | [] => []
  | w :: ws => (w, c.refusal? w) :: answers (c.after w) ws

/-- The first thing that the calls of a run offer for a name. -/
def firstOffered? (name : String) (ws : List Widget) : Option Registered :=
  ws.findSome? (offered? name)

/-- A run leaves under a name what was there, or else what is offered for it
    first. -/
theorem get?_afterAll (c : Catalog) (ws : List Widget) (name : String) :
    (c.afterAll ws).widgets.get? name = (c.widgets.get? name).or (firstOffered? name ws) := by
  induction ws generalizing c with
  | nil => simp [afterAll, firstOffered?]
  | cons w ws ih =>
    rw [afterAll, List.foldl_cons, ← afterAll, ih, get?_after, Option.or_assoc, firstOffered?,
      firstOffered?, List.findSome?_cons]
    cases offered? name w <;> rfl

theorem config_afterAll (c : Catalog) (ws : List Widget) : (c.afterAll ws).config = c.config :=
  List.foldlRecOn (motive := fun c' => c'.config = c.config) ws after rfl
    fun c' hc' w _ => (c'.config_after w).trans hc'

theorem ordered_afterAll (h : Dict.Ordered c.widgets) (ws : List Widget) :
    Dict.Ordered (c.afterAll ws).widgets :=
  List.foldlRecOn (motive := fun c => Dict.Ordered c.widgets) ws after h
    fun _ hc' w _ => ordered_after hc' w

theorem afterAll_append (c : Catalog) (ws ws' : List Widget) :
    c.afterAll (ws ++ ws') = (c.afterAll ws).afterAll ws' :=
  List.foldl_append

/-- What is offered for a name comes of the calls for it. -/
theorem firstOffered?_filter (name : String) (ws : List Widget) :
    firstOffered? name (ws.filter (·.name = name)) = firstOffered? name ws := by
  induction ws with
  | nil => rfl
  | cons w ws ih =>
    by_cases hname : w.name = name
    · rw [List.filter_cons_of_pos (by simpa using hname), firstOffered?, firstOffered?,
        List.findSome?_cons, List.findSome?_cons, ← firstOffered?, ← firstOffered?, ih]
    · rw [List.filter_cons_of_neg (by simpa using hname), ih, firstOffered?, firstOffered?,
        List.findSome?_cons, offered?, if_neg hname]

/-- Runs with the same calls for each type lead to the same catalog. -/
theorem afterAll_congr (hc : Dict.Ordered c.widgets)
    (h : ∀ name, ws.filter (·.name = name) = ws'.filter (·.name = name)) :
    c.afterAll ws = c.afterAll ws' := by
  refine eq_of_get? (ordered_afterAll hc ws) (ordered_afterAll hc ws') ?_ fun name => ?_
  · rw [config_afterAll, config_afterAll]
  · rw [get?_afterAll, get?_afterAll, ← firstOffered?_filter, h, firstOffered?_filter]

/-- The answers to the calls for a type depend on what a catalog has under its
    name alone. -/
theorem answers_congr (name : String) (h : c.widgets.get? name = c'.widgets.get? name)
    (hws : ∀ w ∈ ws, w.name = name) : c.answers ws = c'.answers ws := by
  induction ws generalizing c c' with
  | nil => rfl
  | cons w ws ih =>
    obtain ⟨hname, hws⟩ := List.forall_mem_cons.1 hws
    rw [answers, answers, refusal?_congr (hname ▸ h)]
    refine congrArg _ (ih ?_ hws)
    rw [get?_after, get?_after, h]

/-- The answers to the calls for a type are those of the run of these calls
    alone. -/
theorem filter_answers (c : Catalog) (ws : List Widget) (name : String) :
    (c.answers ws).filter (·.1.name = name) = c.answers (ws.filter (·.name = name)) := by
  induction ws generalizing c with
  | nil => rfl
  | cons w ws ih =>
    by_cases hname : w.name = name
    · rw [answers, List.filter_cons_of_pos (by simpa using hname),
        List.filter_cons_of_pos (by simpa using hname), answers, ih]
    · rw [answers, List.filter_cons_of_neg (by simpa using hname),
        List.filter_cons_of_neg (by simpa using hname), ih]
      -- A call for another type does not change what there is under the name.
      refine answers_congr name ?_ fun w' hw' => ?_
      · rw [get?_after, offered?, if_neg hname, Option.or_none]
      · simpa using (List.mem_filter.1 hw').2

/-! ### What a catalog answers -/

/-- The catalog that a run of calls fills. -/
def run (config : Config) (ws : List Widget) : Catalog :=
  (empty config).afterAll ws

variable {config : Config}

theorem config_run (config : Config) (ws : List Widget) : (run config ws).config = config :=
  config_afterAll _ ws

theorem ordered_run (config : Config) (ws : List Widget) :
    Dict.Ordered (run config ws).widgets :=
  ordered_afterAll (show Dict.Ordered [] from List.Pairwise.nil) ws

theorem get?_run (config : Config) (ws : List Widget) (name : String) :
    (run config ws).widgets.get? name = firstOffered? name ws :=
  get?_afterAll (empty config) ws name

theorem firstOffered?_eq_none_iff :
    firstOffered? name ws = none ↔ ∀ w ∈ ws, w.name = name → ¬w.Valid := by
  rw [firstOffered?, List.findSome?_eq_none_iff]
  exact forall₂_congr fun w _ => offered?_eq_none_iff

/-- A name is there exactly if some call for it was for a valid type. -/
theorem contains_run_iff : (run config ws).widgets.contains name = true ↔
    ∃ w ∈ ws, w.name = name ∧ w.Valid := by
  rw [Dict.contains, get?_run, Option.isSome_iff_ne_none, ne_eq, firstOffered?_eq_none_iff]
  simp only [Classical.not_forall, Classical.not_not, exists_prop]

/-- The name of a valid type leads to the first one. -/
theorem find_run {before : List Widget} {general style : Schema}
    (hgeneral : w.general = .ok general) (hstyle : w.style = .ok style)
    (hbefore : ∀ w' ∈ before, w'.name = w.name → ¬w'.Valid) (after : List Widget) :
    (run config (before ++ w :: after)).find w.name = .ok ⟨w, general, style⟩ := by
  have hoffered : offered? w.name w = some ⟨w, general, style⟩ :=
    offered?_eq_some_iff.2 ⟨rfl, build_eq_ok_iff.2 ⟨general, style, hgeneral, hstyle, rfl⟩⟩
  have hfirst : firstOffered? w.name (before ++ w :: after) = some ⟨w, general, style⟩ := by
    rw [firstOffered?, List.findSome?_append, ← firstOffered?, firstOffered?_eq_none_iff.2 hbefore,
      List.findSome?_cons, hoffered, Option.none_or]
  rw [find, get?_run, hfirst]

/-- The style sheet of an instance has the rules of its general settings in front of
    those of its looks. -/
theorem css_of_find (h : c.find name = .ok r) (id : String) (settings : InstanceSettings)
    (sectionId : Option String) : c.css name id settings sectionId = .ok
      ((r.general.compile settings.general c.config id sectionId).toText ++
        (r.style.compile settings.style c.config id sectionId).toText) := by
  rw [css, h, Except.map, Registered.sheet, Sheet.toText_append]

/-- There is a style sheet exactly for the names that are there. -/
theorem exists_css_iff (id : String) (settings : InstanceSettings) (sectionId : Option String) :
    (∃ text, c.css name id settings sectionId = .ok text) ↔ c.widgets.contains name = true := by
  rw [css, find, Dict.contains]
  cases c.widgets.get? name <;> simp [Except.map]

/-- A call succeeds exactly if it is the first one for a valid type of its name. -/
theorem refusal?_run_iff : (run config ws).refusal? w = none ↔
    w.Valid ∧ ∀ w' ∈ ws, w'.name = w.name → ¬w'.Valid := by
  rw [refusal?_eq_none_iff, get?_run, firstOffered?_eq_none_iff, and_comm]

/-- A call that fails could as well be left out. -/
theorem run_of_refusal? {before : List Widget} (h : (run config before).refusal? w ≠ none)
    (after : List Widget) : run config (before ++ w :: after) = run config (before ++ after) := by
  rw [run, run, afterAll_append, afterAll_append, ← run, afterAll, List.foldl_cons,
    after_eq_self h, ← afterAll]

/-- What a catalog answers after any run of calls to register types.

    * A name is there exactly if some call for it was for a valid type, and
      exactly then there are style sheets for it.
    * The first such call decides what is found, what the style sheet is, the rules
      of the general schema in front of those of the other one, and what the markup
      is.
    * No other call succeeds, and one that fails could as well be left out.
    * The names ascend strictly.
    * Calls for different types may be reordered: the catalog is the same, and so
      are the answers to the calls for each type. -/
theorem run_answers (config : Config) (ws : List Widget) :
    (∀ name, ((run config ws).widgets.contains name = true ↔ ∃ w ∈ ws, w.name = name ∧ w.Valid) ∧
      ∀ id settings sectionId, (∃ text, (run config ws).css name id settings sectionId = .ok text) ↔
        (run config ws).widgets.contains name = true) ∧
    (∀ before w after general style, ws = before ++ w :: after →
      w.general = .ok general → w.style = .ok style →
      (∀ w' ∈ before, w'.name = w.name → ¬w'.Valid) →
        (run config ws).find w.name = .ok ⟨w, general, style⟩ ∧
        ∀ id settings sectionId,
          (run config ws).css w.name id settings sectionId = .ok
            ((general.compile settings.general config id sectionId).toText ++
              (style.compile settings.style config id sectionId).toText) ∧
          (run config ws).render w.name id settings =
            (w.render ⟨id, settings, general, style⟩).mapError .render) ∧
    (∀ before w after, ws = before ++ w :: after →
      ((run config before).refusal? w = none ↔
        w.Valid ∧ ∀ w' ∈ before, w'.name = w.name → ¬w'.Valid) ∧
      ((run config before).refusal? w ≠ none → run config ws = run config (before ++ after))) ∧
    ((run config ws).names.Pairwise (· < ·) ∧
      ∀ name, name ∈ (run config ws).names ↔ (run config ws).widgets.contains name = true) ∧
    ∀ ws', (∀ name, ws.filter (·.name = name) = ws'.filter (·.name = name)) →
      run config ws = run config ws' ∧
      ∀ name, ((empty config).answers ws).filter (·.1.name = name) =
        ((empty config).answers ws').filter (·.1.name = name) := by
  refine ⟨fun name => ⟨contains_run_iff, fun id settings sectionId =>
    exists_css_iff id settings sectionId⟩, ?_, ?_, ⟨?_, fun name => Dict.mem_keys_iff⟩, ?_⟩
  · rintro before w after general style rfl hgeneral hstyle hbefore
    have hfind : (run config (before ++ w :: after)).find w.name = .ok ⟨w, general, style⟩ :=
      find_run hgeneral hstyle hbefore after
    refine ⟨hfind, fun id settings sectionId => ⟨?_, ?_⟩⟩
    · rw [css_of_find hfind, config_run]
    · rw [render, hfind]
      rfl
  · rintro before w after rfl
    exact ⟨refusal?_run_iff, fun hfails => run_of_refusal? hfails after⟩
  · exact List.pairwise_map.2 (ordered_run config ws)
  · intro ws' h
    refine ⟨afterAll_congr List.Pairwise.nil h, fun name => ?_⟩
    rw [filter_answers, filter_answers, h]

/-- A title with a width. -/
def titleSteps : List Schema.Step :=
  [.openGroup "content" "Content",
    .labelled .text "title" "Title" [.default (.str "New")],
    .labelled .number "width" "Width" [.default (.ofNat 12),
      .styles "\x7b\x7bWRAPPER\x7d\x7d" "width: \x7b\x7bVALUE\x7d\x7dpx;"]]

/-- A color. -/
def toneSteps : List Schema.Step :=
  [.openGroup "look" "Look",
    .labelled .color "tone" "Tone" [.default (.str "red"),
      .styles "\x7b\x7bWRAPPER\x7d\x7d" "color: \x7b\x7bVALUE\x7d\x7d;"]]

/-- A type with a color, which shows its title. -/
def titledWidget (name : String) (general : Except Schema.Error Schema) : Widget where
  name
  general
  style := Schema.ofSteps .style toneSteps
  render i := .ok (i.escaped "content.title")

/-- Settings of a title with a width of its own. -/
def titledSettings : InstanceSettings where
  general := ⟨.obj [("content", .obj [("title", .str "A & B"), ("width", .ofNat 24)])]⟩
  style := .empty

/-- A badge whose first call failed is there by its second one, with its width in
    front of its color in the sheet, and neither the failure nor the place of a card
    in between matters. -/
theorem badge_registered_again : ∃ broken badge card general style,
    Schema.ofSteps .general titleSteps = .ok general ∧ Schema.ofSteps .style toneSteps = .ok style ∧
    broken = titledWidget "badge" (.error .noGroup) ∧
    badge = titledWidget "badge" (Schema.ofSteps .general titleSteps) ∧
    card = titledWidget "card" (Schema.ofSteps .general titleSteps) ∧
    (run .standard [broken, card, badge]).find "badge" = .ok ⟨badge, general, style⟩ ∧
    (run .standard [broken, card, badge]).css "badge" "b" titledSettings none =
      .ok "#b \x7b width: 24px; \x7d\n#b \x7b color: red; \x7d\n" ∧
    (run .standard [broken, card, badge]).render "badge" "b" titledSettings = .ok "A &amp; B" ∧
    run .standard [broken, card, badge] = run .standard [card, badge] ∧
    run .standard [broken, card, badge] = run .standard [broken, badge, card] := by
  obtain ⟨general, hgeneral, hq⟩ := Schema.exists_of_any .general titleSteps (fun s =>
    (s.compile titledSettings.general .standard "b" none).toText =
        "#b \x7b width: 24px; \x7d\n" &&
      Instance.escaped ⟨"b", titledSettings, s, .empty .style⟩ "content.title" = "A &amp; B")
    (by decide +kernel)
  obtain ⟨style, hstyle, htone⟩ := Schema.exists_of_any .style toneSteps (fun s =>
    (s.compile titledSettings.style .standard "b" none).toText = "#b \x7b color: red; \x7d\n")
    (by decide +kernel)
  simp only [Bool.and_eq_true, decide_eq_true_eq] at hq htone
  obtain ⟨hwidth, htitle⟩ := hq
  obtain ⟨-, hfirst, hcalls, -, hreorder⟩ := run_answers .standard
    [titledWidget "badge" (.error .noGroup),
      titledWidget "card" (Schema.ofSteps .general titleSteps),
      titledWidget "badge" (Schema.ofSteps .general titleSteps)]
  obtain ⟨hfind, hanswers⟩ := hfirst [_, _] _ [] general style rfl hgeneral hstyle
    fun w hw hname hvalid => by
      obtain ⟨_, _, hvalid, -⟩ := hvalid
      rcases List.mem_cons.1 hw with rfl | hw
      · cases hvalid
      · rw [List.mem_singleton.1 hw] at hname
        exact absurd hname (by decide)
  obtain ⟨hcss, hrender⟩ := hanswers "b" titledSettings none
  refine ⟨_, _, _, general, style, hgeneral, hstyle, rfl, rfl, rfl, hfind, ?_, ?_, ?_, ?_⟩
  · rw [hwidth, htone] at hcss
    exact hcss
  · exact hrender.trans (congrArg Except.ok htitle)
  · refine (hcalls [] _ _ rfl).2 ?_
    nofun
  · refine (hreorder _ fun name => ?_).1
    by_cases hbadge : "badge" = name
    · subst hbadge
      rfl
    · simp [titledWidget, List.filter, hbadge]

end Catalog

end ScopedStyle
