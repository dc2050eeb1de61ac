import ScopedStyle.Field.RuleList
import ScopedStyle.Proofs.Field.Accepted
import ScopedStyle.Proofs.Template.StrictText

/-!
# Written rules at run time

The text of a written rule is checked by the strict reading, and what the
program makes of it later is read by the lenient one. The two agree on the texts
that the strict one accepts, so the check is a promise about the run: the
selectors of the rules have no placeholder but that of the wrapper, and their
declarations only those that are known (`placeholders_of_expand`).

The check opens one text at a time (`checkText_eq_ok_iff`), then one rule
(`check_eq_ok_iff`), then the whole list.
-/

namespace ScopedStyle

namespace WrittenRule

/-- The rule that a written one makes. -/
def toRule : WrittenRule → Rule
  | .declared selector body => .declared ⟨selector⟩ ⟨body⟩
  | .composed selectors => .composed (selectors.map Template.mk)

variable {place : Place} {text : String}

/-- A text passes when it is strict, and may have all of its placeholders. -/
theorem checkText_eq_ok_iff : checkText place text = .ok () ↔
    Segment.WellBraced (Template.mk text).segments ∧
      ∀ name ∈ (Template.mk text).placeholders, name ∈ place.names := by
  rw [checkText]
  cases hnames : Placeholder.strictNames text with
  | error m =>
    -- Well braced segments would have been read without a mistake.
    have hill : ¬Segment.WellBraced (Template.mk text).segments := by
      intro h
      cases hnames.symm.trans (Template.strictNames_eq_ok_iff.2 ⟨h, rfl⟩)
    simp [hill]
  | ok names =>
    obtain ⟨hwell, rfl⟩ := Template.strictNames_eq_ok_iff.1 hnames
    simp only [hwell, true_and]
    split
    · rename_i name hfind
      simp only [reduceCtorEq, false_iff, not_forall]
      exact ⟨name, List.mem_of_find?_eq_some hfind, by simpa using List.find?_some hfind⟩
    · rename_i hfind
      simpa using hfind

/-- Checks one after the other pass when each of them does. -/
theorem forM_eq_ok_iff {α : Type} {f : α → Except Error Unit} {l : List α} :
    forM l f = .ok () ↔ ∀ x ∈ l, f x = .ok () := by
  induction l with
  | nil => simp [pure, Except.pure]
  | cons a l ih =>
    rw [List.forM_cons, List.forall_mem_cons, ← ih]
    cases f a <;> simp [bind, Except.bind]

/-- The check of a rule is that of all its texts. -/
theorem check_eq_ok_iff {rule : WrittenRule} : rule.check = .ok () ↔
    (∀ selector ∈ rule.toRule.selectors, checkText .selector selector.source = .ok ()) ∧
      ∀ body, rule.toRule.body? = some body → checkText .body body.source = .ok () := by
  cases rule with
  | declared selector body =>
    cases h : checkText .selector selector <;>
      simp [check, toRule, Rule.selectors, Rule.body?, bind, Except.bind, h]
  | composed selectors => simp [check, toRule, Rule.selectors, Rule.body?, forM_eq_ok_iff]

/-- A list of rules that is expanded has passed all checks. -/
theorem check_of_expand_eq_ok {rules : List WrittenRule} {code : String}
    (h : expand rules = .ok code) {rule : WrittenRule} (hrule : rule ∈ rules) :
    rule.check = .ok () := by
  rw [expand] at h
  split at h
  · cases h
  · refine forM_eq_ok_iff.1 ?_ rule hrule
    cases hchecks : forM rules check with
    | error e =>
      rw [List.forM_eq_forM, hchecks] at h
      cases h
    | ok u => rfl

/-- What expanded rules read at run time: selectors have the placeholder of the
    wrapper alone, and declarations those that are known. -/
theorem placeholders_of_expand {rules : List WrittenRule} {code : String}
    (h : expand rules = .ok code) {r : Rule} (hr : r ∈ rules.map toRule) :
    (∀ selector ∈ r.selectors, ∀ name ∈ selector.placeholders, name = Placeholder.wrapper) ∧
      ∀ body, r.body? = some body → ∀ name ∈ body.placeholders, name ∈ bodyNames := by
  obtain ⟨rule, hrule, rfl⟩ := List.mem_map.1 hr
  obtain ⟨hselectors, hbody⟩ := check_eq_ok_iff.1 (check_of_expand_eq_ok h hrule)
  constructor
  · intro selector hselector name hname
    have := (checkText_eq_ok_iff.1 (hselectors selector hselector)).2 name hname
    simpa [Place.names, selectorNames, Placeholder.wrapper] using this
  · intro body heq name hname
    exact (checkText_eq_ok_iff.1 (hbody body heq)).2 name hname

/-- The check of written rules and the reading of templates at run time find the
    same placeholders:

    * a text is strict exactly when its literals keep no pair of braces and no
      opening brace in front of a placeholder, and the strict names are then the
      placeholders of the template, in order,
    * rules that pass have only the placeholder of the wrapper in their selectors
      and only known ones in their declarations,
    * what the strict reading cuts out between the first two pairs is there: the
      text is made of it, of the pairs, and of what is on either side. -/
theorem check_agrees_with_reading :
    (∀ (text : String) (names : List String), Placeholder.strictNames text = .ok names ↔
      Segment.WellBraced (Template.mk text).segments ∧
        names = (Template.mk text).placeholders) ∧
    (∀ (rules : List WrittenRule) (code : String), expand rules = .ok code →
      ∀ r ∈ rules.map toRule,
        (∀ selector ∈ r.selectors, ∀ name ∈ selector.placeholders,
          name = Placeholder.wrapper) ∧
        ∀ body, r.body? = some body → ∀ name ∈ body.placeholders, name ∈ bodyNames) ∧
    (∀ cs before opened upTo closed,
      Placeholder.splitAtPair? '{' cs = some (before, opened) →
      Placeholder.splitAtPair? '}' cs = some (upTo, closed) → before.length ≤ upTo.length →
      before.length + 2 ≤ upTo.length ∧
        cs = before ++ '{' :: '{' :: (upTo.drop (before.length + 2) ++ '}' :: '}' :: closed)) := by
  refine ⟨fun text names => ?_, fun rules code h r => placeholders_of_expand h, ?_⟩
  · rw [eq_comm (a := names)]
    exact Template.strictNames_eq_ok_iff
  · intro cs before opened upTo closed hopen hclose hle
    obtain ⟨name, rfl, rfl⟩ := Placeholder.between_of_splitAtPair? hopen hclose hle
    obtain ⟨rfl, -⟩ := Placeholder.splitAtPair?_eq_some_iff.1 hopen
    constructor
    · simp
    · simp

/-- A rule with a placeholder on both sides is expanded and keeps what is
    promised of it. A brace too many touches the placeholder and is found, and the
    first two pairs of a text have a name between them. -/
theorem check_agrees_with_reading_box :
    expand [.declared "\x7b\x7bWRAPPER\x7d\x7d .box" "top: \x7b\x7bVALUE.TOP\x7d\x7d;"] =
      .ok (":: std :: vec ! [:: widget_style :: field :: SelectorRule :: template " ++
        "(\"\x7b\x7bWRAPPER\x7d\x7d .box\" , \"top: \x7b\x7bVALUE.TOP\x7d\x7d;\")]") ∧
    (∀ name ∈ (Template.mk "top: \x7b\x7bVALUE.TOP\x7d\x7d;").placeholders, name ∈ bodyNames) ∧
    ¬Segment.WellBraced (Template.mk "\x7b\x7b\x7bVALUE\x7d\x7d").segments ∧
    "a\x7b\x7bB\x7d\x7d".toList = ['a'] ++ '{' :: '{' :: (['B'] ++ ['}', '}']) := by
  obtain ⟨htexts, hrules, hcut⟩ := check_agrees_with_reading
  have hexpand : expand
      [.declared "\x7b\x7bWRAPPER\x7d\x7d .box" "top: \x7b\x7bVALUE.TOP\x7d\x7d;"] =
      .ok (":: std :: vec ! [:: widget_style :: field :: SelectorRule :: template " ++
        "(\"\x7b\x7bWRAPPER\x7d\x7d .box\" , \"top: \x7b\x7bVALUE.TOP\x7d\x7d;\")]") := by
    decide +kernel
  refine ⟨hexpand, (hrules _ _ hexpand _ List.mem_cons_self).2 _ rfl, fun h => ?_, ?_⟩
  · have hstrict := (htexts "\x7b\x7b\x7bVALUE\x7d\x7d" _).2 ⟨h, rfl⟩
    revert hstrict
    decide +kernel
  · exact (hcut "a\x7b\x7bB\x7d\x7d".toList ['a'] ['B', '}', '}'] ['a', '{', '{', 'B'] []
      (by decide +kernel) (by decide +kernel) (by decide)).2

end WrittenRule

end ScopedStyle
