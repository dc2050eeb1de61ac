import Mathlib.Data.List.Nodup
import ScopedStyle.Proofs.Field.Accepted
import ScopedStyle.Schema.Draft

/-!
# Construction of schemas

A draft stands for the schema that it would be finished as, with all open
scopes closed (`Draft.finish`). Seen this way, closing a scope does nothing, and
any other step adds one thing at the end of what is there: a tab, a group, a
group in the last tab, or a field in the last group (`Schema.Extends`). What a
step adds has been checked against its siblings.

Hence every schema that is written down step by step is *well-formed*: keys are
keys, siblings have different ones, and every field is an accepted one
(`Schema.ofSteps_wellFormed`).
-/

namespace ScopedStyle

/-- The keys of the fields of a group differ, and all of them are accepted. -/
structure Group.WellFormed (g : Group) : Prop where
  isKey : Path.isKey g.key = true
  nodup : (g.fields.map Field.key).Nodup
  accepted : ∀ f ∈ g.fields, f.Accepted

/-- The keys of the groups of a tab differ, and all of them are well-formed. -/
structure Tab.WellFormed (t : Tab) : Prop where
  isKey : Path.isKey t.key = true
  nodup : (t.groups.map Group.key).Nodup
  groups : ∀ g ∈ t.groups, g.WellFormed

/-- What stands at the root is well-formed. -/
def Node.WellFormed : Node → Prop
  | .tab t => t.WellFormed
  | .group g => g.WellFormed

/-- The keys at the root differ, and all that stands there is well-formed. -/
structure Schema.WellFormed (s : Schema) : Prop where
  nodup : (s.nodes.map Node.key).Nodup
  nodes : ∀ n ∈ s.nodes, n.WellFormed

/-! ### One more part at the end -/

/-- The keys of a list with one more element differ when the new one has a key
    of its own. -/
theorem nodup_map_snoc_iff {α : Type} {key : α → String} {l : List α} {a : α} :
    ((l ++ [a]).map key).Nodup ↔ (l.map key).Nodup ∧ ∀ b ∈ l, key b ≠ key a := by
  rw [List.map_append, List.map_singleton, List.nodup_append']
  simp [List.disjoint_singleton]

theorem Group.WellFormed.snoc {g : Group} (hg : g.WellFormed) {f : Field} (hf : f.Accepted)
    (hkey : ∀ f' ∈ g.fields, f'.key ≠ f.key) :
    Group.WellFormed { g with fields := g.fields ++ [f] } where
  isKey := hg.isKey
  nodup := nodup_map_snoc_iff.2 ⟨hg.nodup, hkey⟩
  accepted f' hf' := by
    rcases List.mem_append.1 hf' with h | h
    · exact hg.accepted f' h
    · rwa [List.mem_singleton.1 h]

theorem Group.wellFormed_empty {key : String} (h : Path.isKey key = true) (label : String) :
    Group.WellFormed ⟨key, label, []⟩ :=
  ⟨h, List.nodup_nil, fun _ hf => absurd hf List.not_mem_nil⟩

/-- The parts of a tab, the last group apart from the others. -/
theorem Tab.wellFormed_snoc_iff {key label : String} {gs : List Group} {g : Group} :
    Tab.WellFormed ⟨key, label, gs ++ [g]⟩ ↔
      Tab.WellFormed ⟨key, label, gs⟩ ∧ g.WellFormed ∧ ∀ g' ∈ gs, g'.key ≠ g.key := by
  constructor
  · intro h
    obtain ⟨hnodup, hkey⟩ := nodup_map_snoc_iff.1 h.nodup
    exact ⟨⟨h.isKey, hnodup, fun g' hg' => h.groups g' (List.mem_append_left _ hg')⟩,
      h.groups g (List.mem_append_right _ (List.mem_singleton_self g)), hkey⟩
  · rintro ⟨ht, hg, hkey⟩
    refine ⟨ht.isKey, nodup_map_snoc_iff.2 ⟨ht.nodup, hkey⟩, fun g' hg' => ?_⟩
    rcases List.mem_append.1 hg' with h | h
    · exact ht.groups g' h
    · rwa [List.mem_singleton.1 h]

/-- The parts of a schema, the last node apart from the others. -/
theorem Schema.wellFormed_snoc_iff {c : Category} {ns : List Node} {n : Node} :
    Schema.WellFormed ⟨c, ns ++ [n]⟩ ↔
      Schema.WellFormed ⟨c, ns⟩ ∧ n.WellFormed ∧ ∀ m ∈ ns, m.key ≠ n.key := by
  constructor
  · intro h
    obtain ⟨hnodup, hkey⟩ := nodup_map_snoc_iff.1 h.nodup
    exact ⟨⟨hnodup, fun m hm => h.nodes m (List.mem_append_left _ hm)⟩,
      h.nodes n (List.mem_append_right _ (List.mem_singleton_self n)), hkey⟩
  · rintro ⟨hs, hn, hkey⟩
    refine ⟨nodup_map_snoc_iff.2 ⟨hs.nodup, hkey⟩, fun m hm => ?_⟩
    rcases List.mem_append.1 hm with h | h
    · exact hs.nodes m h
    · rwa [List.mem_singleton.1 h]

/-! ### Steps -/

namespace Schema

/-- What one step of a draft does to the schema that the draft stands for. -/
inductive Extends : Schema → Schema → Prop
  /-- Nothing, when it closes a scope. -/
  | refl (s : Schema) : Extends s s
  /-- A tab at the end of the root. -/
  | tab {c : Category} {ns : List Node} {key label : String} (hkey : Path.isKey key = true)
      (hnew : ∀ n ∈ ns, n.key ≠ key) : Extends ⟨c, ns⟩ ⟨c, ns ++ [.tab ⟨key, label, []⟩]⟩
  /-- A group at the end of the root. -/
  | group {c : Category} {ns : List Node} {key label : String} (hkey : Path.isKey key = true)
      (hnew : ∀ n ∈ ns, n.key ≠ key) : Extends ⟨c, ns⟩ ⟨c, ns ++ [.group ⟨key, label, []⟩]⟩
  /-- A group at the end of the last tab. -/
  | tabGroup {c : Category} {ns : List Node} {t : Tab} {key label : String}
      (hkey : Path.isKey key = true) (hnew : ∀ g ∈ t.groups, g.key ≠ key) :
      Extends ⟨c, ns ++ [.tab t]⟩
        ⟨c, ns ++ [.tab { t with groups := t.groups ++ [⟨key, label, []⟩] }]⟩
  /-- A field at the end of the last group. -/
  | field {c : Category} {ns : List Node} {g : Group} {f : Field} (hf : f.Accepted)
      (hnew : ∀ f' ∈ g.fields, f'.key ≠ f.key) :
      Extends ⟨c, ns ++ [.group g]⟩ ⟨c, ns ++ [.group { g with fields := g.fields ++ [f] }]⟩
  /-- A field at the end of the last group of the last tab. -/
  | tabField {c : Category} {ns : List Node} {t : Tab} {gs : List Group} {g : Group} {f : Field}
      (hf : f.Accepted) (hnew : ∀ f' ∈ g.fields, f'.key ≠ f.key) :
      Extends ⟨c, ns ++ [.tab { t with groups := gs ++ [g] }]⟩
        ⟨c, ns ++ [.tab { t with groups := gs ++ [{ g with fields := g.fields ++ [f] }] }]⟩

/-- A well-formed schema stays so with one step. -/
theorem WellFormed.extend {s s' : Schema} (hs : s.WellFormed) (h : Extends s s') :
    s'.WellFormed := by
  cases h with
  | refl => exact hs
  | tab hkey hnew =>
    exact wellFormed_snoc_iff.2 ⟨hs, ⟨hkey, List.nodup_nil, fun _ h => absurd h List.not_mem_nil⟩,
      hnew⟩
  | group hkey hnew => exact wellFormed_snoc_iff.2 ⟨hs, Group.wellFormed_empty hkey _, hnew⟩
  | tabGroup hkey hnew =>
    obtain ⟨hns, ht, hroot⟩ := wellFormed_snoc_iff.1 hs
    exact wellFormed_snoc_iff.2
      ⟨hns, Tab.wellFormed_snoc_iff.2 ⟨ht, Group.wellFormed_empty hkey _, hnew⟩, hroot⟩
  | field hf hnew =>
    obtain ⟨hns, hg, hroot⟩ := wellFormed_snoc_iff.1 hs
    exact wellFormed_snoc_iff.2 ⟨hns, Group.WellFormed.snoc hg hf hnew, hroot⟩
  | tabField hf hnew =>
    obtain ⟨hns, ht, hroot⟩ := wellFormed_snoc_iff.1 hs
    obtain ⟨hgs, hg, htab⟩ := Tab.wellFormed_snoc_iff.1 ht
    exact wellFormed_snoc_iff.2
      ⟨hns, Tab.wellFormed_snoc_iff.2 ⟨hgs, hg.snoc hf hnew, htab⟩, hroot⟩

/-- A step after another fails with the first one, or goes on with its result. -/
theorem bind_eq_ok {ε α β : Type} {x : Except ε α} {next : α → Except ε β} {b : β}
    (h : (x >>= next) = .ok b) : ∃ a, x = .ok a ∧ next a = .ok b := by
  cases x with
  | error e => cases h
  | ok a => exact ⟨a, rfl, h⟩

namespace Draft

variable {d d' : Draft}

theorem finish_closeGroup (d : Draft) : d.closeGroup.finish = d.finish := by
  obtain ⟨c, ns, _ | t, _ | g⟩ := d <;> rfl

theorem finish_closeTab (d : Draft) : d.closeTab.finish = d.finish := by
  obtain ⟨c, ns, _ | t, _ | g⟩ := d <;> rfl

/-- Without open scopes nothing is left to finish. -/
theorem closeTab_eq (d : Draft) : d.closeTab = ⟨d.finish.category, d.finish.nodes, none, none⟩ := by
  obtain ⟨c, ns, _ | t, _ | g⟩ := d <;> rfl

theorem group?_closeGroup (d : Draft) : d.closeGroup.group? = none := by
  obtain ⟨c, ns, _ | t, _ | g⟩ := d <;> rfl

theorem isKey_of_checkHeading {key label : String} {u : Unit}
    (h : checkHeading key label = .ok u) : Path.isKey key = true := by
  cases hkey : Path.isKey key with
  | true => rfl
  | false => simp [checkHeading, hkey] at h

theorem not_usesKey {key : String} (h : ¬d.usesKey key = true) : ∀ n ∈ d.nodes, n.key ≠ key := by
  simpa [usesKey] using h

theorem openTab_extends {key label : String} (h : d.openTab key label = .ok d') :
    Extends d.finish d'.finish := by
  obtain ⟨u, hheading, h⟩ := bind_eq_ok h
  split at h
  · cases h
  rename_i hnew
  cases h
  rw [closeTab_eq] at hnew ⊢
  exact .tab (isKey_of_checkHeading hheading) (not_usesKey hnew)

theorem openGroup_extends {key label : String} (h : d.openGroup key label = .ok d') :
    Extends d.finish d'.finish := by
  obtain ⟨u, hheading, h⟩ := bind_eq_ok h
  have hkey := isKey_of_checkHeading hheading
  rw [← finish_closeGroup d]
  -- The group before is closed first, so no group is open where the new one is added.
  have hclosed := group?_closeGroup d
  generalize d.closeGroup = closed at h hclosed ⊢
  obtain ⟨c, ns, _ | t, g?⟩ := closed
  · subst hclosed
    dsimp only at h
    split at h
    · cases h
    rename_i hnew
    cases h
    exact .group hkey (not_usesKey hnew)
  · subst hclosed
    dsimp only at h
    split at h
    · cases h
    rename_i hnew
    cases h
    refine .tabGroup hkey ?_
    simpa [Tab.group?] using hnew

theorem addField_extends {f : Field} (hf : f.Accepted) (h : d.addField f = .ok d') :
    Extends d.finish d'.finish := by
  obtain ⟨c, ns, t?, _ | g⟩ := d
  · cases h
  rw [addField] at h
  dsimp only at h
  split at h
  · cases h
  rename_i hnew
  have hnew : ∀ f' ∈ g.fields, f'.key ≠ f.key := by simpa [Group.field?] using hnew
  cases h
  cases t? with
  | none => exact .field hf hnew
  | some t => exact .tabField hf hnew

/-- A step that can be taken extends the schema that the draft stands for. -/
theorem take_extends {step : Step} (h : d.take step = .ok d') : Extends d.finish d'.finish := by
  cases step with
  | openTab key label => exact openTab_extends h
  | openGroup key label => exact openGroup_extends h
  | field kindName attributes =>
    obtain ⟨f, hf, h⟩ := bind_eq_ok h
    refine addField_extends ⟨kindName, attributes, ?_⟩ h
    -- An error of the field would have been passed on.
    cases hmade : Field.ofAttributes kindName attributes with
    | error e => simp [hmade, Except.mapError] at hf
    | ok made =>
      rw [hmade] at hf
      cases hf
      rfl
  | closeGroup =>
    cases h
    rw [finish_closeGroup]
    exact .refl _
  | closeTab =>
    cases h
    rw [finish_closeTab]
    exact .refl _

/-- What every step keeps is kept by all steps of a draft. -/
theorem foldlM_take_keeps {P : Schema → Prop} (hkeeps : ∀ s s', Extends s s' → P s → P s')
    {steps : List Step} (h : steps.foldlM take d = .ok d') (hd : P d.finish) : P d'.finish := by
  -- The invariant is about the draft as it would be finished after each step.
  induction steps generalizing d with
  | nil =>
    cases h
    exact hd
  | cons step steps ih =>
    rw [List.foldlM_cons] at h
    obtain ⟨next, hstep, hrest⟩ := bind_eq_ok h
    exact ih hrest (hkeeps _ _ (take_extends hstep) hd)

end Draft

/-- A schema that is written down by steps is the draft after the last one. -/
theorem exists_draft_of_ofSteps {c : Category} {steps : List Step} {s : Schema}
    (h : ofSteps c steps = .ok s) :
    ∃ d, steps.foldlM Draft.take (.start c) = .ok d ∧ d.finish = s := by
  rw [ofSteps] at h
  cases hd : steps.foldlM Draft.take (.start c) with
  | error e => simp [hd, Except.map] at h
  | ok d =>
    rw [hd] at h
    cases h
    exact ⟨d, rfl, rfl⟩

/-- Every schema that is written down by steps is well-formed. -/
theorem ofSteps_wellFormed {c : Category} {steps : List Step} {s : Schema}
    (h : ofSteps c steps = .ok s) : s.WellFormed := by
  obtain ⟨d, hd, rfl⟩ := exists_draft_of_ofSteps h
  have hempty : WellFormed ⟨c, []⟩ := ⟨List.nodup_nil, fun _ h => absurd h List.not_mem_nil⟩
  exact Draft.foldlM_take_keeps (fun _ _ hextends hs => hs.extend hextends) hd hempty

/-- Steps do not change what the schema describes. -/
theorem Extends.category_eq {s s' : Schema} (h : Extends s s') : s'.category = s.category := by
  cases h <;> rfl

theorem category_of_ofSteps {c : Category} {steps : List Step} {s : Schema}
    (h : ofSteps c steps = .ok s) : s.category = c := by
  obtain ⟨d, hd, rfl⟩ := exists_draft_of_ofSteps h
  exact Draft.foldlM_take_keeps (fun _ _ hextends hs => hextends.category_eq.trans hs) hd rfl

end Schema

end ScopedStyle
