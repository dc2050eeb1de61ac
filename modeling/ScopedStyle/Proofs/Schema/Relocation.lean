import ScopedStyle.Proofs.Schema.Addressing
import ScopedStyle.Schema.Effective

/-!
# Schemas moved into a tab

The groups at the root of a schema can be moved into a tab
(`Schema.inTab`). Every path is one key longer then, and the settings are stored
one level deeper (`Tree.below`).

* A schema that is written down without tabs can be written down again inside of
  one, step by step: what a step checks against the groups at the root is now
  checked against the groups of the tab (`Schema.ofSteps_inTab`).
* The fields are the same, each found at its path below the key of the tab
  (`Schema.WellFormed.field?_inTab`), with the same effective value
  (`Schema.WellFormed.effective?_inTab`).
* A condition on siblings goes along, as the path of a sibling is found from the
  group of the field (`Clause.target_below`). A path from the root would not.
-/

namespace ScopedStyle

/-! ### One level deeper -/

/-- The path below a key. -/
def Path.below (p : Path) (key : String) : Path :=
  ⟨key :: p.segments⟩

/-- The settings below a key. -/
def Tree.below (t : Tree) (key : String) : Tree :=
  ⟨.obj [(key, t.root)]⟩

/-- The field in a group below a key. -/
def Entry.below (e : Entry) (key : String) : Entry :=
  ⟨e.group.below key, e.field⟩

theorem Path.below_inj {p q : Path} {key : String} : p.below key = q.below key ↔ p = q := by
  obtain ⟨ps⟩ := p
  obtain ⟨qs⟩ := q
  simp [below]

/-- What is stored is found one level deeper, whatever the settings are. -/
theorem Tree.get?_below (t : Tree) (p : Path) (key : String) :
    (t.below key).get? (p.below key) = t.get? p := by
  have hfield : (Json.obj [(key, t.root)]).field? key = some t.root := by
    simp [Json.field?, Json.entries, Dict.get?]
  rw [Tree.get?, Tree.get?, below, Path.below, Json.descend?, hfield, Option.bind_some]

/-- The group that stands at the root. -/
def Node.group? : Node → Option Group
  | .tab _ => none
  | .group g => some g

namespace Schema

/-- The groups at the root. -/
def groups (s : Schema) : List Group :=
  s.nodes.filterMap Node.group?

/-- The groups at the root moved into a tab. -/
def inTab (s : Schema) (key label : String) : Schema :=
  ⟨s.category, [.tab ⟨key, label, s.groups⟩]⟩

/-- Without tabs the groups are all that stands at the root. -/
theorem nodes_eq_map_groups {s : Schema} (hroot : ∀ t, .tab t ∉ s.nodes) :
    s.nodes = s.groups.map .group := by
  obtain ⟨c, nodes⟩ := s
  change nodes = (nodes.filterMap Node.group?).map .group
  induction nodes with
  | nil => rfl
  | cons n nodes ih =>
    cases n with
    | tab t => exact absurd List.mem_cons_self (hroot t)
    | group g => exact congrArg (_ :: ·) (ih fun t ht => hroot t (List.mem_cons_of_mem _ ht))

theorem groups_map (c : Category) (gs : List Group) : groups ⟨c, gs.map .group⟩ = gs := by
  rw [groups, List.filterMap_map]
  exact List.filterMap_some

/-! ### Drafts -/

/-- The step inside of a tab, which stays open. -/
def Step.inTab : Step → Step
  | .closeTab => .closeGroup
  | step => step

/-- No step takes a tab away. -/
theorem Extends.exists_tab_mem {s s' : Schema} (h : Extends s s') (htab : ∃ t, .tab t ∈ s.nodes) :
    ∃ t, .tab t ∈ s'.nodes := by
  obtain ⟨t, ht⟩ := htab
  cases h with
  | refl => exact ⟨t, ht⟩
  | tab | group => exact ⟨t, List.mem_append_left _ ht⟩
  | tabGroup | tabField => exact ⟨_, List.mem_append_right _ (List.mem_singleton_self _)⟩
  | field =>
    rcases List.mem_append.1 ht with ht | ht
    · exact ⟨t, List.mem_append_left _ ht⟩
    · cases List.mem_singleton.1 ht

namespace Draft

/-- A draft with groups at the root, the last of them open. -/
def ofGroups (c : Category) (gs : List Group) (group? : Option Group) : Draft :=
  ⟨c, gs.map .group, none, group?⟩

/-- A draft with groups in an open tab, the last of them open. -/
def ofTab (c : Category) (t : Tab) (group? : Option Group) : Draft :=
  ⟨c, [], some t, group?⟩

variable {c : Category} {gs : List Group} {group? : Option Group} (key label : String)

theorem closeGroup_ofGroups :
    (ofGroups c gs group?).closeGroup = ofGroups c (gs ++ group?.toList) none := by
  cases group? <;> simp [ofGroups, closeGroup]

theorem closeTab_ofGroups :
    (ofGroups c gs group?).closeTab = ofGroups c (gs ++ group?.toList) none := by
  rw [closeTab, closeGroup_ofGroups]
  rfl

theorem closeGroup_ofTab :
    (ofTab c ⟨key, label, gs⟩ group?).closeGroup =
      ofTab c ⟨key, label, gs ++ group?.toList⟩ none := by
  cases group? <;> simp [ofTab, closeGroup]

/-- A key is used at the root when it is used in the tab. -/
theorem usesKey_ofGroups (c : Category) (t : Tab) (group? : Option Group) (k : String) :
    (ofGroups c t.groups group?).usesKey k = (t.group? k).isSome := by
  rw [Bool.eq_iff_iff]
  simp only [usesKey, ofGroups, Tab.group?, List.any_map, List.any_eq_true, List.find?_isSome]
  rfl

/-- A step that opens no tab is taken in a tab as it is at the root. -/
theorem take_inTab {step : Step} {d' : Draft} (h : (ofGroups c gs group?).take step = .ok d') :
    (∃ t, .tab t ∈ d'.finish.nodes) ∨
      ∃ gs' group?', d' = ofGroups c gs' group?' ∧
        (ofTab c ⟨key, label, gs⟩ group?).take step.inTab =
          .ok (ofTab c ⟨key, label, gs'⟩ group?') := by
  cases step with
  | openTab k l =>
    obtain ⟨u, hheading, h⟩ := bind_eq_ok h
    split at h
    · cases h
    · -- The tab stays to the end, so the step need not be taken in another tab.
      cases h
      rw [closeTab_ofGroups]
      exact .inl ⟨_, List.mem_append_right _ (List.mem_singleton_self _)⟩
  | openGroup k l =>
    refine .inr ⟨gs ++ group?.toList, some ⟨k, l, []⟩, ?_⟩
    obtain ⟨u, hheading, h⟩ := bind_eq_ok h
    rw [closeGroup_ofGroups] at h
    -- The key is looked for among the same groups, at the root and in the tab.
    have hnew : ¬(ofGroups c (gs ++ group?.toList) none).usesKey k = true := by
      intro hused
      cases (if_pos hused).symm.trans h
    cases (if_neg hnew).symm.trans h
    refine ⟨rfl, ?_⟩
    change (ofTab c ⟨key, label, gs⟩ group?).openGroup k l = _
    rw [openGroup, closeGroup_ofTab, hheading]
    exact if_neg (usesKey_ofGroups c ⟨key, label, gs ++ group?.toList⟩ none k ▸ hnew)
  | field kindName attributes =>
    obtain ⟨f, hf, h⟩ := bind_eq_ok h
    refine .inr ⟨gs, ?_⟩
    change ∃ group?', _ ∧ ((Field.ofAttributes kindName attributes).mapError Error.field >>=
      (ofTab c ⟨key, label, gs⟩ group?).addField) = _
    rw [hf]
    cases group? with
    | none => cases h
    | some g =>
      rw [addField, ofGroups] at h
      dsimp only at h
      split at h
      · cases h
      rename_i hnew
      cases h
      exact ⟨some { g with fields := g.fields ++ [f] }, rfl, if_neg hnew⟩
  | closeGroup =>
    cases h
    exact .inr ⟨_, none, closeGroup_ofGroups, congrArg _ (closeGroup_ofTab key label)⟩
  | closeTab =>
    cases h
    exact .inr ⟨_, none, closeTab_ofGroups, congrArg _ (closeGroup_ofTab key label)⟩

/-- Steps that leave no tab are taken in a tab as they are at the root. -/
theorem foldlM_inTab {steps : List Step} {d' : Draft}
    (h : steps.foldlM take (ofGroups c gs group?) = .ok d')
    (hroot : ∀ t, .tab t ∉ d'.finish.nodes) :
    ∃ gs' group?', d' = ofGroups c gs' group?' ∧
      (steps.map Step.inTab).foldlM take (ofTab c ⟨key, label, gs⟩ group?) =
        .ok (ofTab c ⟨key, label, gs'⟩ group?') := by
  -- Along the steps the two drafts have the same groups, closed ones and the open one.
  induction steps generalizing gs group? with
  | nil =>
    cases h
    exact ⟨gs, group?, rfl, rfl⟩
  | cons step steps ih =>
    rw [List.foldlM_cons] at h
    obtain ⟨next, hstep, hrest⟩ := bind_eq_ok h
    rcases take_inTab key label hstep with htab | ⟨gs', group?', rfl, hstep'⟩
    · obtain ⟨t, ht⟩ := foldlM_take_keeps (fun _ _ => Extends.exists_tab_mem) hrest htab
      exact absurd ht (hroot t)
    · obtain ⟨gs'', group?'', hd', hrest'⟩ := ih hrest
      refine ⟨gs'', group?'', hd', ?_⟩
      rw [List.map_cons, List.foldlM_cons, hstep']
      exact hrest'

theorem finish_ofGroups :
    (ofGroups c gs group?).finish = ⟨c, (gs ++ group?.toList).map .group⟩ := by
  rw [finish, closeTab_ofGroups]
  rfl

theorem finish_ofTab :
    (ofTab c ⟨key, label, gs⟩ group?).finish = ⟨c, [.tab ⟨key, label, gs ++ group?.toList⟩]⟩ := by
  rw [finish, closeTab, closeGroup_ofTab]
  rfl

end Draft

/-- A schema without tabs that is written down by steps is written down in a tab
    by the same steps, but for those that would close the tab. -/
theorem ofSteps_inTab {c : Category} {steps : List Step} {s : Schema}
    (h : ofSteps c steps = .ok s) (hroot : ∀ t, .tab t ∉ s.nodes) {key label : String}
    (hkey : Path.isKey key = true) (hlabel : label ≠ "") :
    ofSteps c (.openTab key label :: steps.map Step.inTab) = .ok (s.inTab key label) := by
  obtain ⟨d, hd, rfl⟩ := exists_draft_of_ofSteps h
  have hgroups : steps.foldlM Draft.take (.ofGroups c [] none) = .ok d := hd
  obtain ⟨gs, group?, rfl, hrun⟩ := Draft.foldlM_inTab key label hgroups hroot
  have hopen : (Draft.start c).take (.openTab key label) = .ok (.ofTab c ⟨key, label, []⟩ none) := by
    have hheading : Draft.checkHeading key label = .ok () := by
      simp [Draft.checkHeading, hkey, hlabel]
    change (Draft.checkHeading key label >>= _) = _
    rw [hheading]
    rfl
  have hdraft : (Step.openTab key label :: steps.map Step.inTab).foldlM Draft.take (.start c) =
      .ok (.ofTab c ⟨key, label, gs⟩ group?) := by
    rw [List.foldlM_cons, hopen]
    exact hrun
  rw [ofSteps, hdraft]
  change Except.ok (Draft.ofTab c ⟨key, label, gs⟩ group?).finish = _
  rw [Draft.finish_ofTab, Draft.finish_ofGroups, inTab, groups_map]

/-! ### Fields -/

section

variable {s : Schema} (hroot : ∀ t, .tab t ∉ s.nodes) {key : String} (label : String)

include hroot

/-- The fields are the same in the same order, one level deeper. -/
theorem entries_inTab (key : String) :
    (s.inTab key label).entries = s.entries.map (·.below key) := by
  have hgroup (g : Group) :
      g.entries ⟨[key, g.key]⟩ = (g.entries ⟨[g.key]⟩).map (·.below key) := by
    rw [Group.entries, Group.entries, List.map_map]
    rfl
  rw [entries, entries, nodes_eq_map_groups hroot, List.flatMap_map, List.map_flatMap]
  change (s.groups.flatMap fun g => g.entries ⟨[key, g.key]⟩) ++ [] = _
  rw [List.append_nil]
  exact List.flatMap_congr fun g _ => hgroup g

namespace WellFormed

variable (hs : s.WellFormed) (hkey : Path.isKey key = true)

include hs hkey

theorem inTab : (s.inTab key label).WellFormed where
  nodup := List.nodup_singleton key
  nodes n hn := by
    cases List.mem_singleton.1 hn
    have hnodes := nodes_eq_map_groups hroot
    refine ⟨hkey, ?_, fun g hg => ?_⟩
    · have hnodup := hs.nodup
      rw [hnodes, List.map_map] at hnodup
      exact hnodup
    · refine hs.nodes (.group g) ?_
      rw [hnodes]
      exact List.mem_map_of_mem hg

/-- A field is found at its path below the key of the tab, and nothing else is
    found there. -/
theorem field?_inTab (p : Path) : (s.inTab key label).field? (p.below key) = s.field? p := by
  refine Option.ext fun f => ?_
  rw [hs.field?_eq_some_iff, (hs.inTab hroot label hkey).field?_eq_some_iff,
    entries_inTab hroot]
  constructor
  · rintro ⟨_, hbelow, hpath, rfl⟩
    obtain ⟨e, he, rfl⟩ := List.mem_map.1 hbelow
    exact ⟨e, he, Path.below_inj.1 hpath, rfl⟩
  · rintro ⟨e, he, rfl, rfl⟩
    exact ⟨e.below key, List.mem_map_of_mem he, rfl, rfl⟩

/-- The effective values are the same one level deeper. -/
theorem effective?_inTab (t : Tree) (p : Path) :
    (s.inTab key label).effective? (t.below key) (p.below key) = s.effective? t p := by
  rw [effective?, effective?, hs.field?_inTab hroot label hkey, t.get?_below]

end WellFormed

end

end Schema

/-! ### Conditions -/

/-- A sibling is found from the group of the field. -/
theorem Clause.target_below {c : Clause} (h : c.field.length = 1) (group : Path) (key : String) :
    c.target (group.below key) = (c.target group).below key := by
  rw [target, target, if_pos h, if_pos h]
  rfl

/-- The clauses of the condition are about siblings of the field. -/
def Field.ComparesSiblings (f : Field) : Prop :=
  ∀ c, f.condition = some c → ∀ clause ∈ c.clauses, clause.field.length = 1

/-- A condition on siblings holds in the tab as at the root. -/
theorem Schema.WellFormed.active_inTab {s : Schema} (hs : s.WellFormed)
    (hroot : ∀ t, .tab t ∉ s.nodes) {key : String} (hkey : Path.isKey key = true) (label : String)
    {e : Entry} (he : e.field.ComparesSiblings) (t : Tree) :
    (e.below key).active (s.inTab key label) (t.below key) = e.active s t := by
  have hfield : (e.below key).field = e.field := rfl
  rw [Entry.active, Entry.active, hfield]
  cases hc : e.field.condition with
  | none => rfl
  | some c =>
    rw [Bool.eq_iff_iff]
    simp only [Condition.holds, List.all_eq_true]
    refine forall₂_congr fun clause hclause => ?_
    have htarget := Clause.target_below (he c hc clause hclause) e.group key
    change Clause.holds clause _ (e.group.below key) = true ↔ _
    rw [Clause.holds, Clause.holds, htarget]
    simp only [Schema.source, hs.field?_inTab hroot label hkey,
      hs.effective?_inTab hroot label hkey]

end ScopedStyle
