import Mathlib.Data.List.Pairwise
import ScopedStyle.Proofs.Schema.Construction
import ScopedStyle.Proofs.Settings.DottedPath
import ScopedStyle.Proofs.Settings.Storage

/-!
# Addressing the fields of a schema

In a well-formed schema the paths of the fields are apart from each other
(`Schema.WellFormed.pairwise_apart`): two fields differ in the first key of
their path, in the key of the group in one tab, or in their own key in one
group. Looking up a path descends into the nodes, and finds precisely the
fields that are listed (`Schema.WellFormed.field?_eq_some_iff`). A path is made
of two or three keys, so it can also be kept as a text. All this holds of every
schema that is written down by steps (`Schema.entries_addressed`).
-/

namespace ScopedStyle

/-- An element of a list is found by its key when the keys differ. -/
theorem find?_key_of_mem {α : Type} {key : α → String} {l : List α} (hl : (l.map key).Nodup)
    {a : α} (ha : a ∈ l) : l.find? (key · = key a) = some a := by
  cases hfound : l.find? (key · = key a) with
  | none => simpa using List.find?_eq_none.1 hfound a ha
  | some b =>
    have hkey : key b = key a := by simpa using List.find?_some hfound
    rw [List.inj_on_of_nodup_map hl (List.mem_of_find?_eq_some hfound) ha hkey]

/-! ### Paths -/

/-- Fields of one group are apart. -/
theorem Group.WellFormed.pairwise_apart {g : Group} (hg : g.WellFormed) (path : Path) :
    (g.entries path).Pairwise fun e₁ e₂ => e₁.path.Apart e₂.path := by
  rw [Group.entries, List.pairwise_map]
  refine (List.pairwise_map.1 hg.nodup).imp fun {f₁ f₂} hne => ?_
  have happart : Path.Apart ⟨[f₁.key]⟩ ⟨[f₂.key]⟩ := Path.apart_cons_iff.2 (.inl hne)
  -- The keys that lead to the group are the same for both.
  obtain ⟨keys⟩ := path
  induction keys with
  | nil => exact happart
  | cons k keys ih => exact Path.apart_cons_iff.2 (.inr ih)

namespace Node

/-- The path of a field starts with the key of its node. -/
theorem path_of_mem {n : Node} {e : Entry} (he : e ∈ n.entries) :
    ∃ keys, e.path = ⟨n.key :: keys⟩ := by
  cases n with
  | tab t =>
    obtain ⟨g, _, he⟩ := List.mem_flatMap.1 he
    obtain ⟨f, _, rfl⟩ := List.mem_map.1 he
    exact ⟨_, rfl⟩
  | group g =>
    obtain ⟨f, _, rfl⟩ := List.mem_map.1 he
    exact ⟨_, rfl⟩

theorem WellFormed.pairwise_apart {n : Node} (hn : n.WellFormed) :
    n.entries.Pairwise fun e₁ e₂ => e₁.path.Apart e₂.path := by
  cases n with
  | tab t =>
    refine List.pairwise_flatMap.2 ⟨fun g hg => (hn.groups g hg).pairwise_apart _, ?_⟩
    refine (List.pairwise_map.1 hn.nodup).imp fun {g₁ g₂} hne e₁ he₁ e₂ he₂ => ?_
    obtain ⟨f₁, _, rfl⟩ := List.mem_map.1 he₁
    obtain ⟨f₂, _, rfl⟩ := List.mem_map.1 he₂
    exact Path.apart_cons_iff.2 (.inr (Path.apart_cons_iff.2 (.inl hne)))
  | group g => exact Group.WellFormed.pairwise_apart hn _

/-- The path of a field is made of the keys of its tab, if it is in one, of its
    group and of itself. -/
theorem WellFormed.ofKeys_path {n : Node} (hn : n.WellFormed) {e : Entry} (he : e ∈ n.entries) :
    (e.path.length = 2 ∨ e.path.length = 3) ∧ e.path.OfKeys := by
  cases n with
  | tab t =>
    obtain ⟨g, hg, he⟩ := List.mem_flatMap.1 he
    obtain ⟨f, hf, rfl⟩ := List.mem_map.1 he
    have hgroup := hn.groups g hg
    have htab : Path.OfKeys ⟨[t.key]⟩ := .singleton hn.isKey
    exact ⟨.inr rfl, (htab.child hgroup.isKey).child (hgroup.accepted f hf).isKey⟩
  | group g =>
    obtain ⟨f, hf, rfl⟩ := List.mem_map.1 he
    have hgroup : Path.OfKeys ⟨[g.key]⟩ := .singleton (Group.WellFormed.isKey hn)
    exact ⟨.inl rfl, hgroup.child (Group.WellFormed.accepted hn f hf).isKey⟩

/-- What is found at a row of segments is a field with this path. -/
theorem exists_mem_of_field? {n : Node} {segments : List String} {f : Field}
    (h : n.field? segments = some f) :
    ∃ e ∈ n.entries, e.path = ⟨segments⟩ ∧ e.field = f := by
  rw [field?.eq_def] at h
  split at h
  case h_1 t tabKey groupKey fieldKey =>
    split at h
    · rename_i htab
      obtain ⟨g, hg, hf⟩ := Option.bind_eq_some_iff.1 h
      have hgroup : g.key = groupKey := by simpa using List.find?_some hg
      have hfield : f.key = fieldKey := by simpa using List.find?_some hf
      refine ⟨⟨⟨[t.key, g.key]⟩, f⟩,
        List.mem_flatMap.2 ⟨g, List.mem_of_find?_eq_some hg, ?_⟩, ?_, rfl⟩
      · exact List.mem_map.2 ⟨f, List.mem_of_find?_eq_some hf, rfl⟩
      · rw [← htab, ← hgroup, ← hfield]
        rfl
    · cases h
  case h_2 g groupKey fieldKey =>
    split at h
    · rename_i hgroup
      have hfield : f.key = fieldKey := by simpa using List.find?_some h
      refine ⟨⟨⟨[g.key]⟩, f⟩, List.mem_map.2 ⟨f, List.mem_of_find?_eq_some h, rfl⟩, ?_, rfl⟩
      rw [← hgroup, ← hfield]
      rfl
    · cases h
  case h_3 => cases h

/-- A field of a well-formed node is found at its path. -/
theorem WellFormed.field?_of_mem {n : Node} (hn : n.WellFormed) {e : Entry}
    (he : e ∈ n.entries) : n.field? e.path.segments = some e.field := by
  cases n with
  | tab t =>
    obtain ⟨g, hg, he⟩ := List.mem_flatMap.1 he
    obtain ⟨f, hf, rfl⟩ := List.mem_map.1 he
    have hgroup : t.group? g.key = some g := find?_key_of_mem hn.nodup hg
    have hfield : g.field? f.key = some f := find?_key_of_mem (hn.groups g hg).nodup hf
    change (if t.key = t.key then (t.group? g.key).bind (·.field? f.key) else none) = some f
    rw [if_pos rfl, hgroup, Option.bind_some, hfield]
  | group g =>
    obtain ⟨f, hf, rfl⟩ := List.mem_map.1 he
    have hfield : g.field? f.key = some f := find?_key_of_mem hn.nodup hf
    change (if g.key = g.key then g.field? f.key else none) = some f
    rw [if_pos rfl, hfield]

end Node

/-! ### Schemas -/

namespace Schema

theorem exists_mem_of_field? {s : Schema} {p : Path} {f : Field} (h : s.field? p = some f) :
    ∃ e ∈ s.entries, e.path = p ∧ e.field = f := by
  obtain ⟨n, hn, hf⟩ := List.exists_of_findSome?_eq_some h
  obtain ⟨e, he, hpath, hfield⟩ := Node.exists_mem_of_field? hf
  exact ⟨e, List.mem_flatMap.2 ⟨n, hn, he⟩, hpath, hfield⟩

namespace WellFormed

variable {s : Schema} (hs : s.WellFormed)

include hs

/-- The paths of the fields of a schema are apart. -/
theorem pairwise_apart : s.entries.Pairwise fun e₁ e₂ => e₁.path.Apart e₂.path := by
  refine List.pairwise_flatMap.2 ⟨fun n hn => (hs.nodes n hn).pairwise_apart, ?_⟩
  refine (List.pairwise_map.1 hs.nodup).imp fun {n₁ n₂} hne e₁ he₁ e₂ he₂ => ?_
  obtain ⟨keys₁, hpath₁⟩ := Node.path_of_mem he₁
  obtain ⟨keys₂, hpath₂⟩ := Node.path_of_mem he₂
  rw [hpath₁, hpath₂]
  exact Path.apart_cons_iff.2 (.inl hne)

theorem apart_of_ne {e₁ e₂ : Entry} (h₁ : e₁ ∈ s.entries) (h₂ : e₂ ∈ s.entries)
    (hne : e₁ ≠ e₂) : e₁.path.Apart e₂.path := by
  have : Std.Symm fun e₁ e₂ : Entry => e₁.path.Apart e₂.path := ⟨fun _ _ h => h.symm⟩
  exact hs.pairwise_apart.forall h₁ h₂ hne

/-- Storing a value for one field leaves what is stored for another. -/
theorem get?_put_of_ne {e e' : Entry} (he : e ∈ s.entries) (he' : e' ∈ s.entries)
    (hne : e' ≠ e) (t : Tree) (value : Json) :
    (t.put e.path value).get? e'.path = t.get? e'.path :=
  t.get?_put_of_apart (hs.apart_of_ne he he' hne.symm) value

/-- A field of a schema is determined by its path. -/
theorem eq_of_path_eq {e₁ e₂ : Entry} (h₁ : e₁ ∈ s.entries) (h₂ : e₂ ∈ s.entries)
    (h : e₁.path = e₂.path) : e₁ = e₂ := by
  by_contra hne
  exact (hs.apart_of_ne h₁ h₂ hne).ne h

/-- A listed field is found at its path. Some node finds a field there, and it
    is this one since no other has the path. -/
theorem field?_of_mem {e : Entry} (he : e ∈ s.entries) : s.field? e.path = some e.field := by
  obtain ⟨n, hn, hen⟩ := List.mem_flatMap.1 he
  have hsome : (s.field? e.path).isSome = true := by
    rw [field?, List.findSome?_isSome_iff]
    exact ⟨n, hn, by rw [(hs.nodes n hn).field?_of_mem hen]; rfl⟩
  obtain ⟨f, hf⟩ := Option.isSome_iff_exists.1 hsome
  obtain ⟨e', he', hpath, hfield⟩ := exists_mem_of_field? hf
  rw [hf, ← hfield, hs.eq_of_path_eq he' he hpath]

theorem field?_eq_some_iff {p : Path} {f : Field} :
    s.field? p = some f ↔ ∃ e ∈ s.entries, e.path = p ∧ e.field = f := by
  constructor
  · exact exists_mem_of_field?
  · rintro ⟨e, he, rfl, rfl⟩
    exact hs.field?_of_mem he

theorem ofKeys_path {e : Entry} (he : e ∈ s.entries) :
    (e.path.length = 2 ∨ e.path.length = 3) ∧ e.path.OfKeys := by
  obtain ⟨n, hn, hen⟩ := List.mem_flatMap.1 he
  exact (hs.nodes n hn).ofKeys_path hen

theorem accepted {e : Entry} (he : e ∈ s.entries) : e.field.Accepted := by
  obtain ⟨n, hn, hen⟩ := List.mem_flatMap.1 he
  have hwf := hs.nodes n hn
  cases n with
  | tab t =>
    obtain ⟨g, hg, hen⟩ := List.mem_flatMap.1 hen
    obtain ⟨f, hf, rfl⟩ := List.mem_map.1 hen
    exact (hwf.groups g hg).accepted f hf
  | group g =>
    obtain ⟨f, hf, rfl⟩ := List.mem_map.1 hen
    exact hwf.accepted f hf

end WellFormed

theorem eq_ok_of_toOption {ε α : Type} {x : Except ε α} {a : α} (h : x.toOption = some a) :
    x = .ok a := by
  cases x with
  | error e => cases h
  | ok b => exact congrArg _ (Option.some.inj h)

/-- Steps that can be taken, found by taking them. -/
theorem exists_of_any (c : Category) (steps : List Step) (q : Schema → Bool)
    (h : (ofSteps c steps).toOption.any q = true) : ∃ s, ofSteps c steps = .ok s ∧ q s = true := by
  cases hs : ofSteps c steps with
  | error e => simp [hs, Except.toOption] at h
  | ok s =>
    rw [hs] at h
    exact ⟨s, rfl, h⟩

/-- The fields of a schema that is written down by steps have paths that differ,
    of which none leads through the place of another. Looking up a path finds
    the listed field with it. The path has two or three segments, none of them
    empty or with a dot or a blank in it, and is read back from its text. -/
theorem entries_addressed {c : Category} {steps : List Step} {s : Schema}
    (h : ofSteps c steps = .ok s) :
    (s.entries.Pairwise fun e₁ e₂ => e₁.path ≠ e₂.path ∧ ¬e₁.path.IsPrefixOf e₂.path ∧
      ¬e₂.path.IsPrefixOf e₁.path) ∧
    (∀ p f, s.field? p = some f ↔ ∃ e ∈ s.entries, e.path = p ∧ e.field = f) ∧
    ∀ e ∈ s.entries, (e.path.length = 2 ∨ e.path.length = 3) ∧
      (∀ k ∈ e.path.segments, k ≠ "" ∧ ∀ ch ∈ k.toList, ch ≠ '.' ∧ Text.isBlank ch = false) ∧
      Path.ofText e.path.toText = e.path := by
  have hs := ofSteps_wellFormed h
  refine ⟨?_, fun p f => hs.field?_eq_some_iff, fun e he => ?_⟩
  · exact hs.pairwise_apart.imp fun happart => ⟨happart.ne, happart.1, happart.2⟩
  · obtain ⟨hlength, hkeys⟩ := hs.ofKeys_path he
    exact ⟨hlength, fun k hk => Path.isKey_iff.1 (hkeys k hk), hkeys.ofText_toText⟩

/-- A tab and a group at the root, both with a field of the same key. -/
def twoTitleSteps : List Step :=
  [.openTab "normal" "Normal", .openGroup "content" "Content",
    .field "text" [.key "title", .label "Title"], .closeTab,
    .openGroup "content" "Content", .field "text" [.key "title", .label "Title"]]

/-- Two titles in groups of the same key are told apart by the tab of one. -/
theorem two_titles_addressed :
    ∃ s, ofSteps .general twoTitleSteps = .ok s ∧
      (∃ f, s.field? ⟨["normal", "content", "title"]⟩ = some f) ∧
      (∃ f, s.field? ⟨["content", "title"]⟩ = some f) ∧
      Path.ofText "normal.content.title" = ⟨["normal", "content", "title"]⟩ := by
  have hsteps : ofSteps .general twoTitleSteps = .ok _ := rfl
  obtain ⟨_, hfield, hpath⟩ := entries_addressed hsteps
  refine ⟨_, hsteps, ⟨_, (hfield _ _).2 ⟨_, .head _, rfl, rfl⟩⟩,
    ⟨_, (hfield _ _).2 ⟨_, .tail _ (.head _), rfl, rfl⟩⟩, (hpath _ (.head _)).2.2⟩

end Schema

end ScopedStyle
