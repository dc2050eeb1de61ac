import ScopedStyle.Proofs.Settings.KeyOrder
import ScopedStyle.Proofs.Settings.Storage

/-!
# Edits of a tree

Storing and removing follow the laws that one expects of places in a document
(`Tree.edit_laws`): a value that is stored replaces what stood at its place, with
all that was below it; edits at places apart do not see each other; storing what
stands at a place anyway, or what has just been removed from it, leads back to
the tree as it was.

Each law is proved for the keys of a path, one key after the other. Some of them
need the entries of objects in key order, as they are in every document and stay
under edits. So they are about trees that carry this order.
-/

namespace ScopedStyle

namespace Json

/-- Only objects have values of keys. -/
theorem exists_obj_of_field? {j child : Json} {key : String} (h : j.field? key = some child) :
    ∃ es : Dict Json, j = obj es ∧ es.get? key = some child := by
  cases j with
  | obj es => exact ⟨es, rfl, h⟩
  | _ => cases h

/-- Going down two rows of keys is going down the second where the first leads. -/
theorem descend?_append (j : Json) (keys others : List String) :
    j.descend? (keys ++ others) = (j.descend? keys).bind (·.descend? others) := by
  induction keys generalizing j with
  | nil => rfl
  | cons key keys ih =>
    rw [List.cons_append, descend?, descend?, Option.bind_assoc]
    congr 1
    funext child
    exact ih child

/-! ### Writing -/

/-- Of two values written at one place the later one stays. -/
theorem write_write_self (j : Json) (keys : List String) (new new' : Json) :
    (j.write keys new).write keys new' = j.write keys new' := by
  induction keys generalizing j with
  | nil => rfl
  | cons key keys ih =>
    rw [write, write, write, field?_obj, entries, Dict.get?_put_self, Option.getD_some, ih,
      Dict.put_put_self]

/-- Values are written at places apart in either order. -/
theorem write_comm (j : Json) {keys others : List String} (h : Path.Apart ⟨keys⟩ ⟨others⟩)
    (new new' : Json) :
    (j.write keys new).write others new' = (j.write others new').write keys new := by
  induction keys generalizing j others with
  | nil => exact absurd h Path.not_apart_nil
  | cons key keys ih =>
    cases others with
    | nil => exact absurd h.symm Path.not_apart_nil
    | cons other others =>
      rw [write, write, write, write, field?_obj, field?_obj, entries, entries]
      by_cases hk : key = other
      · -- Both are written below the same key, where the places part further down.
        subst hk
        have hrest : Path.Apart ⟨keys⟩ ⟨others⟩ :=
          (Path.apart_cons_iff.1 h).resolve_left fun hne => hne rfl
        rw [Dict.get?_put_self, Dict.get?_put_self, Option.getD_some, Option.getD_some, ih _ hrest,
          Dict.put_put_self, Dict.put_put_self]
      · rw [Dict.get?_put_of_ne _ (Ne.symm hk), Dict.get?_put_of_ne _ hk, Dict.put_comm _ hk]
        rfl

/-- Writing what stands at a place anyway changes nothing. -/
theorem write_eq_self {j found : Json} (h : j.Ordered) {keys : List String}
    (hfound : j.descend? keys = some found) : j.write keys found = j := by
  induction keys generalizing j with
  | nil =>
    cases hfound
    rfl
  | cons key keys ih =>
    obtain ⟨child, hchild, hrest⟩ := Option.bind_eq_some_iff.1 hfound
    obtain ⟨es, rfl, hget⟩ := exists_obj_of_field? hchild
    rw [write, hchild, Option.getD_some, ih (ordered_of_field? h hchild) hrest, entries,
      Dict.put_eq_self (ordered_obj_iff.1 h).1 hget]

/-! ### Removing -/

/-- All that a removal does: it finds nothing and leaves the value, or it takes the
    entry of the last key away, or it removes further down and puts what is left
    there back. -/
theorem remove_cons_cases (j : Json) (key : String) (keys : List String) :
    j.field? key = none ∧ j.remove (key :: keys) = (none, j) ∨
      ∃ (es : Dict Json) (child : Json), j = obj es ∧ es.get? key = some child ∧
        (keys = [] ∧ j.remove (key :: keys) = (some child, obj (es.erase key)) ∨
          keys ≠ [] ∧ j.remove (key :: keys) =
            ((child.remove keys).1, obj (es.put key (child.remove keys).2))) := by
  cases hfield : j.field? key with
  | none =>
    refine .inl ⟨rfl, ?_⟩
    cases keys <;> simp [remove, hfield]
  | some child =>
    obtain ⟨es, rfl, hget⟩ := exists_obj_of_field? hfield
    refine .inr ⟨es, child, rfl, hget, ?_⟩
    cases keys with
    | nil => exact .inl ⟨rfl, by simp [remove, hfield, entries]⟩
    | cons next keys => exact .inr ⟨List.cons_ne_nil _ _, by simp [remove, hfield, entries]⟩

/-- What a removal finds is what stands at the end of the keys. -/
theorem fst_remove (j : Json) {keys : List String} (h : keys ≠ []) :
    (j.remove keys).1 = j.descend? keys := by
  induction keys generalizing j with
  | nil => exact absurd rfl h
  | cons key keys ih =>
    rcases j.remove_cons_cases key keys with ⟨hfield, hremove⟩ |
      ⟨es, child, rfl, hget, ⟨rfl, hremove⟩ | ⟨hkeys, hremove⟩⟩
    · rw [hremove, descend?, hfield, Option.bind_none]
    · rw [hremove, descend?, field?_obj, hget, Option.bind_some, descend?]
    · rw [hremove, descend?, field?_obj, hget, Option.bind_some, ih child hkeys]

/-- A removal that finds nothing leaves the value as it was: whatever is put back
    on the way up is what stood there. -/
theorem snd_remove_eq_self {j : Json} (hj : j.Ordered) {keys : List String}
    (h : (j.remove keys).1 = none) : (j.remove keys).2 = j := by
  induction keys generalizing j with
  | nil => rfl
  | cons key keys ih =>
    rcases j.remove_cons_cases key keys with ⟨_, hremove⟩ |
      ⟨es, child, rfl, hget, ⟨_, hremove⟩ | ⟨_, hremove⟩⟩
    · rw [hremove]
    · rw [hremove] at h
      cases h
    · rw [hremove] at h ⊢
      rw [ih (ordered_of_field? hj hget) h, Dict.put_eq_self (ordered_obj_iff.1 hj).1 hget]

/-- Behind a removal nothing stands at its place. -/
theorem descend?_remove_self {j : Json} (hj : j.Ordered) {keys : List String} (h : keys ≠ []) :
    (j.remove keys).2.descend? keys = none := by
  induction keys generalizing j with
  | nil => exact absurd rfl h
  | cons key keys ih =>
    rcases j.remove_cons_cases key keys with ⟨hfield, hremove⟩ |
      ⟨es, child, rfl, hget, ⟨_, hremove⟩ | ⟨hkeys, hremove⟩⟩
    · rw [hremove, descend?, hfield, Option.bind_none]
    · rw [hremove, descend?, field?_obj, Dict.get?_erase_self (ordered_obj_iff.1 hj).1,
        Option.bind_none]
    · rw [hremove, descend?, field?_obj, Dict.get?_put_self, Option.bind_some,
        ih (ordered_of_field? hj hget) hkeys]

/-- A removal changes nothing apart from its place. -/
theorem descend?_remove_of_apart (j : Json) {keys others : List String}
    (h : Path.Apart ⟨keys⟩ ⟨others⟩) : (j.remove keys).2.descend? others = j.descend? others := by
  induction keys generalizing j others with
  | nil => rfl
  | cons key keys ih =>
    cases others with
    | nil => exact absurd h.symm Path.not_apart_nil
    | cons other others =>
      rcases j.remove_cons_cases key keys with ⟨_, hremove⟩ | ⟨es, child, rfl, hget, hcases⟩
      · rw [hremove]
      by_cases hk : other = key
      · subst hk
        have hrest : Path.Apart ⟨keys⟩ ⟨others⟩ :=
          (Path.apart_cons_iff.1 h).resolve_left fun hne => hne rfl
        rcases hcases with ⟨rfl, _⟩ | ⟨_, hremove⟩
        · exact absurd hrest Path.not_apart_nil
        · rw [hremove, descend?, descend?, field?_obj, field?_obj, Dict.get?_put_self, hget,
            Option.bind_some, Option.bind_some, ih child hrest]
      · rcases hcases with ⟨_, hremove⟩ | ⟨_, hremove⟩
        · rw [hremove, descend?, descend?, field?_obj, field?_obj, Dict.get?_erase_of_ne _ hk]
        · rw [hremove, descend?, descend?, field?_obj, field?_obj, Dict.get?_put_of_ne _ hk]

/-- Writing what has been removed restores the value. -/
theorem write_remove {j found : Json} (hj : j.Ordered) {keys : List String}
    (h : (j.remove keys).1 = some found) : (j.remove keys).2.write keys found = j := by
  induction keys generalizing j with
  | nil => cases h
  | cons key keys ih =>
    rcases j.remove_cons_cases key keys with ⟨_, hremove⟩ |
      ⟨es, child, rfl, hget, ⟨rfl, hremove⟩ | ⟨_, hremove⟩⟩
    · rw [hremove] at h
      cases h
    · rw [hremove] at h ⊢
      cases h
      rw [write, write, entries, Dict.put_erase (ordered_obj_iff.1 hj).1 hget]
    · rw [hremove] at h ⊢
      rw [write, field?_obj, entries, Dict.get?_put_self, Option.getD_some,
        ih (ordered_of_field? hj hget) h, Dict.put_put_self,
        Dict.put_eq_self (ordered_obj_iff.1 hj).1 hget]

/-- A removal keeps the key order. -/
theorem ordered_remove {j : Json} (hj : j.Ordered) (keys : List String) :
    (j.remove keys).2.Ordered := by
  induction keys generalizing j with
  | nil => exact hj
  | cons key keys ih =>
    obtain ⟨hes, hvalues⟩ := ordered_entries hj
    rcases j.remove_cons_cases key keys with ⟨_, hremove⟩ |
      ⟨es, child, rfl, hget, ⟨_, hremove⟩ | ⟨_, hremove⟩⟩
    · rwa [hremove]
    · rw [hremove]
      exact ordered_obj_erase hes hvalues key
    · rw [hremove]
      exact ordered_obj_put hes hvalues (ih (ordered_of_field? hj hget)) key

end Json

namespace Tree

/-- The tree that a removal at a path leaves behind. -/
def without (t : Tree) (p : Path) : Tree :=
  (t.remove p).2

variable {t rest : Tree} {p : Path} {found : Json}

theorem take?_eq (t : Tree) (p : Path) :
    t.take? p = (t.root.remove p.segments).1.map (·, t.without p) := rfl

theorem take?_eq_some_iff :
    t.take? p = some (found, rest) ↔ (t.root.remove p.segments).1 = some found ∧
      t.without p = rest := by
  rw [take?_eq, Option.map_eq_some_iff]
  constructor
  · rintro ⟨_, hfound, heq⟩
    cases heq
    exact ⟨hfound, rfl⟩
  · rintro ⟨hfound, rfl⟩
    exact ⟨_, hfound, rfl⟩

/-- A removal finds something unless nothing stands at the place. The root
    cannot be removed. -/
theorem take?_eq_none_iff : t.take? p = none ↔ p = .root ∨ t.root.descend? p.segments = none := by
  rw [take?_eq, Option.map_eq_none_iff]
  obtain ⟨keys⟩ := p
  cases keys with
  | nil => exact ⟨fun _ => .inl rfl, fun _ => rfl⟩
  | cons key keys =>
    rw [Json.fst_remove _ (List.cons_ne_nil key keys)]
    simp [Path.root]

/-- A removal finds what stands at the place, null included. -/
theorem descend?_of_take? (h : t.take? p = some (found, rest)) :
    t.root.descend? p.segments = some found := by
  have hfound := (take?_eq_some_iff.1 h).1
  obtain ⟨keys⟩ := p
  cases keys with
  | nil => cases hfound
  | cons key keys => rw [← Json.fst_remove _ (List.cons_ne_nil key keys), hfound]

theorem descend?_without_self (ht : t.root.Ordered) (hp : p ≠ .root) :
    (t.without p).root.descend? p.segments = none := by
  refine Json.descend?_remove_self ht fun hsegments => hp ?_
  rw [Path.root, ← hsegments]

/-- What has been removed is gone. -/
theorem get?_without_self (ht : t.root.Ordered) (hp : p ≠ .root) :
    (t.without p).get? p = none := by
  rw [get?, descend?_without_self ht hp, Option.bind_none]

/-- What stands apart from a removal stays. -/
theorem get?_without_of_apart {q : Path} (h : p.Apart q) : (t.without p).get? q = t.get? q := by
  rw [get?, get?]
  exact congrArg (Option.bind · Json.nonNull?) (Json.descend?_remove_of_apart _ h)

/-- A value below a stored one is found in the stored one. -/
theorem get?_put_append (t : Tree) (p r : Path) (v : Json) :
    (t.put p v).get? (p ++ r) = (Tree.mk v).get? r := by
  change ((t.root.write p.segments v).descend? (p.segments ++ r.segments)).bind _ = _
  rw [Json.descend?_append, Json.descend?_write_self, Option.bind_some]
  rfl

/-- The laws of storing and removing. What is stored at a path is found there,
    below it what the stored value holds, and it stays until the next value is
    stored. Storing what is there changes nothing. Edits at paths apart leave
    each other's values and may be swapped. A removal that finds nothing leaves
    the tree as it was; one that finds a value takes it away for good and nothing
    else, and storing the value again undoes it. Both keep objects in key order. -/
theorem edit_laws (t : OrderedTree) (p q r : Path) (v w : Json) :
    ((t.put p v).get? p = v.nonNull? ∧
      (t.put p v).get? (p ++ r) = (Tree.mk v).get? r ∧
      (t.put p v).put p w = t.put p w ∧
      (t.get? p = some v → t.put p v = t.toTree) ∧
      (v.Ordered → (t.put p v).root.Ordered)) ∧
    (p.Apart q →
      (t.put p v).get? q = t.get? q ∧ (t.put p v).put q w = (t.put q w).put p v) ∧
    (t.take? p = none ↔ p = .root ∨ t.root.descend? p.segments = none) ∧
    (t.take? p = none → t.without p = t.toTree) ∧
    ∀ found rest, t.take? p = some (found, rest) →
      t.without p = rest ∧ t.root.descend? p.segments = some found ∧
      rest.get? p = none ∧ rest.take? p = none ∧
      (p.Apart q → rest.get? q = t.get? q) ∧
      rest.put p found = t.toTree ∧ rest.root.Ordered := by
  refine ⟨⟨t.get?_put_self p v, t.get?_put_append p r v, ?_, fun hget => ?_,
    fun hv => Json.ordered_write t.ordered hv _⟩, fun hapart => ⟨?_, ?_⟩, take?_eq_none_iff,
    fun hnone => ?_, fun found rest h => ?_⟩
  · exact congrArg Tree.mk (Json.write_write_self _ _ _ _)
  · obtain ⟨found, hfound, hnonNull⟩ := Option.bind_eq_some_iff.1 hget
    obtain ⟨rfl, _⟩ := Json.nonNull?_eq_some hnonNull
    exact congrArg Tree.mk (Json.write_eq_self t.ordered hfound)
  · exact t.get?_put_of_apart hapart v
  · exact congrArg Tree.mk (Json.write_comm _ hapart _ _)
  · rw [take?_eq, Option.map_eq_none_iff] at hnone
    exact congrArg Tree.mk (Json.snd_remove_eq_self t.ordered hnone)
  · obtain ⟨hfound, rfl⟩ := take?_eq_some_iff.1 h
    have hp : p ≠ .root := by
      rintro rfl
      cases hfound
    exact ⟨rfl, descend?_of_take? h, get?_without_self t.ordered hp,
      take?_eq_none_iff.2 (.inr (descend?_without_self t.ordered hp)), get?_without_of_apart,
      congrArg Tree.mk (Json.write_remove t.ordered hfound), Json.ordered_remove t.ordered _⟩

/-- A document with an entry of null, and a number where settings should be. -/
def tagText : String :=
  "\x7b\"style\": 5, \"content\": \x7b\"title\": \"Hi\", \"tag\": null\x7d\x7d"

/-- A size replaces the number in the way, before or after a new title. The null
    is found when it is removed, and storing it again undoes that. Removing a
    subtitle that is not there leaves the document as it was. -/
theorem tagText_edits :
    ∃ t : OrderedTree, OrderedTree.ofText? tagText = some t ∧
      (t.put ⟨["style", "size"]⟩ (.str "l")).put ⟨["content", "title"]⟩ (.str "Hello") =
        (t.put ⟨["content", "title"]⟩ (.str "Hello")).put ⟨["style", "size"]⟩ (.str "l") ∧
      t.take? ⟨["content", "title", "sub"]⟩ = none ∧
      t.without ⟨["content", "title", "sub"]⟩ = t.toTree ∧
      ∃ rest, t.take? ⟨["content", "tag"]⟩ = some (.null, rest) ∧
        rest.take? ⟨["content", "tag"]⟩ = none ∧
        rest.put ⟨["content", "tag"]⟩ .null = t.toTree := by
  have hread : (OrderedTree.ofText? tagText).any
      (fun t => (t.take? ⟨["content", "title", "sub"]⟩).isNone &&
        (t.take? ⟨["content", "tag"]⟩).any fun (found, _) => found.isNull) = true := by
    decide +kernel
  obtain ⟨t, ht, hread⟩ := (Option.any_eq_true _ _).1 hread
  obtain ⟨hsub, hfound⟩ := Bool.and_eq_true_iff.1 hread
  obtain ⟨⟨found, rest⟩, hfound, hnull⟩ := (Option.any_eq_true _ _).1 hfound
  obtain rfl : found = .null := by cases found <;> first | rfl | cases hnull
  obtain ⟨-, hswap, -, -, -⟩ := edit_laws t ⟨["style", "size"]⟩ ⟨["content", "title"]⟩ .root
    (.str "l") (.str "Hello")
  obtain ⟨-, -, -, hstays, -⟩ :=
    edit_laws t ⟨["content", "title", "sub"]⟩ .root .root .null .null
  obtain ⟨-, -, -, -, hremove⟩ := edit_laws t ⟨["content", "tag"]⟩ .root .root .null .null
  obtain ⟨-, -, -, hgone, -, hundo, -⟩ := hremove _ _ hfound
  have hapart : Path.Apart ⟨["style", "size"]⟩ ⟨["content", "title"]⟩ :=
    Path.apart_cons_iff.2 (.inl (by decide))
  have hnone := Option.isNone_iff_eq_none.1 hsub
  exact ⟨t, ht, (hswap hapart).2, hnone, hstays hnone, rest, hfound, hgone, hundo⟩

end Tree

end ScopedStyle
