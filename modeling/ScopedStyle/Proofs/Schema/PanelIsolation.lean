import Mathlib.Data.List.Forall2
import ScopedStyle.Schema.Panel

/-!
# Faults in manifests

A manifest may be anything: nodes that are no objects, groups whose fields are no
list, kinds nobody knows. Whatever an element is, the panel has items for it, of
the shape that the element asks for: one for a field (`Panel.OfField`), a heading
and those of its fields for a group (`Panel.OfGroup`), and for a node a heading and
those of its groups, those of a group, or a warning (`Panel.OfNode`).

The items of an element stand in one place of the panel, and whatever the element
is replaced by, the items before and behind this place stay
(`Panel.ofManifest_isolates`). This is shown level by level: the items of a list of
elements are isolated from each other (`Panel.isolates_flatten`), and what is
isolated within an isolated part is isolated in the whole
(`Panel.Isolates.trans`).
-/

namespace ScopedStyle

namespace Dict

variable {α : Type}

/-- The dictionary with the value of a key changed. -/
def modify (d : Dict α) (key : String) (f : α → α) : Dict α :=
  match d with
  | [] => []
  | (k, v) :: rest => if k = key then (k, f v) :: rest else (k, v) :: modify rest key f

theorem get?_modify_self (d : Dict α) (key : String) (f : α → α) :
    get? (modify d key f) key = (get? d key).map f := by
  induction d with
  | nil => rfl
  | cons e rest ih =>
    obtain ⟨k, v⟩ := e
    by_cases hk : k = key <;> simp [modify, get?, hk, ih]

theorem get?_modify_of_ne (d : Dict α) {key other : String} (h : other ≠ key) (f : α → α) :
    get? (modify d key f) other = get? d other := by
  induction d with
  | nil => rfl
  | cons e rest ih =>
    obtain ⟨k, v⟩ := e
    by_cases hk : k = key
    · subst hk; simp [modify, get?, Ne.symm h]
    · simp [modify, get?, hk, ih]

/-- To change a value into itself changes nothing. -/
theorem modify_eq_self {d : Dict α} {key : String} {value : α} {f : α → α}
    (h : get? d key = some value) (hf : f value = value) : modify d key f = d := by
  induction d with
  | nil => rfl
  | cons e rest ih =>
    obtain ⟨k, v⟩ := e
    by_cases hk : k = key
    · obtain rfl : v = value := by simpa [get?, hk] using h
      simp [modify, hk, hf]
    · simp [modify, hk, ih (by simpa [get?, hk] using h)]

end Dict

namespace Json

/-- A list with an element replaced, any other value as it is. -/
def setElement (i : Nat) (new : Json) : Json → Json
  | .arr items => .arr (items.set i new)
  | other => other

/-- The value with an element of the list under a name replaced. -/
def setItem (j : Json) (name : String) (i : Nat) (new : Json) : Json :=
  match j with
  | .obj entries => .obj (Dict.modify entries name (setElement i new))
  | other => other

theorem field?_setItem_self (j : Json) (name : String) (i : Nat) (new : Json) :
    (j.setItem name i new).field? name = (j.field? name).map (setElement i new) := by
  cases j with
  | obj es => exact Dict.get?_modify_self es name _
  | _ => rfl

theorem field?_setItem_of_ne (j : Json) {name other : String} (h : other ≠ name) (i : Nat)
    (new : Json) : (j.setItem name i new).field? other = j.field? other := by
  cases j with
  | obj es => exact Dict.get?_modify_of_ne es h _
  | _ => rfl

/-- To replace an element by itself changes nothing. -/
theorem setItem_eq_self {j old : Json} {name : String} {items : List Json} {i : Nat}
    (h : j.field? name = some (.arr items)) (hi : items[i]? = some old) :
    j.setItem name i old = j := by
  cases j with
  | obj es =>
    obtain ⟨_, rfl⟩ := List.getElem?_eq_some_iff.1 hi
    exact congrArg Json.obj (Dict.modify_eq_self h (by simp [setElement]))
  | _ => rfl

end Json

namespace Panel

/-! ### Shapes -/

/-- The item that a field may have in a group with the given path: a control for a
    field of a kind there is, and else a warning, both at the path of the field. -/
inductive OfField (group : Path) (field : Json) : List Item → Prop
  | control {c : Control} : field.field? "type" = some (.str c.kind.name) →
      c.path = group.child (textOf field "key") → OfField group field [.control c]
  | warning : (∀ kind : Kind, field.field? "type" ≠ some (.str kind.name)) →
      OfField group field [.warning (group.child (textOf field "key"))
        (.unknownKind ((field.field? "type").bind Json.str?))]

/-- The items that a group may have below the given path: its heading and then, in
    their order, those of the elements of its list of fields. -/
inductive OfGroup (parent : Path) (group : Json) : List Item → Prop
  | mk {parts : List (List Item)} :
      List.Forall₂ (OfField (parent.child (textOf group "key"))) (listOf group "fields") parts →
      OfGroup parent group
        (.group (parent.child (textOf group "key")) (textOf group "label") :: parts.flatten)

/-- The items that a node may have: its heading and then, in their order, those of
    the elements of its list of groups for a tab, those of the group for a group,
    and a warning for anything else. -/
inductive OfNode (node : Json) : List Item → Prop
  | tab {parts : List (List Item)} : node.field? "kind" = some (.str "tab") →
      List.Forall₂ (OfGroup ⟨[textOf node "key"]⟩) (listOf node "groups") parts →
      OfNode node (.tab (textOf node "key") (textOf node "label") :: parts.flatten)
  | group {items : List Item} : node.field? "kind" = some (.str "group") →
      OfGroup .root node items → OfNode node items
  | warning {path : Path} : node.field? "kind" ≠ some (.str "tab") →
      node.field? "kind" ≠ some (.str "group") →
      OfNode node [.warning path (.unknownNode ((node.field? "kind").bind Json.str?))]

theorem OfNode.ne_nil {node : Json} {items : List Item} (h : OfNode node items) : items ≠ [] := by
  cases h with
  | tab _ _ => exact List.cons_ne_nil _ _
  | group _ h =>
    cases h
    exact List.cons_ne_nil _ _
  | warning _ _ => exact List.cons_ne_nil _ _

theorem bind_str?_eq_some {j : Json} {name text : String} :
    (j.field? name).bind Json.str? = some text ↔ j.field? name = some (.str text) := by
  cases j.field? name with
  | none => simp
  | some v => cases v <;> simp [Json.str?]

theorem ofField_fieldItem (group : Path) (field : Json) :
    OfField group field [fieldItem group field] := by
  rw [fieldItem]
  split
  · rename_i kind hkind
    obtain ⟨name, hname, hkind⟩ := Option.bind_eq_some_iff.1 hkind
    refine .control ?_ rfl
    rw [bind_str?_eq_some.1 hname, Kind.name_of_ofName? hkind]
  · rename_i hnone
    refine .warning fun kind hkind => ?_
    rw [bind_str?_eq_some.2 hkind, Option.bind_some, Kind.ofName?_name] at hnone
    cases hnone

theorem ofGroup_groupItems (parent : Path) (group : Json) :
    OfGroup parent group (groupItems parent group) := by
  rw [groupItems, List.map_eq_flatMap, List.flatMap_def]
  refine .mk ?_
  rw [List.forall₂_map_right_iff, List.forall₂_same]
  exact fun field _ => ofField_fieldItem _ field

theorem ofNode_nodeItems (index : Nat) (node : Json) : OfNode node (nodeItems index node) := by
  rw [nodeItems]
  split
  · rename_i hkind
    rw [List.flatMap_def]
    refine .tab (bind_str?_eq_some.1 hkind) ?_
    rw [List.forall₂_map_right_iff, List.forall₂_same]
    exact fun group _ => ofGroup_groupItems _ group
  · rename_i hkind
    exact .group (bind_str?_eq_some.1 hkind) (ofGroup_groupItems _ node)
  · rename_i htab hgroup
    exact .warning (mt bind_str?_eq_some.2 htab) (mt bind_str?_eq_some.2 hgroup)

/-! ### Places -/

/-- The way to an element: names of lists and places in them, from the outside in. -/
abbrev Place := List (String × Nat)

/-- The element at a place. -/
def element? (j : Json) : Place → Option Json
  | [] => some j
  | (name, i) :: rest => (listOf j name)[i]?.bind (element? · rest)

/-- The value with the element at a place, if there is one, replaced. -/
def replace (j new : Json) : Place → Json
  | [] => new
  | (name, i) :: rest =>
    match (listOf j name)[i]? with
    | some inner => j.setItem name i (replace inner new rest)
    | none => j

/-- The places in a manifest from which items are read, and which items an element
    that stands there may have. -/
inductive Describes (m : Json) : Place → (Json → List Item → Prop) → Prop
  | node (i : Nat) : Describes m [("nodes", i)] OfNode
  | groupOfTab {i : Nat} {tab : Json} (j : Nat) : (listOf m "nodes")[i]? = some tab →
      tab.field? "kind" = some (.str "tab") →
      Describes m [("nodes", i), ("groups", j)] (OfGroup ⟨[textOf tab "key"]⟩)
  | fieldOfTab {i j : Nat} {tab group : Json} (k : Nat) : (listOf m "nodes")[i]? = some tab →
      tab.field? "kind" = some (.str "tab") → (listOf tab "groups")[j]? = some group →
      Describes m [("nodes", i), ("groups", j), ("fields", k)]
        (OfField ⟨[textOf tab "key", textOf group "key"]⟩)
  | fieldOfGroup {i : Nat} {group : Json} (k : Nat) : (listOf m "nodes")[i]? = some group →
      group.field? "kind" = some (.str "group") →
      Describes m [("nodes", i), ("fields", k)] (OfField ⟨[textOf group "key"]⟩)

variable {j m : Json} {name : String} {i : Nat}

theorem textOf_setItem {other : String} (h : other ≠ name) (new : Json) :
    textOf (j.setItem name i new) other = textOf j other := by
  rw [textOf, Json.field?_setItem_of_ne j h, textOf]

theorem listOf_setItem (new : Json) :
    listOf (j.setItem name i new) name = (listOf j name).set i new := by
  rw [listOf, Json.field?_setItem_self, listOf]
  cases j.field? name with
  | none => rfl
  | some v => cases v <;> rfl

/-- Only a list has elements. -/
theorem field?_of_getElem?_listOf {inner : Json} (h : (listOf j name)[i]? = some inner) :
    j.field? name = some (.arr (listOf j name)) := by
  revert h
  rw [listOf]
  cases hfield : j.field? name with
  | none => exact nofun
  | some v =>
    cases v with
    | arr items => exact fun _ => rfl
    | _ => exact nofun

theorem replace_cons {inner new : Json} {rest : Place} (h : (listOf j name)[i]? = some inner) :
    replace j new ((name, i) :: rest) = j.setItem name i (replace inner new rest) := by
  rw [replace, h]

/-- To replace an element by itself changes nothing. -/
theorem replace_eq_self {old : Json} {place : Place} (h : element? j place = some old) :
    replace j old place = j := by
  induction place generalizing j with
  | nil => exact (Option.some.inj h).symm
  | cons step rest ih =>
    obtain ⟨name, i⟩ := step
    obtain ⟨inner, hinner, hrest⟩ := Option.bind_eq_some_iff.1 h
    rw [replace_cons hinner, ih hrest]
    exact Json.setItem_eq_self (field?_of_getElem?_listOf hinner) hinner

/-- What an element is replaced by stands at its place. -/
theorem element?_replace {old : Json} {place : Place} (h : element? j place = some old)
    (new : Json) : element? (replace j new place) place = some new := by
  induction place generalizing j with
  | nil => rfl
  | cons step rest ih =>
    obtain ⟨name, i⟩ := step
    obtain ⟨inner, hinner, hrest⟩ := Option.bind_eq_some_iff.1 h
    obtain ⟨hi, -⟩ := List.getElem?_eq_some_iff.1 hinner
    rw [replace_cons hinner, element?, listOf_setItem, List.getElem?_set_self hi]
    exact ih hrest

/-! ### Isolation -/

/-- Among the items that are read with an element, the part that is read from the
    element stands in one place, and the others do not depend on the element. -/
def Isolates (items part : Json → List Item) : Prop :=
  ∃ before after, ∀ element, items element = before ++ part element ++ after

/-- What is isolated within an isolated part is isolated in the whole. -/
theorem Isolates.trans {items part inner : Json → List Item} {edit : Json → Json}
    (h : Isolates items part) (hinner : Isolates (fun element => part (edit element)) inner) :
    Isolates (fun element => items (edit element)) inner := by
  obtain ⟨before, after, h⟩ := h
  obtain ⟨before', after', hinner⟩ := hinner
  refine ⟨before ++ before', after' ++ after, fun element => ?_⟩
  calc items (edit element)
    _ = before ++ part (edit element) ++ after := h (edit element)
    _ = before ++ (before' ++ inner element ++ after') ++ after := by rw [← hinner element]
    _ = before ++ before' ++ inner element ++ (after' ++ after) := by
      simp only [List.append_assoc]

theorem Isolates.cons {items part : Json → List Item} (h : Isolates items part) (first : Item) :
    Isolates (fun element => first :: items element) part := by
  obtain ⟨before, after, h⟩ := h
  exact ⟨first :: before, after, fun element => congrArg _ (h element)⟩

/-- The items of the elements of a list are isolated from each other. -/
theorem isolates_flatten {l : List Json} (hi : i < l.length) (part : Nat → Json → List Item) :
    Isolates (fun element => ((l.set i element).mapIdx part).flatten) (part i) := by
  refine ⟨((l.take i).mapIdx part).flatten,
    ((l.drop (i + 1)).mapIdx fun k => part (k + 1 + i)).flatten, fun element => ?_⟩
  change ((l.set i element).mapIdx part).flatten = _
  rw [List.set_eq_take_append_cons_drop, if_pos hi, List.mapIdx_append, List.mapIdx_cons]
  simp [Nat.min_eq_left (Nat.le_of_lt hi)]

theorem isolates_flatMap {l : List Json} (hi : i < l.length) (part : Json → List Item) :
    Isolates (fun element => (l.set i element).flatMap part) part := by
  refine ⟨(l.take i).flatMap part, (l.drop (i + 1)).flatMap part, fun element => ?_⟩
  change (l.set i element).flatMap part = _
  rw [List.set_eq_take_append_cons_drop, if_pos hi, List.flatMap_append, List.flatMap_cons,
    List.append_assoc]

theorem ofManifest_of_nodes {nodes : List Json} (h : m.field? "nodes" = some (.arr nodes)) :
    ofManifest m = (nodes.mapIdx nodeItems).flatten := by
  rw [ofManifest, h]
  rfl

theorem isolates_node {nodes : List Json} (h : m.field? "nodes" = some (.arr nodes))
    (hi : i < nodes.length) :
    Isolates (fun node => ofManifest (m.setItem "nodes" i node)) (nodeItems i) := by
  have hedit : ∀ node, ofManifest (m.setItem "nodes" i node) =
      ((nodes.set i node).mapIdx nodeItems).flatten := by
    intro node
    refine ofManifest_of_nodes ?_
    rw [Json.field?_setItem_self, h]
    rfl
  simpa only [hedit] using isolates_flatten hi nodeItems

theorem isolates_field {group : Json} (parent : Path) (hi : i < (listOf group "fields").length) :
    Isolates (fun field => groupItems parent (group.setItem "fields" i field))
      (fun field => [fieldItem (parent.child (textOf group "key")) field]) := by
  have hedit : ∀ field, groupItems parent (group.setItem "fields" i field) =
      .group (parent.child (textOf group "key")) (textOf group "label") ::
        ((listOf group "fields").set i field).flatMap
          (fun field => [fieldItem (parent.child (textOf group "key")) field]) := by
    intro field
    rw [groupItems, textOf_setItem (by decide), textOf_setItem (by decide), listOf_setItem,
      List.map_eq_flatMap]
  simp only [hedit]
  exact (isolates_flatMap hi _).cons _

/-- A node of the kind for tabs is read as one, wherever it stands. -/
theorem nodeItems_of_tab {tab : Json} (h : tab.field? "kind" = some (.str "tab")) (index : Nat) :
    nodeItems index tab = .tab (textOf tab "key") (textOf tab "label") ::
      (listOf tab "groups").flatMap (groupItems ⟨[textOf tab "key"]⟩) := by
  rw [nodeItems, h]
  rfl

theorem nodeItems_of_group {group : Json} (h : group.field? "kind" = some (.str "group"))
    (index : Nat) : nodeItems index group = groupItems .root group := by
  rw [nodeItems, h]
  rfl

theorem isolates_group {tab : Json} (h : tab.field? "kind" = some (.str "tab")) (index : Nat)
    (hi : i < (listOf tab "groups").length) :
    Isolates (fun group => nodeItems index (tab.setItem "groups" i group))
      (groupItems ⟨[textOf tab "key"]⟩) := by
  have hedit : ∀ group, nodeItems index (tab.setItem "groups" i group) =
      .tab (textOf tab "key") (textOf tab "label") ::
        ((listOf tab "groups").set i group).flatMap (groupItems ⟨[textOf tab "key"]⟩) := by
    intro group
    have hkind := (tab.field?_setItem_of_ne (by decide : "kind" ≠ "groups") i group).trans h
    rw [nodeItems_of_tab hkind, textOf_setItem (by decide), textOf_setItem (by decide),
      listOf_setItem]
  simp only [hedit]
  exact (isolates_flatMap hi _).cons _

/-- An element at a place from which items are read is isolated, with items of the
    shape that the place asks for. -/
theorem isolates_of_describes {place : Place} {of : Json → List Item → Prop} {old : Json}
    (h : Describes m place of) (hold : element? m place = some old) :
    ∃ part, (∀ element, of element (part element)) ∧
      Isolates (fun element => ofManifest (replace m element place)) part := by
  -- On the way to the place each level is isolated in the one around it.
  have hnode {i : Nat} {node : Json} (hi : (listOf m "nodes")[i]? = some node) :
      Isolates (fun node => ofManifest (m.setItem "nodes" i node)) (nodeItems i) :=
    isolates_node (field?_of_getElem?_listOf hi) (List.getElem?_eq_some_iff.1 hi).1
  cases h with
  | node i =>
    obtain ⟨node, hi, -⟩ := Option.bind_eq_some_iff.1 hold
    refine ⟨nodeItems i, ofNode_nodeItems i, ?_⟩
    simp only [replace_cons hi]
    exact hnode hi
  | @groupOfTab i tab j hi htab =>
    have hj : (listOf tab "groups")[j]? = some old := by simpa [element?, hi] using hold
    refine ⟨groupItems ⟨[textOf tab "key"]⟩, ofGroup_groupItems _, ?_⟩
    simp only [replace_cons hi, replace_cons hj]
    exact (hnode hi).trans (isolates_group htab i (List.getElem?_eq_some_iff.1 hj).1)
  | @fieldOfTab i j tab group k hi htab hj =>
    have hk : (listOf group "fields")[k]? = some old := by simpa [element?, hi, hj] using hold
    refine ⟨fun field => [fieldItem ⟨[textOf tab "key", textOf group "key"]⟩ field],
      ofField_fieldItem _, ?_⟩
    simp only [replace_cons hi, replace_cons hj, replace_cons hk]
    have hgroup := isolates_group htab i (List.getElem?_eq_some_iff.1 hj).1
    have hfield := isolates_field ⟨[textOf tab "key"]⟩ (List.getElem?_eq_some_iff.1 hk).1
    exact (hnode hi).trans (hgroup.trans hfield)
  | @fieldOfGroup i group k hi hgroup =>
    have hk : (listOf group "fields")[k]? = some old := by simpa [element?, hi] using hold
    refine ⟨fun field => [fieldItem ⟨[textOf group "key"]⟩ field], ofField_fieldItem _, ?_⟩
    simp only [replace_cons hi, replace_cons hk]
    refine (hnode hi).trans ?_
    -- The edited node is still a group, as its kind has another name than its fields.
    have hkind := fun field =>
      (group.field?_setItem_of_ne (by decide : "kind" ≠ "fields") k field).trans hgroup
    simp only [nodeItems_of_group (hkind _)]
    exact isolates_field .root (List.getElem?_eq_some_iff.1 hk).1

/-- The panel of a manifest with a list of nodes is the items of its nodes in their
    order, for each node one or more: the heading and the groups of a tab, the heading
    of a group and one item for each of its fields, which is a control exactly for a
    kind there is, or a warning. And whatever node, group or field is replaced by
    whatever value, its items become those of the new value, and the items before and
    behind them stay as they are. -/
theorem ofManifest_isolates {nodes : List Json} (h : m.field? "nodes" = some (.arr nodes)) :
    (∃ parts, ofManifest m = parts.flatten ∧ List.Forall₂ OfNode nodes parts ∧
      ∀ part ∈ parts, part ≠ []) ∧
    ∀ place of old, Describes m place of → element? m place = some old →
      ∃ before part after, ofManifest m = before ++ part ++ after ∧ of old part ∧
        ∀ new, element? (replace m new place) place = some new ∧
          ∃ part', of new part' ∧
            ofManifest (replace m new place) = before ++ part' ++ after := by
  refine ⟨⟨nodes.mapIdx nodeItems, ofManifest_of_nodes h, ?_, fun part hpart => ?_⟩,
    fun place of old hplace hold => ?_⟩
  · refine List.forall₂_iff_get.2 ⟨List.length_mapIdx.symm, fun i hi _ => ?_⟩
    simpa using ofNode_nodeItems i nodes[i]
  · obtain ⟨i, hi, rfl⟩ := List.mem_mapIdx.1 hpart
    exact (ofNode_nodeItems i nodes[i]).ne_nil
  · obtain ⟨part, hof, before, after, hpart⟩ := isolates_of_describes hplace hold
    refine ⟨before, part old, after, ?_, hof old, fun new => ⟨element?_replace hold new, ?_⟩⟩
    · exact replace_eq_self hold ▸ hpart old
    · exact ⟨part new, hof new, hpart new⟩

/-- A field of a kind nobody knows. -/
def glow : Json :=
  .obj [("key", .str "glow"), ("type", .str "hologram")]

/-- A group of a title, such a field and a number. -/
def faultyGroup : Json :=
  .obj [("fields", .arr [.obj [("key", .str "title"), ("type", .str "text")], glow, .ofNat 7]),
    ("key", .str "content")]

/-- A tab of this group and one that is none. -/
def faultyTab : Json :=
  .obj [("groups", .arr [faultyGroup, .null]), ("key", .str "normal"), ("kind", .str "tab"),
    ("label", .str "Normal")]

/-- Such a tab behind a node that is none. -/
def faultyManifest : Json :=
  .obj [("nodes", .arr [.str "tab", faultyTab])]

/-- Each fault has its own warning between the items of the other elements, and the
    field of a kind nobody knows can become anything without a change to them. -/
theorem faulty_field_isolated :
    ofManifest faultyManifest =
      [.warning ⟨["#0"]⟩ (.unknownNode none), .tab "normal" "Normal",
        .group ⟨["normal", "content"]⟩ "",
        .control ⟨⟨["normal", "content", "title"]⟩, .text, "", .null, false⟩,
        .warning ⟨["normal", "content", "glow"]⟩ (.unknownKind (some "hologram")),
        .warning ⟨["normal", "content", ""]⟩ (.unknownKind none),
        .group ⟨["normal", ""]⟩ ""] ∧
    faultyManifest.field? "nodes" = some (.arr [.str "tab", faultyTab]) ∧
    element? faultyManifest [("nodes", 1), ("groups", 0), ("fields", 1)] = some glow ∧
    ∃ before part after, ofManifest faultyManifest = before ++ part ++ after ∧
      OfField ⟨["normal", "content"]⟩ glow part ∧
      ∀ new, element? (replace faultyManifest new [("nodes", 1), ("groups", 0), ("fields", 1)])
          [("nodes", 1), ("groups", 0), ("fields", 1)] = some new ∧
        ∃ part', OfField ⟨["normal", "content"]⟩ new part' ∧
          ofManifest (replace faultyManifest new [("nodes", 1), ("groups", 0), ("fields", 1)]) =
            before ++ part' ++ after := by
  have htab : (listOf faultyManifest "nodes")[1]? = some faultyTab := rfl
  have hgroup : (listOf faultyTab "groups")[0]? = some faultyGroup := rfl
  have hplace := Describes.fieldOfTab 1 htab rfl hgroup
  exact ⟨rfl, rfl, rfl, (ofManifest_isolates rfl).2 _ _ _ hplace rfl⟩

end Panel

end ScopedStyle
