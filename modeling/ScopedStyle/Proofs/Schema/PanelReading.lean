import ScopedStyle.Proofs.Schema.Addressing
import ScopedStyle.Schema.Panel

/-!
# Panels of schemas

The reader of manifests knows nothing of schemas, it looks up names in objects.
What a manifest lists under them is found again: every attribute of a field
under its own name (`Field.field?_toJson`), so a field is read as the control of
its entry (`Panel.fieldItem_toJson`), and the manifest of a schema as the items
of its nodes (`Panel.ofManifest_manifest`).

A value that is written at the path of a control is stored for the field of this
control and for no other one (`Schema.panel_of_manifest`).
-/

namespace ScopedStyle

/-- The control for a field. -/
def Entry.control (e : Entry) : Panel.Control where
  path := e.path
  kind := e.field.kind
  label := e.field.label
  default := e.field.default
  responsive := e.field.responsive

/-- The heading of a group with the given path and the controls below it. -/
def Group.items (g : Group) (path : Path) : List Panel.Item :=
  .group path g.label :: (g.entries path).map fun e => .control e.control

/-- The headings and controls of a node. -/
def Node.items : Node → List Panel.Item
  | .tab t => .tab t.key t.label :: t.groups.flatMap fun g => g.items ⟨[t.key, g.key]⟩
  | .group g => g.items ⟨[g.key]⟩

/-- The control that an item is. -/
def Panel.Item.control? : Panel.Item → Option Panel.Control
  | .control c => some c
  | _ => none

/-! ### Attributes of a field -/

/-- Where no value is declared under a name, none is found. -/
theorem Dict.get?_filterMap_eq_none {α : Type} {attributes : List (String × Option α)}
    {name : String} (h : name ∉ attributes.map Prod.fst) :
    Dict.get? (attributes.filterMap fun (name, value?) => value?.map (name, ·)) name = none := by
  induction attributes with
  | nil => rfl
  | cons first rest ih =>
    obtain ⟨other, value?⟩ := first
    obtain ⟨hne, hrest⟩ := not_or.1 (mt List.mem_cons.2 h)
    cases value? with
    | none => exact ih hrest
    | some value => simpa [Dict.get?, Ne.symm hne] using ih hrest

/-- In a list of attributes with different names each one is found under its
    name, if it has a value. -/
theorem Dict.get?_filterMap {α : Type} {attributes : List (String × Option α)}
    (h : (attributes.map Prod.fst).Nodup) {name : String} {value? : Option α}
    (hmem : (name, value?) ∈ attributes) :
    Dict.get? (attributes.filterMap fun (name, value?) => value?.map (name, ·)) name = value? := by
  induction attributes with
  | nil => cases hmem
  | cons first rest ih =>
    obtain ⟨hfirst, hrest⟩ := List.nodup_cons.1 h
    rcases List.mem_cons.1 hmem with rfl | hmem'
    · cases value? with
      | none =>
        -- The attribute is left out, and no other one has its name.
        rw [List.filterMap_cons_none rfl]
        exact get?_filterMap_eq_none hfirst
      | some value => simp [Dict.get?]
    · obtain ⟨other, other?⟩ := first
      have hne : other ≠ name := fun he => hfirst (List.mem_map.2 ⟨_, hmem', he.symm⟩)
      cases other? with
      | none => exact ih hrest hmem'
      | some value => simpa [Dict.get?, hne] using ih hrest hmem'

namespace Field

variable (f : Field)

theorem nodup_attributesToJson : (f.attributesToJson.map Prod.fst).Nodup := by
  simp [attributesToJson]

/-- An attribute of a field stands in the manifest under its name, if it is
    declared. -/
theorem field?_toJson {name : String} {value? : Option Json}
    (h : (name, value?) ∈ f.attributesToJson) : f.toJson.field? name = value? :=
  Dict.get?_filterMap f.nodup_attributesToJson h

/-- The default is left out where none is declared, and then reads as `null`. -/
theorem getD_field?_default : (f.toJson.field? "default").getD .null = f.default := by
  have hdefault : f.toJson.field? "default" = f.default.nonNull? :=
    f.field?_toJson (by simp [attributesToJson])
  rw [hdefault]
  cases f.default <;> rfl

end Field

/-! ### Items -/

namespace Panel

theorem textOf_of_field? {j : Json} {name text : String} (h : j.field? name = some (.str text)) :
    textOf j name = text := by
  rw [textOf, h]
  rfl

/-- A field is read as the control of its entry. -/
theorem fieldItem_toJson (e : Entry) : fieldItem e.group e.field.toJson = .control e.control := by
  obtain ⟨group, f⟩ := e
  have hkey : textOf f.toJson "key" = f.key :=
    textOf_of_field? (f.field?_toJson (by simp [Field.attributesToJson]))
  have hlabel : textOf f.toJson "label" = f.label :=
    textOf_of_field? (f.field?_toJson (by simp [Field.attributesToJson]))
  have hkind : f.toJson.field? "type" = some (.str f.kind.name) :=
    f.field?_toJson (by simp [Field.attributesToJson])
  have hresponsive : f.toJson.field? "responsive" = some (.bool f.responsive) :=
    f.field?_toJson (by simp [Field.attributesToJson])
  simp only [fieldItem, hkey, hlabel, hkind, hresponsive, Option.bind_some, Json.str?, Json.bool?,
    Kind.ofName?_name, Option.getD_some, f.getD_field?_default]
  rfl

theorem map_fieldItem (g : Group) (path : Path) :
    (g.fields.map Field.toJson).map (fieldItem path) =
      (g.entries path).map fun e => .control e.control := by
  rw [Group.entries, List.map_map, List.map_map]
  exact List.map_congr_left fun f _ => fieldItem_toJson ⟨path, f⟩

theorem groupItems_toJson (parent : Path) (g : Group) :
    groupItems parent g.toJson = g.items (parent.child g.key) :=
  congrArg _ (map_fieldItem g _)

/-- A node is read as its items, wherever it stands. -/
theorem nodeItems_toJson (index : Nat) (n : Node) : nodeItems index n.toJson = n.items := by
  cases n with
  | tab t =>
    change .tab t.key t.label :: (t.groups.map Group.toJson).flatMap (groupItems ⟨[t.key]⟩) = _
    rw [List.flatMap_map]
    exact congrArg _ (List.flatMap_congr fun g _ => groupItems_toJson _ g)
  | group g => exact congrArg _ (map_fieldItem g _)

/-- The manifest of a schema is read as the items of its nodes. -/
theorem ofManifest_manifest (s : Schema) : ofManifest s.manifest = s.nodes.flatMap Node.items := by
  change ((s.nodes.map Node.toJson).mapIdx nodeItems).flatten = _
  have hitems : (s.nodes.map Node.toJson).mapIdx nodeItems = s.nodes.map Node.items := by
    refine List.ext_getElem (by simp) fun i h h' => ?_
    simp [nodeItems_toJson]
  rw [hitems, List.flatMap_def]

end Panel

/-! ### Writing back -/

/-- Nothing that a node declares is unknown to the reader. -/
theorem Node.warning_not_mem_items (n : Node) (path : Path) (trouble : Panel.Trouble) :
    .warning path trouble ∉ n.items := by
  cases n <;> simp [items, Group.items]

/-- The controls of a node are those for its fields. -/
theorem Node.filterMap_control?_items (n : Node) :
    n.items.filterMap Panel.Item.control? = n.entries.map Entry.control := by
  have hgroup : ∀ (g : Group) (path : Path),
      (g.items path).filterMap Panel.Item.control? = (g.entries path).map Entry.control := by
    intro g path
    rw [Group.items, List.filterMap_cons_none rfl, List.filterMap_map]
    exact congrFun List.filterMap_eq_map _
  cases n with
  | tab t =>
    rw [items, List.filterMap_cons_none rfl, List.filterMap_flatMap, entries, List.map_flatMap]
    exact List.flatMap_congr fun g _ => hgroup g _
  | group g => exact hgroup g _

namespace Schema

/-- The panel that is read from the manifest of a schema shows everything that
    the schema declares: in declaration order every tab, every group with its
    path and every field with what its control needs, and no warning. What is
    written at the path of a control is the stored value of its field, and for
    the other fields the stored values stay. -/
theorem panel_of_manifest {c : Category} {steps : List Step} {s : Schema}
    (h : ofSteps c steps = .ok s) :
    Panel.ofManifest s.manifest = s.nodes.flatMap Node.items ∧
    (Panel.ofManifest s.manifest).filterMap Panel.Item.control? = s.entries.map Entry.control ∧
    (∀ path trouble, .warning path trouble ∉ Panel.ofManifest s.manifest) ∧
    ∀ control, .control control ∈ Panel.ofManifest s.manifest →
      ∃ e ∈ s.entries, control = e.control ∧
        ∀ (t : Tree) (value : Json), value.nonNull? = some value →
          (t.put control.path value).get? e.path = some value ∧
          ∀ e' ∈ s.entries, e' ≠ e →
            (t.put control.path value).get? e'.path = t.get? e'.path := by
  have hs := ofSteps_wellFormed h
  rw [Panel.ofManifest_manifest]
  have hcontrols : (s.nodes.flatMap Node.items).filterMap Panel.Item.control? =
      s.entries.map Entry.control := by
    rw [List.filterMap_flatMap, entries, List.map_flatMap]
    exact List.flatMap_congr fun n _ => n.filterMap_control?_items
  refine ⟨rfl, hcontrols, fun path trouble hmem => ?_, fun control hmem => ?_⟩
  · obtain ⟨n, _, hmem⟩ := List.mem_flatMap.1 hmem
    exact n.warning_not_mem_items path trouble hmem
  · -- A control is that of some field, so a value is written at the path of the field.
    have hcontrol : control ∈ s.entries.map Entry.control :=
      hcontrols ▸ List.mem_filterMap.2 ⟨_, hmem, rfl⟩
    obtain ⟨e, he, rfl⟩ := List.mem_map.1 hcontrol
    refine ⟨e, he, rfl, fun t value hvalue => ⟨?_, fun e' he' hne => ?_⟩⟩
    · exact (t.get?_put_self e.path value).trans hvalue
    · exact hs.get?_put_of_ne he he' hne t value

/-- A title in a tab and a padding that varies by breakpoint at the root. -/
def titledBoxSteps : List Step :=
  [.openTab "normal" "Normal", .openGroup "content" "Content",
    .field "text" [.key "title", .label "Title", .default (.str "Hi")], .closeTab,
    .openGroup "box" "Box",
    .field "dimension" [.key "padding", .label "Padding", .responsive true]]

/-- The title can be changed in the panel of such a schema, and the padding is
    left as it is. -/
theorem titled_box_panel : ∃ s, ofSteps .style titledBoxSteps = .ok s ∧
    Panel.ofManifest s.manifest =
      [.tab "normal" "Normal", .group ⟨["normal", "content"]⟩ "Content",
        .control ⟨⟨["normal", "content", "title"]⟩, .text, "Title", .str "Hi", false⟩,
        .group ⟨["box"]⟩ "Box",
        .control ⟨⟨["box", "padding"]⟩, .dimension, "Padding", .null, true⟩] ∧
    ∀ t : Tree, (t.put ⟨["normal", "content", "title"]⟩ (.str "Ho")).get? ⟨["box", "padding"]⟩ =
      t.get? ⟨["box", "padding"]⟩ := by
  have hsteps : ofSteps .style titledBoxSteps = .ok _ := rfl
  obtain ⟨hpanel, _, _, hwrite⟩ := panel_of_manifest hsteps
  refine ⟨_, hsteps, hpanel, fun t => ?_⟩
  obtain ⟨e, _, htitle, hput⟩ := hwrite
    ⟨⟨["normal", "content", "title"]⟩, .text, "Title", .str "Hi", false⟩
    (hpanel ▸ .tail _ (.tail _ (.head _)))
  have hpath : e.path = ⟨["normal", "content", "title"]⟩ := congrArg Panel.Control.path htitle.symm
  refine (hput t (.str "Ho") rfl).2 _ (.tail _ (.head _)) fun he => ?_
  exact absurd ((congrArg Entry.path he).trans hpath) (by decide)

end Schema

end ScopedStyle
