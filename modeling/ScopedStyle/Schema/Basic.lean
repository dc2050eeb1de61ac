import ScopedStyle.Field.Basic

/-!
# Schemas

A schema lists the fields of a widget for one category of its settings. Fields
stand in groups, and groups at the root or in a tab; the keys on the way to a
field are the path of its value.

`Schema.entries` lists the fields in declaration order, which is the order of
everything made from a schema; `Schema.field?` finds a field by its path.
-/

namespace ScopedStyle

/-- What a schema describes. -/
inductive Category where
  /-- Content and behaviour. -/
  | general
  /-- Looks. -/
  | style
  deriving DecidableEq

namespace Category

/-- The name of a category. -/
def name : Category → String
  | .general => "general"
  | .style => "style"

/-- The category with a name. -/
def ofName? (name : String) : Option Category :=
  [general, style].find? (·.name = name)

end Category

/-- A list of fields with a heading. -/
structure Group where
  /-- The segment of the group in the paths of its fields. -/
  key : String
  /-- The heading. -/
  label : String
  /-- The fields. -/
  fields : List Field

/-- The field of a group with a key. -/
def Group.field? (g : Group) (key : String) : Option Field :=
  g.fields.find? (·.key = key)

/-- A list of groups under one heading. -/
structure Tab where
  /-- The segment of the tab in the paths of its fields. -/
  key : String
  /-- The heading. -/
  label : String
  /-- The groups. -/
  groups : List Group

/-- The group of a tab with a key. -/
def Tab.group? (t : Tab) (key : String) : Option Group :=
  t.groups.find? (·.key = key)

/-- A field and the path of the group that it stands in. -/
structure Entry where
  /-- The path of the group. -/
  group : Path
  /-- The field. -/
  field : Field

/-- The path of the field. -/
def Entry.path (e : Entry) : Path :=
  e.group.child e.field.key

/-- What stands at the root of a schema. -/
inductive Node where
  /-- A tab. -/
  | tab (t : Tab)
  /-- A group that is in no tab. -/
  | group (g : Group)

/-- The fields of a group with the given path. -/
def Group.entries (g : Group) (path : Path) : List Entry :=
  g.fields.map fun f => ⟨path, f⟩

namespace Node

/-- The key of a node. -/
def key : Node → String
  | .tab t => t.key
  | .group g => g.key

/-- The fields of a node in order. -/
def entries : Node → List Entry
  | .tab t => t.groups.flatMap fun g => g.entries ⟨[t.key, g.key]⟩
  | .group g => g.entries ⟨[g.key]⟩

/-- The field of a node at a row of segments. -/
def field? : Node → List String → Option Field
  | .tab t, [tabKey, groupKey, fieldKey] =>
    if t.key = tabKey then (t.group? groupKey).bind (·.field? fieldKey) else none
  | .group g, [groupKey, fieldKey] =>
    if g.key = groupKey then g.field? fieldKey else none
  | _, _ => none

end Node

/-- The fields of a widget for one category. -/
structure Schema where
  /-- What the schema describes. -/
  category : Category
  /-- The tabs and groups at the root. -/
  nodes : List Node

namespace Schema

/-- The schema without fields. -/
def empty (category : Category) : Schema :=
  ⟨category, []⟩

/-- All fields in declaration order. -/
def entries (s : Schema) : List Entry :=
  s.nodes.flatMap Node.entries

/-- The number of fields. -/
def size (s : Schema) : Nat :=
  s.entries.length

/-- The field at a path. -/
def field? (s : Schema) (p : Path) : Option Field :=
  s.nodes.findSome? (·.field? p.segments)

/-- The path of the first field with a key. -/
def pathOfKey? (s : Schema) (key : String) : Option Path :=
  (s.entries.find? (·.field.key = key)).map Entry.path

end Schema

end ScopedStyle
