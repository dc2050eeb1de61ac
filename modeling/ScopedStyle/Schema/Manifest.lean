import ScopedStyle.Schema.Basic

/-!
# Manifests

The manifest of a schema is the value that an editor builds its panel from. It
names the category and lists the nodes; a node at the root says whether it is a
tab or a group.
-/

namespace ScopedStyle

/-- The fields of a group in a manifest. -/
def Group.fieldsToJson (g : Group) : Json :=
  .arr (g.fields.map Field.toJson)

/-- A group of a tab in a manifest. -/
def Group.toJson (g : Group) : Json :=
  .obj [("fields", g.fieldsToJson), ("key", .str g.key), ("label", .str g.label)]

/-- A node in a manifest. -/
def Node.toJson : Node → Json
  | .tab t =>
    .obj [("groups", .arr (t.groups.map Group.toJson)), ("key", .str t.key),
      ("kind", .str "tab"), ("label", .str t.label)]
  | .group g =>
    .obj [("fields", g.fieldsToJson), ("key", .str g.key), ("kind", .str "group"),
      ("label", .str g.label)]

/-- The manifest of a schema. -/
def Schema.manifest (s : Schema) : Json :=
  .obj [("category", .str s.category.name), ("nodes", .arr (s.nodes.map Node.toJson))]

end ScopedStyle
