import ScopedStyle.Schema.Manifest

/-!
# Panels

An editor reads a manifest into the items of a panel: headings of tabs and
groups, and a control per field. A manifest may come from a newer version, so
what the reader does not know becomes a warning in its place, and the reading
goes on behind it. Every node, group and field stands for itself: what one of
them holds does not change the items of another.
-/

namespace ScopedStyle.Panel

/-- A control for the value of a field. -/
structure Control where
  /-- Where the value is stored. -/
  path : Path
  /-- The kind of the field. -/
  kind : Kind
  /-- The text beside the control. -/
  label : String
  /-- The value that counts when none is stored, `null` for none. -/
  default : Json
  /-- Whether the value may vary by breakpoint. -/
  responsive : Bool

/-- Why a part of a manifest cannot be shown. -/
inductive Trouble where
  /-- The manifest has no list of nodes. -/
  | noNodes
  /-- There is no node of this kind. -/
  | unknownNode (kind : Option String)
  /-- There is no field of this kind. -/
  | unknownKind (kind : Option String)

/-- A name that may be missing. -/
def describe : Option String → String
  | some name => s!"`{name}`"
  | none => "(missing)"

/-- The wording of a trouble. -/
def Trouble.message : Trouble → String
  | .noNodes => "manifest has no `nodes` list"
  | .unknownNode kind => "unsupported node kind " ++ describe kind
  | .unknownKind kind => "unknown field type " ++ describe kind

/-- An item of a panel. -/
inductive Item where
  /-- The heading of a tab. -/
  | tab (key label : String)
  /-- The heading of a group. -/
  | group (path : Path) (label : String)
  /-- A control. -/
  | control (c : Control)
  /-- A part that cannot be shown. -/
  | warning (path : Path) (trouble : Trouble)

/-- An item as a line of text. -/
def Item.line : Item → String
  | .tab key label => s!"[tab {key}] {label}"
  | .group path label => "[group " ++ path.toText ++ "] " ++ label
  | .control c =>
    "  " ++ c.path.toText ++ " (" ++ c.kind.name ++ ") " ++ c.label ++
      if c.responsive then " [responsive]" else ""
  | .warning path trouble => "  ! " ++ path.toText ++ ": " ++ trouble.message

/-- The text under a name, empty if there is none. -/
def textOf (j : Json) (name : String) : String :=
  ((j.field? name).bind Json.str?).getD ""

/-- The items of the list under a name, none if there is no list. -/
def listOf (j : Json) (name : String) : List Json :=
  ((j.field? name).bind Json.arr?).getD []

/-- The item of a field in the group with the given path. -/
def fieldItem (group : Path) (field : Json) : Item :=
  let path := group.child (textOf field "key")
  let kindName := (field.field? "type").bind Json.str?
  match kindName.bind Kind.ofName? with
  | some kind =>
    .control {
      path
      kind
      label := textOf field "label"
      default := (field.field? "default").getD .null
      responsive := ((field.field? "responsive").bind Json.bool?).getD false }
  | none => .warning path (.unknownKind kindName)

/-- The items of a group below the given path. -/
def groupItems (parent : Path) (group : Json) : List Item :=
  let path := parent.child (textOf group "key")
  .group path (textOf group "label") :: (listOf group "fields").map (fieldItem path)

/-- The items of the node with the given place in the list. -/
def nodeItems (index : Nat) (node : Json) : List Item :=
  let key := textOf node "key"
  match (node.field? "kind").bind Json.str? with
  | some "tab" =>
    .tab key (textOf node "label") :: (listOf node "groups").flatMap (groupItems ⟨[key]⟩)
  | some "group" => groupItems .root node
  | other =>
    let name := if key.isEmpty then "#" ++ Nat.repr index else key
    [.warning ⟨[name]⟩ (.unknownNode other)]

/-- The items that a manifest describes. -/
def ofManifest (manifest : Json) : List Item :=
  match (manifest.field? "nodes").bind Json.arr? with
  | some nodes => (nodes.mapIdx nodeItems).flatten
  | none => [.warning .root .noNodes]

/-- The panel of a schema as text, a line for each item. -/
def outline (s : Schema) : String :=
  "\n".intercalate ((ofManifest s.manifest).map Item.line)

end ScopedStyle.Panel
