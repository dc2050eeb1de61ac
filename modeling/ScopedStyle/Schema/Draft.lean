import ScopedStyle.Field.Attribute
import ScopedStyle.Schema.Basic

/-!
# Drafts of schemas

A schema is written down step by step: a step opens a tab or a group, declares a
field in the open group, or closes what is open. Opening a group closes the
group before it, opening a tab also the tab, and the end closes everything.

A key is checked where its scope is opened, against those that stand beside it.
Tabs and groups at the root share their keys, every tab has keys of its own.
-/

namespace ScopedStyle.Schema

/-- Why a step cannot be taken. -/
inductive Error where
  /-- The group with the path `scope` has a field with the key. -/
  | duplicateField (key scope : String)
  /-- There is a group with the key in `scope`. -/
  | duplicateGroup (key scope : String)
  /-- There is a tab or group with the key. -/
  | duplicateTab (key : String)
  /-- The key of a tab or group is not one segment of a path. -/
  | invalidKey (key : String)
  /-- A tab or group has no label. -/
  | missingLabel (key : String)
  /-- A field stands outside of all groups. -/
  | noGroup
  /-- A field cannot be made. -/
  | field (e : Field.Error)

/-- The wording of an error. -/
def Error.message : Error → String
  | .duplicateField key scope => s!"duplicate field key `{key}` in group `{scope}`"
  | .duplicateGroup key scope => s!"duplicate group key `{key}` in `{scope}`"
  | .duplicateTab key => s!"duplicate tab key `{key}`"
  | .invalidKey key =>
    s!"invalid key `{key}`: keys are single non-empty segments without `.` or whitespace"
  | .missingLabel key => s!"`{key}` is missing required attribute `label`"
  | .noGroup => "fields stand in groups"
  | .field e => e.message

/-- What stands for the path of the root. -/
def rootScope : String := "<root>"

/-- One step of a draft. -/
inductive Step where
  /-- Opens a tab. -/
  | openTab (key label : String)
  /-- Opens a group. -/
  | openGroup (key label : String)
  /-- Declares a field of the kind with the name. -/
  | field (kindName : String) (attributes : List Field.Attribute)
  /-- Closes the open group. -/
  | closeGroup
  /-- Closes the open tab. -/
  | closeTab

/-- A schema with the scopes that are still open. -/
structure Draft where
  /-- What the schema describes. -/
  category : Category
  /-- The closed tabs and groups at the root. -/
  nodes : List Node
  /-- The open tab. -/
  tab? : Option Tab
  /-- The open group. -/
  group? : Option Group

namespace Draft

/-- The draft without fields. -/
def start (category : Category) : Draft :=
  ⟨category, [], none, none⟩

/-- The draft without an open group. -/
def closeGroup (d : Draft) : Draft :=
  match d.group?, d.tab? with
  | none, _ => d
  | some g, some t => { d with tab? := some { t with groups := t.groups ++ [g] }, group? := none }
  | some g, none => { d with nodes := d.nodes ++ [.group g], group? := none }

/-- The draft without open scopes. -/
def closeTab (d : Draft) : Draft :=
  let d := d.closeGroup
  match d.tab? with
  | none => d
  | some t => { d with nodes := d.nodes ++ [.tab t], tab? := none }

/-- The schema that is drafted. -/
def finish (d : Draft) : Schema :=
  ⟨d.category, d.closeTab.nodes⟩

/-- Whether a key and a label can head a tab or group. -/
def checkHeading (key label : String) : Except Error Unit :=
  if !Path.isKey key then .error (.invalidKey key)
  else if label.isEmpty then .error (.missingLabel key)
  else .ok ()

/-- Whether a tab or group at the root has the key. -/
def usesKey (d : Draft) (key : String) : Bool :=
  d.nodes.any (·.key = key)

/-- The draft with a new open tab. -/
def openTab (d : Draft) (key label : String) : Except Error Draft := do
  let d := d.closeTab
  checkHeading key label
  if d.usesKey key then .error (.duplicateTab key)
  else return { d with tab? := some ⟨key, label, []⟩ }

/-- The draft with a new open group, in the open tab if there is one. -/
def openGroup (d : Draft) (key label : String) : Except Error Draft := do
  let d := d.closeGroup
  checkHeading key label
  let opened := { d with group? := some ⟨key, label, []⟩ }
  match d.tab? with
  | some t => if (t.group? key).isSome then .error (.duplicateGroup key t.key) else return opened
  | none => if d.usesKey key then .error (.duplicateGroup key rootScope) else return opened

/-- The path of a group in the draft as text. -/
def scopeText (d : Draft) (g : Group) : String :=
  match d.tab? with
  | some t => Path.toText ⟨[t.key, g.key]⟩
  | none => g.key

/-- The draft with one more field in the open group. -/
def addField (d : Draft) (f : Field) : Except Error Draft :=
  match d.group? with
  | none => .error .noGroup
  | some g =>
    if (g.field? f.key).isSome then .error (.duplicateField f.key (d.scopeText g))
    else .ok { d with group? := some { g with fields := g.fields ++ [f] } }

/-- The draft after one more step. -/
def take (d : Draft) : Step → Except Error Draft
  | .openTab key label => d.openTab key label
  | .openGroup key label => d.openGroup key label
  | .field kindName attributes => do
    d.addField (← (Field.ofAttributes kindName attributes).mapError .field)
  | .closeGroup => .ok d.closeGroup
  | .closeTab => .ok d.closeTab

end Draft

/-- The schema that a list of steps writes down. -/
def ofSteps (category : Category) (steps : List Step) : Except Error Schema :=
  (steps.foldlM Draft.take (.start category)).map Draft.finish

end ScopedStyle.Schema
