import ScopedStyle.Settings.Tree

/-!
# Instance settings

What is stored for one widget instance: a tree for its content and behaviour and
a tree for its looks.
-/

namespace ScopedStyle

/-- The stored settings of one widget instance. -/
structure InstanceSettings where
  /-- The settings of content and behaviour. -/
  general : Tree
  /-- The settings of the looks. -/
  style : Tree

namespace InstanceSettings

/-- The names of the two trees in a document. -/
def names : List String := ["general", "style"]

/-- One of the trees, empty when it is not stored. It may nest one level less
    than a document, because the record around it is a level too. -/
def treeOfPart? : Option Json.Raw → Option Tree
  | none => some .empty
  | some raw => (raw.toJson? (Json.maxDepth - 1)).map Tree.mk

/-- The settings of a document's text. -/
def ofText? (text : String) : Option InstanceSettings := do
  match ← (← Json.Raw.ofText? text).parts? names with
  | [general, style] => return ⟨← treeOfPart? general, ← treeOfPart? style⟩
  | _ => none

/-- The settings as one value. -/
def toJson (s : InstanceSettings) : Json :=
  .obj [("general", s.general.root), ("style", s.style.root)]

end InstanceSettings

end ScopedStyle
