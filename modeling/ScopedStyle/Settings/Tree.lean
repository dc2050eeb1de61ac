import ScopedStyle.Json.Raw
import ScopedStyle.Json.Printer
import ScopedStyle.Settings.Path

/-!
# Settings trees

The settings of one widget instance for one category are a JSON value whose
objects follow the key paths: `{ group: { field: value } }`, one level deeper
below a tab. The document may hold anything, so a tree is any value, and a path
that leads through what is no object leads nowhere.

`get?` reads a stored `null` as no value; `put` writes through whatever is in
its way; `remove` removes a value, a stored `null` too.
-/

namespace ScopedStyle

namespace Json

/-- The value at the end of a row of keys. -/
def descend? (j : Json) : List String → Option Json
  | [] => some j
  | key :: keys => (j.field? key).bind (descend? · keys)

/-- The value with `new` at the end of a row of keys. On the way there whatever
    is no object becomes an empty one. -/
def write (j : Json) (keys : List String) (new : Json) : Json :=
  match keys with
  | [] => new
  | key :: keys => .obj (j.entries.put key (write ((j.field? key).getD .null) keys new))

/-- What a removal at the end of a row of keys finds, and the value that it
    leaves behind. Every object on the way gets back what is left below it. -/
def remove (j : Json) : List String → Option Json × Json
  | [] => (none, j)
  | [key] =>
    match j.field? key with
    | none => (none, j)
    | some found => (some found, .obj (j.entries.erase key))
  | key :: keys =>
    match j.field? key with
    | none => (none, j)
    | some child =>
      let (found, left) := remove child keys
      (found, .obj (j.entries.put key left))

end Json

/-- The settings of one instance for one category. -/
structure Tree where
  /-- The stored value. -/
  root : Json

namespace Tree

/-- The tree that stores nothing. -/
def empty : Tree := ⟨.obj []⟩

/-- The tree of a document's text. -/
def ofText? (text : String) : Option Tree :=
  (Json.ofText? text).map Tree.mk

/-- The document's text. -/
def toText (t : Tree) : String :=
  t.root.toText

/-- The value that is stored at a path. -/
def get? (t : Tree) (p : Path) : Option Json :=
  (t.root.descend? p.segments).bind Json.nonNull?

/-- The tree with a value stored at a path; at the root it replaces all. -/
def put (t : Tree) (p : Path) (value : Json) : Tree :=
  ⟨t.root.write p.segments value⟩

/-- What a removal at a path finds, and the tree that it leaves behind; the root
    stays. -/
def remove (t : Tree) (p : Path) : Option Json × Tree :=
  let (found, left) := t.root.remove p.segments
  (found, ⟨left⟩)

/-- What a removal finds together with the tree behind it, if it finds anything. -/
def take? (t : Tree) (p : Path) : Option (Json × Tree) :=
  let (found, left) := t.remove p
  found.map (·, left)

end Tree

/-- What conditions read: the values at paths, and which paths name a field. -/
structure Source where
  /-- The value at a path. -/
  value? : Path → Option Json
  /-- Whether a path names a field, with or without a value. -/
  hasField : Path → Bool

/-- A tree as a source. It does not know the fields, so every path may be one. -/
def Tree.source (t : Tree) : Source where
  value? := t.get?
  hasField _ := true

end ScopedStyle
