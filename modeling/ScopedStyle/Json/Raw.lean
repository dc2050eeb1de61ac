import ScopedStyle.Json.Lexeme

/-!
# Raw documents

A raw document is the tree of a JSON text before its values are made: repeated
keys are all there, numbers are literals, and a string may lack a text. A
document is read from its lexemes with a stack of the lists and objects that are
still open, so no nesting is too deep for it.

`Raw.toJson?` makes the value. It fails on what a document can hold and a value
cannot, and on a nesting deeper than a given depth.
-/

namespace ScopedStyle.Json

/-- The tree of a JSON text. -/
inductive Raw where
  /-- The word `null`. -/
  | null
  /-- A truth value. -/
  | bool (b : Bool)
  /-- A number literal. -/
  | num (l : Literal)
  /-- A string, without a text if it holds half of a surrogate pair. -/
  | str (text? : Option String)
  /-- A list. -/
  | arr (items : List Raw)
  /-- The entries of an object as they are written. -/
  | obj (entries : List (Option String × Raw))

namespace Raw

/-- A list or object that is still open, with what it already holds, the last
    first. -/
inductive Frame where
  /-- A list that waits for an item. -/
  | list (items : List Raw)
  /-- An object that waits for the value of a key. -/
  | object (entries : List (Option String × Raw)) (key : Option String)

/-- What the next lexeme may be. -/
inductive Expect where
  /-- The start of a value. -/
  | value
  /-- The start of the first item of a list, or its end. -/
  | itemOrClose
  /-- The first key of an object, or its end. -/
  | keyOrClose
  /-- A key of an object that has entries. -/
  | key (entries : List (Option String × Raw))
  /-- The colon behind a key. -/
  | colon (entries : List (Option String × Raw)) (key : Option String)
  /-- What goes on behind a whole value. -/
  | after (value : Raw)

/-- The state behind a lexeme that starts a value. -/
def start (stack : List Frame) : Lexeme → Option (Expect × List Frame)
  | .null => some (.after .null, stack)
  | .bool b => some (.after (.bool b), stack)
  | .num l => some (.after (.num l), stack)
  | .str text? => some (.after (.str text?), stack)
  | .openList => some (.itemOrClose, stack)
  | .openObject => some (.keyOrClose, stack)
  | _ => none

/-- The state behind a lexeme that follows a whole value. -/
def proceed (value : Raw) : List Frame → Lexeme → Option (Expect × List Frame)
  | .list items :: stack, .comma => some (.value, .list (value :: items) :: stack)
  | .list items :: stack, .closeList => some (.after (.arr (value :: items).reverse), stack)
  | .object entries key :: stack, .comma => some (.key ((key, value) :: entries), stack)
  | .object entries key :: stack, .closeObject =>
    some (.after (.obj ((key, value) :: entries).reverse), stack)
  | _, _ => none

/-- The state behind a lexeme. -/
def step (stack : List Frame) : Expect → Lexeme → Option (Expect × List Frame)
  | .value, l => start stack l
  | .itemOrClose, .closeList => some (.after (.arr []), stack)
  | .itemOrClose, l => start (.list [] :: stack) l
  | .keyOrClose, .closeObject => some (.after (.obj []), stack)
  | .keyOrClose, .str key => some (.colon [] key, stack)
  | .key entries, .str key => some (.colon entries key, stack)
  | .colon entries key, .colon => some (.value, .object entries key :: stack)
  | .after value, l => proceed value stack l
  | _, _ => none

/-- The document that the lexemes complete. -/
def run (expect : Expect) (stack : List Frame) : List Lexeme → Option Raw
  | [] =>
    match expect, stack with
    | .after value, [] => some value
    | _, _ => none
  | l :: ls => (step stack expect l).bind fun (expect, stack) => run expect stack ls

/-- The document of a text. -/
def ofText? (text : String) : Option Raw :=
  (Lexeme.ofChars? text.toList).bind (run .value [])

/-- The value of a document in which at most `depth` lists and objects lie
    inside each other. The last value of a repeated key counts. -/
def toJson? : Nat → Raw → Option Json
  | _, .null => some .null
  | _, .bool b => some (.bool b)
  | _, .num l => l.number?.map .num
  | _, .str text? => text?.map .str
  | depth + 1, .arr items => (items.mapM (toJson? depth)).map .arr
  | depth + 1, .obj entries =>
    let member? (e : Option String × Raw) : Option (String × Json) := do
      return (← e.1, ← toJson? depth e.2)
    (entries.mapM member?).map fun es => .obj (Dict.ofEntries es)
  | 0, _ => none

/-- The parts of a record with the given names, in the order of the names.

    A record is an object, or the list of its parts in order, of which the last
    ones may be missing. An object may have other keys, whose values are not
    looked at, but a part only once. -/
def parts? (names : List String) : Raw → Option (List (Option Raw))
  | .arr items =>
    if items.length ≤ names.length then
      some (items.map some ++ List.replicate (names.length - items.length) none)
    else none
  | .obj entries => do
    let entries ← entries.mapM fun (key, value) => key.map (·, value)
    names.mapM fun name =>
      match entries.filter (·.1 = name) with
      | [] => some none
      | [(_, value)] => some (some value)
      | _ => none
  | _ => none

end Raw

/-- The lists and objects that may lie inside each other in a document. -/
def maxDepth : Nat := 127

/-- The value of a document's text. -/
def ofText? (text : String) : Option Json :=
  (Raw.ofText? text).bind (Raw.toJson? maxDepth)

end ScopedStyle.Json
