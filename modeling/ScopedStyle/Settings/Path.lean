import ScopedStyle.Text.Blank

/-!
# Key paths

A setting is addressed by the keys of its tab, group and field, written with
dots between them: `normal.colors.text`. A path is the list of these segments;
the empty list is the root of the settings.

Reading drops empty segments, so `.a..b.` and `a.b` are one path. A path built
segment by segment may hold what reading never gives, an empty segment or one
with a dot.
-/

namespace ScopedStyle

/-- A path into a settings tree. -/
structure Path where
  /-- The keys from the root to the setting. -/
  segments : List String
  deriving DecidableEq

namespace Path

/-- The path of the whole tree. -/
def root : Path := ⟨[]⟩

/-- The path that a dotted text stands for. -/
def ofText (text : String) : Path :=
  ⟨((text.toList.splitOnP (· == '.')).filter (!·.isEmpty)).map String.ofList⟩

/-- The segments with dots between them. -/
def toText (p : Path) : String :=
  ".".intercalate p.segments

/-- The path one key further. -/
def child (p : Path) (key : String) : Path :=
  ⟨p.segments ++ [key]⟩

/-- The path that goes on with the segments of another. -/
def append (p q : Path) : Path :=
  ⟨p.segments ++ q.segments⟩

instance : Append Path := ⟨append⟩

/-- The path without its last segment. -/
def parent? (p : Path) : Option Path :=
  if p.segments.isEmpty then none else some ⟨p.segments.dropLast⟩

/-- The last segment. -/
def last? (p : Path) : Option String :=
  p.segments.getLast?

/-- The number of segments. -/
def length (p : Path) : Nat :=
  p.segments.length

/-- Whether the path is the root. -/
def isRoot (p : Path) : Bool :=
  p.segments.isEmpty

/-- Whether a text can be the key of a tab, a group or a field: not empty and
    without dots and blanks, so that it is one segment of a path. -/
def isKey (s : String) : Bool :=
  !s.isEmpty && s.toList.all fun c => c ≠ '.' && !Text.isBlank c

/-- Whether a path leads through or to the place of another. -/
def IsPrefixOf (p q : Path) : Prop :=
  p.segments <+: q.segments

/-- The order of two rows of segments: by the first one in which they differ,
    segments by code point, and a part before the whole. -/
def compareSegments : List String → List String → Ordering
  | [], [] => .eq
  | [], _ :: _ => .lt
  | _ :: _, [] => .gt
  | a :: as, b :: bs => (compare a b).then (compareSegments as bs)

instance : Ord Path := ⟨fun p q => compareSegments p.segments q.segments⟩

end Path

end ScopedStyle
