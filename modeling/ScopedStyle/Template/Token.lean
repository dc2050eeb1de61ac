/-!
# Template tokens

A template is text with placeholders, `color: {{VALUE}};`. A placeholder name is
one or two parts with a dot between them; a part is a capital letter followed by
capital letters, digits and underscores. Everything else is plain text, so every
template has tokens.

A token is the longest that can be taken. Braces that begin no placeholder are
tokens of their own. Where two braces and a name stand without the closing
braces behind them, they are one piece of text, and the text behind the name is
another.

The tokens lose nothing: their sources make up the text (`source_ofChars`).
-/

namespace ScopedStyle

namespace Placeholder

/-- Whether a character begins a part of a name. -/
def isStart (c : Char) : Bool :=
  'A' ≤ c && c ≤ 'Z'

/-- Whether a character goes on with a part of a name. -/
def isPart (c : Char) : Bool :=
  isStart c || ('0' ≤ c && c ≤ '9') || c = '_'

/-- The part of a name that a text begins with, and what is behind it. -/
def part? : List Char → Option (List Char × List Char)
  | [] => none
  | c :: cs => if isStart c then some (c :: cs.takeWhile isPart, cs.dropWhile isPart) else none

/-- The longest name that a text begins with, and what is behind it. A dot
    belongs to it only with a part behind it. -/
def name? (cs : List Char) : Option (List Char × List Char) :=
  (part? cs).map fun (head, rest) =>
    match rest with
    | '.' :: tail =>
      match part? tail with
      | some (second, rest) => (head ++ '.' :: second, rest)
      | none => (head, '.' :: tail)
    | rest => (head, rest)

/-- A placeholder as it is written. -/
def written (name : List Char) : List Char :=
  '{' :: '{' :: name ++ ['}', '}']

theorem append_of_part? {cs part rest : List Char} (h : part? cs = some (part, rest)) :
    part ++ rest = cs := by
  cases cs with
  | nil => simp [part?] at h
  | cons c cs =>
    by_cases hc : isStart c
    · simp only [part?, hc, if_true, Option.some.injEq, Prod.mk.injEq] at h
      simp [← h.1, ← h.2, List.takeWhile_append_dropWhile]
    · simp [part?, hc] at h

/-- A name and what is behind it are the text. -/
theorem append_of_name? {cs name rest : List Char} (h : name? cs = some (name, rest)) :
    name ++ rest = cs := by
  simp only [name?, Option.map_eq_some_iff, Prod.exists] at h
  obtain ⟨head, rest', hp, h⟩ := h
  have hcs := append_of_part? hp
  split at h
  · rename_i tail
    split at h
    · rename_i second rest'' hs
      have ht := append_of_part? hs
      simp only [Prod.mk.injEq] at h
      simp [← h.1, ← h.2, ht, hcs]
    · simp only [Prod.mk.injEq] at h
      simp [← h.1, ← h.2, hcs]
  · simp only [Prod.mk.injEq] at h
    simp [← h.1, ← h.2, hcs]

end Placeholder

/-- A token of a template. -/
inductive Token where
  /-- A placeholder, by its name without braces. -/
  | placeholder (name : String)
  /-- A run of text. -/
  | text (s : String)
  /-- A brace that opens nothing. -/
  | brace
  deriving DecidableEq

namespace Token

/-- The characters that a token was taken from. -/
def source : Token → List Char
  | .placeholder name => Placeholder.written name.toList
  | .text s => s.toList
  | .brace => ['{']

/-- The first token of a text that begins with two braces, of which `cs` is the
    rest, and what is behind the token. -/
def afterBraces (cs : List Char) : Token × List Char :=
  match Placeholder.name? cs with
  | none => (.brace, '{' :: cs)
  | some (name, '}' :: '}' :: rest) => (.placeholder (String.ofList name), rest)
  | some (name, rest) => (.text (String.ofList ('{' :: '{' :: name)), rest)

/-- The first token of a text that begins with `c`, and what is behind it. -/
def first (c : Char) (cs : List Char) : Token × List Char :=
  if c = '{' then
    match cs with
    | '{' :: rest => afterBraces rest
    | rest => (.brace, rest)
  else
    (.text (String.ofList (c :: cs.takeWhile (· ≠ '{'))), cs.dropWhile (· ≠ '{'))

theorem source_afterBraces (cs : List Char) :
    (afterBraces cs).1.source ++ (afterBraces cs).2 = '{' :: '{' :: cs := by
  unfold afterBraces
  split
  · simp [source]
  · rename_i name rest h
    simp [source, Placeholder.written, ← Placeholder.append_of_name? h]
  · rename_i name rest _ h
    simp [source, Placeholder.append_of_name? h]

/-- The first token and what is behind it are the text. -/
theorem source_first (c : Char) (cs : List Char) :
    (first c cs).1.source ++ (first c cs).2 = c :: cs := by
  unfold first
  split
  · rename_i hc
    split
    · simp [source_afterBraces, hc]
    · simp [source, hc]
  · simp [source, List.takeWhile_append_dropWhile]

/-- The first token is never empty. -/
theorem source_first_ne_nil (c : Char) (cs : List Char) : (first c cs).1.source ≠ [] := by
  unfold first afterBraces
  repeat' split
  all_goals simp [source, Placeholder.written]

theorem length_first_lt (c : Char) (cs : List Char) : (first c cs).2.length < (c :: cs).length := by
  have h := congrArg List.length (source_first c cs)
  have := List.length_pos_iff.2 (source_first_ne_nil c cs)
  simp only [List.length_append, List.length_cons] at h ⊢
  omega

/-- The tokens of a text. -/
def ofChars : List Char → List Token
  | [] => []
  | c :: cs => (first c cs).1 :: ofChars (first c cs).2
termination_by cs => cs.length
decreasing_by exact length_first_lt c cs

/-- The tokens of a text. -/
def ofText (s : String) : List Token :=
  ofChars s.toList

/-- The sources of the tokens make up the text. -/
theorem source_ofChars (cs : List Char) : (ofChars cs).flatMap source = cs := by
  fun_induction ofChars cs with
  | case1 => rfl
  | case2 c cs ih => simp [ih, source_first]

end Token

end ScopedStyle
