/-!
# Escaping

Text inside a quoted attribute of the markup has entities for the five
characters that could end it or begin something else. They are written through
the whole text, one after the other. The ampersands come first: one that is there
later belongs to an entity.

After that no entity that is written has a character in it that is still to be
replaced. So it comes to the same to write every character by itself
(`Markup.escape_eq`).
-/

namespace ScopedStyle.Markup

/-- The entities with their characters, in the order in which they are written. -/
def entities : List (Char × List Char) :=
  [('&', ['&', 'a', 'm', 'p', ';']), ('<', ['&', 'l', 't', ';']), ('>', ['&', 'g', 't', ';']),
    ('"', ['&', 'q', 'u', 'o', 't', ';']), ('\'', ['&', '#', '3', '9', ';'])]

/-- Characters with one of them replaced wherever it stands. -/
def replaceChar (c : Char) (written cs : List Char) : List Char :=
  cs.flatMap fun d => if d = c then written else [d]

/-- Characters with several of them replaced, one after the other, each also in what
    those before have written. -/
def replaceInTurn (replacements : List (Char × List Char)) (cs : List Char) : List Char :=
  replacements.foldl (fun cs (c, written) => replaceChar c written cs) cs

/-- A text as it stands in the markup. -/
def escape (s : String) : String :=
  String.ofList (replaceInTurn entities s.toList)

/-- A character of a text as it stands in the markup. -/
def escapeChar (c : Char) : List Char :=
  if c = '&' then ['&', 'a', 'm', 'p', ';']
  else if c = '<' then ['&', 'l', 't', ';']
  else if c = '>' then ['&', 'g', 't', ';']
  else if c = '"' then ['&', 'q', 'u', 'o', 't', ';']
  else if c = '\'' then ['&', '#', '3', '9', ';']
  else [c]

/-- What is replaced in a part of a text does not depend on the other part. -/
theorem replaceInTurn_append (replacements : List (Char × List Char)) (cs ds : List Char) :
    replaceInTurn replacements (cs ++ ds) =
      replaceInTurn replacements cs ++ replaceInTurn replacements ds := by
  induction replacements generalizing cs ds with
  | nil => rfl
  | cons r rs ih =>
    have hfirst : replaceChar r.1 r.2 (cs ++ ds) =
        replaceChar r.1 r.2 cs ++ replaceChar r.1 r.2 ds := List.flatMap_append
    change replaceInTurn rs (replaceChar r.1 r.2 (cs ++ ds)) = _
    rw [hfirst, ih]
    rfl

/-- One character by itself is written as its entity or stays. -/
theorem replaceInTurn_singleton (c : Char) : replaceInTurn entities [c] = escapeChar c := by
  by_cases hspecial : c = '&' ∨ c = '<' ∨ c = '>' ∨ c = '"' ∨ c = '\''
  · rcases hspecial with rfl | rfl | rfl | rfl | rfl <;> rfl
  · simp only [not_or] at hspecial
    simp [replaceInTurn, entities, replaceChar, escapeChar, hspecial]

theorem replaceInTurn_entities (cs : List Char) :
    replaceInTurn entities cs = cs.flatMap escapeChar := by
  induction cs with
  | nil => rfl
  | cons c cs ih =>
    rw [← List.singleton_append, replaceInTurn_append, replaceInTurn_singleton, ih]
    rfl

/-- Replacing the five characters one after the other writes every character by
    itself. -/
theorem escape_eq (s : String) : escape s = String.ofList (s.toList.flatMap escapeChar) := by
  rw [escape, replaceInTurn_entities]

end ScopedStyle.Markup
