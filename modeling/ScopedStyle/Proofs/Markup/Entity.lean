import Mathlib.Data.List.DropRight
import ScopedStyle.Markup.Escape
import ScopedStyle.Text.Blank

/-!
# Entities

Escaping writes an entity for each of five characters. Reading the entities back
gives the text again (`Markup.unescape_escape`), and also where something else
follows (`Markup.unescapeChars_escape_append`), as an entity ends in a semicolon
of its own.

Of the five characters only the ampersand is left in an escaped text
(`Markup.eq_ampersand_of_mem_escape`), at the beginning of each entity.

Blanks are not escaped, and no entity begins or ends with one. So it is the same
to take the blanks away before and after escaping (`Markup.trimChars_escape`).
-/

namespace ScopedStyle

namespace Markup

/-- The entities, without the semicolon at their end. -/
inductive Entity : Char → List Char → Prop where
  | amp : Entity '&' ['&', 'a', 'm', 'p']
  | lt : Entity '<' ['&', 'l', 't']
  | gt : Entity '>' ['&', 'g', 't']
  | quot : Entity '"' ['&', 'q', 'u', 'o', 't']
  | apos : Entity '\'' ['&', '#', '3', '9']

/-- Whether a character has an entity. -/
def isEscaped (c : Char) : Bool :=
  ['&', '<', '>', '"', '\''].contains c

/-- The characters of a text with its entities read back. -/
def unescapeChars : List Char → List Char
  | '&' :: 'a' :: 'm' :: 'p' :: ';' :: cs => '&' :: unescapeChars cs
  | '&' :: 'l' :: 't' :: ';' :: cs => '<' :: unescapeChars cs
  | '&' :: 'g' :: 't' :: ';' :: cs => '>' :: unescapeChars cs
  | '&' :: 'q' :: 'u' :: 'o' :: 't' :: ';' :: cs => '"' :: unescapeChars cs
  | '&' :: '#' :: '3' :: '9' :: ';' :: cs => '\'' :: unescapeChars cs
  | c :: cs => c :: unescapeChars cs
  | [] => []

/-- A text with its entities read back. What is no entity stays. -/
def unescape (s : String) : String :=
  String.ofList (unescapeChars s.toList)

namespace Entity

variable {c : Char} {name : List Char}

theorem isEscaped (h : Entity c name) : isEscaped c = true := by
  cases h <;> rfl

theorem isBlank_eq_false (h : Entity c name) : Text.isBlank c = false := by
  cases h <;> rfl

/-- An entity begins with an ampersand, and has no other one. -/
theorem exists_cons (h : Entity c name) : ∃ cs, name = '&' :: cs ∧ '&' ∉ cs := by
  cases h <;> exact ⟨_, rfl, by decide⟩

/-- The name of an entity ends in neither a semicolon nor a blank. -/
theorem exists_concat (h : Entity c name) :
    ∃ cs d, name = cs ++ [d] ∧ d ≠ ';' ∧ Text.isBlank d = false := by
  cases h with
  | amp => exact ⟨['&', 'a', 'm'], 'p', rfl, by decide, rfl⟩
  | lt => exact ⟨['&', 'l'], 't', rfl, by decide, rfl⟩
  | gt => exact ⟨['&', 'g'], 't', rfl, by decide, rfl⟩
  | quot => exact ⟨['&', 'q', 'u', 'o'], 't', rfl, by decide, rfl⟩
  | apos => exact ⟨['&', '#', '3'], '9', rfl, by decide, rfl⟩

/-- Of the characters that have an entity only the ampersand stands in one. -/
theorem eq_ampersand_of_mem {d : Char} (h : Entity c name) (hd : d ∈ name)
    (hescaped : Markup.isEscaped d = true) : d = '&' := by
  have hall : name.all (fun e => !Markup.isEscaped e || e = '&') = true := by cases h <;> decide
  simpa [hescaped] using List.all_eq_true.1 hall d hd

/-- With its semicolon an entity is read back. -/
theorem unescapeChars_append (h : Entity c name) (cs : List Char) :
    unescapeChars (name ++ ';' :: cs) = c :: unescapeChars cs := by
  cases h <;> rfl

/-- Without its semicolon an entity stays. -/
theorem unescapeChars_eq (h : Entity c name) : unescapeChars name = name := by
  cases h <;> rfl

end Entity

/-- A character is written as it is or as its entity. -/
theorem escapeChar_cases (c : Char) :
    (isEscaped c = false ∧ escapeChar c = [c]) ∨
      ∃ name, Entity c name ∧ escapeChar c = name ++ [';'] := by
  by_cases hamp : c = '&'
  · subst hamp
    exact .inr ⟨_, .amp, rfl⟩
  by_cases hlt : c = '<'
  · subst hlt
    exact .inr ⟨_, .lt, rfl⟩
  by_cases hgt : c = '>'
  · subst hgt
    exact .inr ⟨_, .gt, rfl⟩
  by_cases hquot : c = '"'
  · subst hquot
    exact .inr ⟨_, .quot, rfl⟩
  by_cases hapos : c = '\''
  · subst hapos
    exact .inr ⟨_, .apos, rfl⟩
  exact .inl (by simp [isEscaped, escapeChar, hamp, hlt, hgt, hquot, hapos])

theorem escapeChar_of_isBlank {c : Char} (h : Text.isBlank c = true) : escapeChar c = [c] := by
  rcases escapeChar_cases c with ⟨_, hc⟩ | ⟨name, hname, _⟩
  · exact hc
  · rw [hname.isBlank_eq_false] at h
    cases h

theorem eq_ampersand_of_mem_escapeChar {c d : Char} (hd : d ∈ escapeChar c)
    (hescaped : isEscaped d = true) : d = '&' := by
  rcases escapeChar_cases c with ⟨hplain, hc⟩ | ⟨name, hname, hc⟩
  · rw [hc, List.mem_singleton] at hd
    rw [hd, hplain] at hescaped
    cases hescaped
  · rw [hc] at hd
    rcases List.mem_append.1 hd with hd | hd
    · exact hname.eq_ampersand_of_mem hd hescaped
    · rw [List.mem_singleton.1 hd] at hescaped
      cases hescaped

/-- In an escaped text the only character with an entity is the ampersand. -/
theorem eq_ampersand_of_mem_escape {s : String} {d : Char} (hd : d ∈ (escape s).toList)
    (hescaped : isEscaped d = true) : d = '&' := by
  rw [escape_eq, String.toList_ofList] at hd
  obtain ⟨_, -, hd⟩ := List.mem_flatMap.1 hd
  exact eq_ampersand_of_mem_escapeChar hd hescaped

/-- Only the empty text is written as nothing. -/
theorem isEmpty_escape (s : String) : (escape s).isEmpty = s.isEmpty := by
  have hchar (c : Char) : escapeChar c ≠ [] := by
    rcases escapeChar_cases c with ⟨_, hc⟩ | ⟨name, _, hc⟩ <;> simp [hc]
  rw [Bool.eq_iff_iff, String.isEmpty_iff, String.isEmpty_iff, ← String.toList_eq_nil_iff,
    escape_eq, String.toList_ofList, ← String.toList_eq_nil_iff]
  cases s.toList with
  | nil => simp
  | cons c cs => simp [List.flatMap_cons, hchar]

/-! ### Reading back -/

theorem unescapeChars_cons {c : Char} (h : c ≠ '&') (cs : List Char) :
    unescapeChars (c :: cs) = c :: unescapeChars cs := by
  -- Every entity begins with an ampersand, so only the last equation is left.
  conv_lhs => unfold unescapeChars
  split <;> simp_all

theorem unescapeChars_escapeChar_append (c : Char) (cs : List Char) :
    unescapeChars (escapeChar c ++ cs) = c :: unescapeChars cs := by
  rcases escapeChar_cases c with ⟨hescaped, hc⟩ | ⟨name, hname, hc⟩
  · have hne : c ≠ '&' := by
      rintro rfl
      cases hescaped
    rw [hc, List.singleton_append, unescapeChars_cons hne]
  · rw [hc, List.append_assoc, List.singleton_append, hname.unescapeChars_append]

/-- An escaped text is read back, whatever follows it. -/
theorem unescapeChars_escape_append (cs ds : List Char) :
    unescapeChars (cs.flatMap escapeChar ++ ds) = cs ++ unescapeChars ds := by
  induction cs with
  | nil => rfl
  | cons c cs ih =>
    rw [List.flatMap_cons, List.append_assoc, unescapeChars_escapeChar_append, ih,
      List.cons_append]

/-- Reading back undoes escaping. -/
theorem unescape_escape (s : String) : unescape (escape s) = s := by
  have h := unescapeChars_escape_append s.toList []
  rw [List.append_nil, unescapeChars, List.append_nil] at h
  rw [unescape, escape_eq, String.toList_ofList, h, String.ofList_toList]

/-! ### Taking blanks away -/

theorem dropWhile_isBlank_escape (cs : List Char) :
    (cs.flatMap escapeChar).dropWhile Text.isBlank =
      (cs.dropWhile Text.isBlank).flatMap escapeChar := by
  induction cs with
  | nil => rfl
  | cons c cs ih =>
    cases hblank : Text.isBlank c with
    | true => simp [escapeChar_of_isBlank hblank, hblank, ih]
    | false =>
      rw [List.dropWhile_cons_of_neg (by simp [hblank]), List.flatMap_cons]
      rcases escapeChar_cases c with ⟨_, hc⟩ | ⟨name, hname, hc⟩
      · rw [hc, List.singleton_append, List.dropWhile_cons_of_neg (by simp [hblank])]
      · obtain ⟨rest, rfl, -⟩ := hname.exists_cons
        rw [hc]
        exact List.dropWhile_cons_of_neg (by decide)

theorem dropEndWhile_concat (drops : Char → Bool) (cs : List Char) (c : Char) :
    Text.dropEndWhile drops (cs ++ [c]) =
      if drops c then Text.dropEndWhile drops cs else cs ++ [c] :=
  List.rdropWhile_concat drops cs c

theorem dropEndWhile_isBlank_escape (cs : List Char) :
    Text.dropEndWhile Text.isBlank (cs.flatMap escapeChar) =
      (Text.dropEndWhile Text.isBlank cs).flatMap escapeChar := by
  -- The induction is from the end, where the blanks are dropped.
  induction cs using List.reverseRecOn with
  | nil => rfl
  | append_singleton cs c ih =>
    rw [List.flatMap_append, List.flatMap_singleton, dropEndWhile_concat]
    cases hblank : Text.isBlank c with
    | true => rw [escapeChar_of_isBlank hblank, dropEndWhile_concat, if_pos hblank, ih, if_pos rfl]
    | false =>
      rw [if_neg (by simp), List.flatMap_append, List.flatMap_singleton]
      rcases escapeChar_cases c with ⟨_, hc⟩ | ⟨name, hname, hc⟩
      · rw [hc, dropEndWhile_concat, if_neg (by simp [hblank])]
      · rw [hc, ← List.append_assoc, dropEndWhile_concat, if_neg (by decide)]

/-- Blanks may be taken away before or after escaping. -/
theorem trimChars_escape (cs : List Char) :
    Text.trimChars (cs.flatMap escapeChar) = (Text.trimChars cs).flatMap escapeChar := by
  rw [Text.trimChars, dropWhile_isBlank_escape, dropEndWhile_isBlank_escape, Text.trimChars]

/-- In front of what neither begins nor ends with a blank, only the blanks at
    the beginning are taken away. -/
theorem trimChars_append (cs : List Char) {ds : List Char} {d : Char}
    (hbegin : (ds ++ [d]).dropWhile Text.isBlank = ds ++ [d]) (hend : Text.isBlank d = false) :
    Text.trimChars (cs ++ (ds ++ [d])) = cs.dropWhile Text.isBlank ++ (ds ++ [d]) := by
  have hdrop : (cs ++ (ds ++ [d])).dropWhile Text.isBlank =
      cs.dropWhile Text.isBlank ++ (ds ++ [d]) := by
    rw [List.dropWhile_append, hbegin]
    cases cs.dropWhile Text.isBlank <;> rfl
  rw [Text.trimChars, hdrop, ← List.append_assoc, dropEndWhile_concat, if_neg (by simp [hend])]

end Markup

end ScopedStyle
