import ScopedStyle.Proofs.Template.BracePairs
import ScopedStyle.Template.Basic

/-!
# Occurrences of placeholders

A placeholder occurs in a text wherever two opening braces, a name and two
closing braces follow each other (`Placeholder.OccursAt`). This says nothing of
tokens, which are taken one after the other and may swallow braces and a name
that are not closed. But no placeholder begins inside what is swallowed: behind
the front of a token no two opening braces follow each other
(`Token.not_begins_inside`). So the tokens that are placeholders are the
occurrences, all of them and from left to right
(`Token.mem_placed_ofChars_iff`).
-/

namespace ScopedStyle

namespace Placeholder

variable {name name' : String} {cs rest before : List Char}

/-- A placeholder with the name stands at the front of a text. -/
def Begins (name : String) (cs : List Char) : Prop :=
  isName name.toList = true ∧ written name.toList <+: cs

/-- A placeholder with the name stands in a text behind the given number of
    characters. -/
def OccursAt (cs : List Char) (start : Nat) (name : String) : Prop :=
  Begins name (cs.drop start)

/-- A placeholder begins with two opening braces. -/
theorem Begins.exists_cons (h : Begins name cs) : ∃ rest, cs = '{' :: '{' :: rest := by
  obtain ⟨after, rfl⟩ := h.2
  exact ⟨_, rfl⟩

/-- The name of a placeholder is the longest behind its braces. -/
theorem Begins.exists_name? (h : Begins name ('{' :: '{' :: rest)) :
    ∃ after, name? rest = some (name.toList, '}' :: '}' :: after) := by
  obtain ⟨hname, after, hafter⟩ := h
  have hrest : name.toList ++ '}' :: '}' :: after = rest := by simpa [written] using hafter
  exact ⟨after, hrest ▸ name?_append_of_isName hname _⟩

theorem begins_of_name? {chars after : List Char}
    (h : name? rest = some (chars, '}' :: '}' :: after)) :
    Begins (String.ofList chars) ('{' :: '{' :: rest) := by
  rw [Begins, String.toList_ofList]
  refine ⟨isName_of_name? h, after, ?_⟩
  simp [written, ← append_of_name? h]

theorem not_mem_of_name? {chars after : List Char} (h : name? rest = some (chars, after)) :
    '{' ∉ chars :=
  not_mem_of_isName (isName_of_name? h) (by decide) (by decide)

theorem ne_nil_of_name? {chars after : List Char} (h : name? rest = some (chars, after)) :
    chars ≠ [] := by
  rintro rfl
  have hname := isName_of_name? h
  simp [isName, isPartName] at hname

/-- One placeholder at most begins at a place, and what is behind it is
    determined. -/
theorem written_append_inj (hname : isName name.toList = true)
    (hname' : isName name'.toList = true)
    (h : written name.toList ++ before = written name'.toList ++ rest) :
    name = name' ∧ before = rest := by
  have hread : name? (name.toList ++ '}' :: '}' :: before) =
      name? (name'.toList ++ '}' :: '}' :: rest) := by
    congr 1
    simpa [written] using h
  rw [name?_append_of_isName hname, name?_append_of_isName hname'] at hread
  simpa [String.toList_inj] using hread

end Placeholder

open Placeholder

/-! ### Tokens -/

namespace Token

variable {name : String} {c : Char} {cs : List Char} {start i : Nat}

/-- The name of a placeholder. -/
def name? : Token → Option String
  | .placeholder name => some name
  | .text _ | .brace => none

/-- The placeholders among tokens, each with the number of characters in front
    of it, which the first token has `start` of. -/
def placed (start : Nat) : List Token → List (Nat × String)
  | [] => []
  | token :: tokens =>
    (token.name?.map (start, ·)).toList ++ placed (start + token.source.length) tokens

/-- The first token is a placeholder when one begins the text. -/
theorem name?_first_eq_some_iff : (first c cs).1.name? = some name ↔ Begins name (c :: cs) := by
  constructor
  · -- Only a name with its closing braces makes the first token a placeholder.
    intro h
    unfold first afterBraces at h
    split at h
    · rename_i hc
      split at h
      · split at h
        · cases h
        · rename_i hname
          cases h
          rw [hc]
          exact begins_of_name? hname
        · cases h
      · cases h
    · cases h
  · intro h
    obtain ⟨rest, hrest⟩ := h.exists_cons
    cases hrest
    obtain ⟨after, hname⟩ := h.exists_name?
    simp [first, afterBraces, hname, name?]

/-- No placeholder begins where there is no opening brace. -/
theorem not_begins_of_not_mem {chars rest : List Char} (hbrace : '{' ∉ chars)
    (hi : i < chars.length) : ¬Begins name ((chars ++ rest).drop i) := by
  intro h
  obtain ⟨behind, hbehind⟩ := h.exists_cons
  rw [List.drop_append_of_le_length hi.le, List.drop_eq_getElem_cons hi, List.cons_append,
    List.cons.injEq] at hbehind
  exact hbrace (hbehind.1 ▸ List.getElem_mem hi)

/-- Nor does one where the only opening brace has another character behind it. -/
theorem not_begins_of_lone_brace {chars rest : List Char} (hne : chars ≠ [])
    (hbrace : '{' ∉ chars) (hi : i < ('{' :: chars).length) :
    ¬Begins name (('{' :: chars ++ rest).drop i) := by
  cases i with
  | zero =>
    intro h
    obtain ⟨behind, hbehind⟩ := h.exists_cons
    obtain ⟨d, chars, rfl⟩ := List.exists_cons_of_ne_nil hne
    simp only [List.drop_zero, List.cons_append, List.cons.injEq] at hbehind
    exact hbrace (hbehind.2.1 ▸ List.mem_cons_self)
  | succ i =>
    change ¬Begins name ((chars ++ rest).drop i)
    exact not_begins_of_not_mem hbrace (Nat.lt_of_succ_lt_succ hi)

/-- Behind its front, a token has no opening brace, or one that is followed by
    another character. -/
theorem source_first_eq (c : Char) (cs : List Char) : ∃ chars, '{' ∉ chars ∧
    ((first c cs).1.source = c :: chars ∨
      chars ≠ [] ∧ (first c cs).1.source = c :: '{' :: chars) := by
  unfold first afterBraces
  split
  · rename_i hc
    split
    · split
      · exact ⟨[], List.not_mem_nil, .inl (by rw [hc]; rfl)⟩
      · rename_i chars _ hname
        refine ⟨chars ++ ['}', '}'], ?_, .inr ⟨by simp, by simp [source, written, hc]⟩⟩
        simpa using not_mem_of_name? hname
      · rename_i hname
        exact ⟨_, not_mem_of_name? hname, .inr ⟨ne_nil_of_name? hname,
          by rw [hc, source, String.toList_ofList]⟩⟩
    · exact ⟨[], List.not_mem_nil, .inl (by rw [hc]; rfl)⟩
  · refine ⟨cs.takeWhile (· ≠ '{'), fun h => ?_, .inl (by rw [source, String.toList_ofList])⟩
    simpa using List.all_eq_true.1 List.all_takeWhile _ h

/-- No placeholder begins inside the first token, behind its front. -/
theorem not_begins_inside (hpos : 0 < i) (hi : i < (first c cs).1.source.length) :
    ¬OccursAt (c :: cs) i name := by
  obtain ⟨i, rfl⟩ := Nat.exists_eq_succ_of_ne_zero hpos.ne'
  have htext := source_first c cs
  obtain ⟨chars, hbrace, hsource | ⟨hne, hsource⟩⟩ := source_first_eq c cs
  · rw [hsource, List.cons_append, List.cons.injEq] at htext
    rw [hsource] at hi
    rw [OccursAt, List.drop_succ_cons, ← htext.2]
    exact not_begins_of_not_mem hbrace (Nat.lt_of_succ_lt_succ hi)
  · rw [hsource, List.cons_append, List.cons.injEq] at htext
    rw [hsource] at hi
    rw [OccursAt, List.drop_succ_cons, ← htext.2]
    exact not_begins_of_lone_brace hne hbrace (Nat.lt_of_succ_lt_succ hi)

/-- What occurs in the first token is the placeholder that it is. -/
theorem occursAt_iff_of_lt (hi : i < (first c cs).1.source.length) :
    OccursAt (c :: cs) i name ↔ i = 0 ∧ (first c cs).1.name? = some name := by
  rw [name?_first_eq_some_iff]
  cases i with
  | zero => simp [OccursAt]
  | succ i => simp [not_begins_inside (Nat.succ_pos i) hi]

/-- What occurs behind the first token occurs in the rest of the text. -/
theorem occursAt_iff_of_le (hi : (first c cs).1.source.length ≤ i) : OccursAt (c :: cs) i name ↔
    OccursAt (first c cs).2 (i - (first c cs).1.source.length) name := by
  have hdrop : (c :: cs).drop i =
      (first c cs).2.drop (i - (first c cs).1.source.length) := by
    conv_lhs => rw [← source_first c cs, List.drop_append, List.drop_eq_nil_of_le hi]
    rfl
  rw [OccursAt, OccursAt, hdrop]

/-- The placeholders among tokens that stand behind `start` characters do so, too. -/
theorem le_of_mem_placed {tokens : List Token} (h : (i, name) ∈ placed start tokens) :
    start ≤ i := by
  induction tokens generalizing start with
  | nil => cases h
  | cons token tokens ih =>
    rcases List.mem_append.1 h with h | h
    · obtain ⟨_, _, h⟩ := Option.map_eq_some_iff.1 (Option.mem_toList.1 h)
      cases h
      exact le_refl _
    · exact (Nat.le_add_right _ _).trans (ih h)

/-- The placeholders among the tokens of a text are those that occur in it. -/
theorem mem_placed_ofChars_iff :
    (i, name) ∈ placed start (ofChars cs) ↔ start ≤ i ∧ OccursAt cs (i - start) name := by
  fun_induction ofChars cs generalizing start with
  | case1 =>
    have hnone : ¬OccursAt [] (i - start) name := by
      rintro ⟨_, hwritten⟩
      simp [written] at hwritten
    simp [placed, hnone]
  | case2 c cs ih =>
    have hhead : (i, name) ∈ ((first c cs).1.name?.map (start, ·)).toList ↔
        i = start ∧ (first c cs).1.name? = some name := by
      rw [Option.mem_toList, Option.map_eq_some_iff]
      simp [and_comm, eq_comm]
    rw [placed, List.mem_append, hhead, ih]
    -- A placeholder is the first token or lies behind it, as none begins inside.
    have hpos := List.length_pos_iff.2 (source_first_ne_nil c cs)
    by_cases hstart : start ≤ i
    · obtain ⟨i, rfl⟩ := Nat.exists_eq_add_of_le hstart
      rcases Nat.lt_or_ge i (first c cs).1.source.length with hi | hi
      · simp [occursAt_iff_of_lt hi, Nat.not_le.2 hi]
      · simp [occursAt_iff_of_le hi, hi, Nat.sub_add_eq, (hpos.trans_le hi).ne']
    · constructor <;> intro h <;> omega

/-- The placeholders among the tokens of a text follow each other without reaching
    into each other. -/
theorem pairwise_placed (start : Nat) (tokens : List Token) : (placed start tokens).Pairwise
    fun a b => a.1 + (written a.2.toList).length ≤ b.1 := by
  induction tokens generalizing start with
  | nil => exact .nil
  | cons token tokens ih =>
    cases token with
    | placeholder name =>
      exact .cons (fun b hb => le_of_mem_placed hb) (ih _)
    | text s => exact ih _
    | brace => exact ih _

end Token

end ScopedStyle
