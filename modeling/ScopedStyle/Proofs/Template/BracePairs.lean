import Mathlib.Data.List.Infix
import ScopedStyle.Template.Strict

/-!
# Pairs of braces

The strict reading finds placeholders by two braces that follow each other. A
search for the first such pair takes a text apart at it
(`splitAtPair?_eq_some_iff`), or finds that there is none. Where the first
opening pair begins in front of the first closing one it also ends there, so
that what stands between them can be cut out (`between_of_splitAtPair?`).

What stands between them should be a name. A text is a name exactly when the
lenient reading takes the whole of it for one in front of a closing brace
(`isName_of_name?`, `name?_append_of_isName`).
-/

namespace ScopedStyle.Placeholder

/-! ### Texts with pairs -/

/-- Two braces of a kind follow each other somewhere in a text. -/
def HasPair (brace : Char) (cs : List Char) : Prop :=
  [brace, brace] <:+: cs

variable {brace : Char} {cs before after : List Char}

theorem not_hasPair_nil : ¬HasPair brace [] := by
  intro h
  cases List.infix_nil.1 h

/-- A pair stands at the front or further on. -/
theorem hasPair_cons_cons_iff {c d : Char} :
    HasPair brace (c :: d :: cs) ↔ c = brace ∧ d = brace ∨ HasPair brace (d :: cs) := by
  rw [HasPair, HasPair, List.infix_cons_iff, List.cons_prefix_cons, List.cons_prefix_cons]
  simp [eq_comm]

theorem HasPair.append_left (h : HasPair brace cs) (before : List Char) :
    HasPair brace (before ++ cs) :=
  h.trans (List.suffix_append before cs).isInfix

theorem HasPair.append_right (h : HasPair brace cs) (after : List Char) :
    HasPair brace (cs ++ after) :=
  h.trans (List.prefix_append cs after).isInfix

/-- One more brace makes a pair with a brace at the end. -/
theorem hasPair_concat_iff :
    HasPair brace (cs ++ [brace]) ↔ HasPair brace cs ∨ cs.getLast? = some brace := by
  have hsuffix : [brace] ++ [brace] <:+ cs ++ [brace] ↔ cs.getLast? = some brace := by
    rw [List.suffix_append_inj_of_length_eq rfl, List.getLast?_eq_some_iff]
    simp [List.IsSuffix, eq_comm]
  rw [HasPair, HasPair, List.infix_concat_iff, or_comm]
  exact or_congr_right hsuffix

/-- A pair does not reach over another character. -/
theorem not_hasPair_append_cons {c : Char} (hc : c ≠ brace) (hbefore : ¬HasPair brace before)
    (hafter : ¬HasPair brace after) : ¬HasPair brace (before ++ c :: after) := by
  intro h
  rcases List.infix_append_iff.1 h with h | h | ⟨first, second, hpair, hfirst, hsecond⟩
  · exact hbefore h
  · rcases List.infix_cons_iff.1 h with h | h
    · exact hc (List.cons_prefix_cons.1 h).1.symm
    · exact hafter h
  · -- Whatever of the pair stands behind `before` begins with the other character.
    cases second with
    | nil =>
      rw [List.append_nil] at hpair
      exact hbefore (hpair ▸ hfirst).isInfix
    | cons d second =>
      have hd : d ∈ [brace, brace] := by rw [hpair]; simp
      obtain rfl := (List.cons_prefix_cons.1 hsecond).1
      exact hc (by simpa using hd)

/-! ### Searching for a pair -/

theorem splitAtPair?_eq_none_iff : splitAtPair? brace cs = none ↔ ¬HasPair brace cs := by
  fun_induction splitAtPair? brace cs with
  | case1 c d cs h => simp_all [hasPair_cons_cons_iff]
  | case2 c d cs h ih => simp_all [hasPair_cons_cons_iff]
  | case3 cs hshort =>
    obtain _ | ⟨c, _ | ⟨d, cs⟩⟩ := cs
    · simp [not_hasPair_nil]
    · simp [HasPair, List.infix_cons_iff]
    · exact (hshort c d cs rfl).elim

/-- The first pair is found where it stands. -/
theorem splitAtPair?_append (h : ¬HasPair brace (before ++ [brace])) (after : List Char) :
    splitAtPair? brace (before ++ brace :: brace :: after) = some (before, after) := by
  induction before with
  | nil => simp [splitAtPair?]
  | cons c before ih =>
    cases before with
    | nil =>
      rw [List.cons_append, List.nil_append, hasPair_cons_cons_iff, not_or] at h
      have := ih h.2
      simp_all [splitAtPair?]
    | cons d before =>
      rw [List.cons_append, List.cons_append, hasPair_cons_cons_iff, not_or] at h
      have := ih h.2
      simp_all [splitAtPair?]

/-- A search takes the text apart at the first pair. -/
theorem splitAtPair?_eq_some_iff : splitAtPair? brace cs = some (before, after) ↔
    cs = before ++ brace :: brace :: after ∧ ¬HasPair brace (before ++ [brace]) := by
  constructor
  · intro h
    fun_induction splitAtPair? brace cs generalizing before with
    | case1 c d cs hpair =>
      cases h
      simp only [Bool.and_eq_true, decide_eq_true_eq] at hpair
      simp [hpair, HasPair, List.infix_cons_iff]
    | case2 c d cs hpair ih =>
      obtain ⟨⟨before, _⟩, h, heq⟩ := Option.map_eq_some_iff.1 h
      cases heq
      obtain ⟨hcs, hfirst⟩ := ih h
      -- What follows `c` begins with `d`, so the two are no pair.
      obtain ⟨rest, hrest⟩ : ∃ rest, before ++ [brace] = d :: rest := by
        cases before with
        | nil => exact ⟨[], by rw [(List.cons.inj hcs).1]; rfl⟩
        | cons b before => exact ⟨before ++ [brace], by rw [(List.cons.inj hcs).1]; rfl⟩
      refine ⟨congrArg (c :: ·) hcs, ?_⟩
      rw [hrest] at hfirst
      rw [List.cons_append, hrest, hasPair_cons_cons_iff, not_or]
      exact ⟨by simpa using hpair, hfirst⟩
    | case3 => cases h
  · rintro ⟨rfl, h⟩
    exact splitAtPair?_append h after

/-- Where the first opening pair begins no later than the first closing one,
    something stands between them: there is room for the opening pair, and the
    closing one stands behind it. -/
theorem between_of_splitAtPair? {opened upTo closed : List Char}
    (hopen : splitAtPair? '{' cs = some (before, opened))
    (hclose : splitAtPair? '}' cs = some (upTo, closed)) (hle : before.length ≤ upTo.length) :
    ∃ name, upTo = before ++ '{' :: '{' :: name ∧ opened = name ++ '}' :: '}' :: closed := by
  have hboth := (splitAtPair?_eq_some_iff.1 hopen).1.symm.trans (splitAtPair?_eq_some_iff.1 hclose).1
  rcases List.append_eq_append_iff.1 hboth with ⟨as, rfl, has⟩ | ⟨bs, rfl, hbs⟩
  · -- An opening brace is no closing one, so neither of the two falls to the closing pair.
    match as, has with
    | [], has => simp at has
    | [c], has => simp at has
    | c :: d :: name, has =>
      simp only [List.cons_append, List.cons.injEq] at has
      obtain ⟨rfl, rfl, hopened⟩ := has
      exact ⟨name, rfl, hopened⟩
  · cases bs with
    | nil => simp at hbs
    | cons c bs =>
      simp only [List.length_append, List.length_cons] at hle
      omega

/-! ### Names -/

theorem isPart_of_isStart {c : Char} (h : isStart c = true) : isPart c = true := by
  simp [isPart, h]

theorem not_mem_of_isPartName {c : Char} (h : isPartName cs = true) (hc : isPart c = false) :
    c ∉ cs := by
  cases cs with
  | nil => exact List.not_mem_nil
  | cons d cs =>
    simp only [isPartName, Bool.and_eq_true, List.all_eq_true] at h
    intro hmem
    rcases List.mem_cons.1 hmem with rfl | hmem
    · rw [isPart_of_isStart h.1] at hc
      cases hc
    · rw [h.2 c hmem] at hc
      cases hc

/-- A name is one part, or two with a dot between them. -/
theorem isName_iff : isName cs = true ↔ isPartName cs = true ∨
    ∃ head second, isPartName head = true ∧ isPartName second = true ∧
      cs = head ++ '.' :: second := by
  have hdot {part : List Char} (h : isPartName part = true) : '.' ∉ part :=
    not_mem_of_isPartName h (by decide)
  have hjoin : List.intercalate ['.'] (cs.splitOnP (· == '.')) = cs := by
    rw [← List.splitOn_eq_splitOnP]
    exact List.intercalate_splitOn '.'
  constructor
  · intro h
    rw [isName] at h
    split at h
    · rename_i head hsplit
      rw [hsplit] at hjoin
      rw [List.intercalate_singleton] at hjoin
      exact .inl (hjoin ▸ h)
    · rename_i head second hsplit
      rw [hsplit] at hjoin
      rw [Bool.and_eq_true] at h
      exact .inr ⟨head, second, h.1, h.2, by simpa [List.intercalate] using hjoin.symm⟩
    · cases h
  · rintro (h | ⟨head, second, hhead, hsecond, rfl⟩)
    · have hsplit : (['.'].intercalate [cs]).splitOn '.' = [cs] :=
        List.splitOn_intercalate '.' (by simpa using hdot h) (by simp)
      rw [List.intercalate_singleton, List.splitOn_eq_splitOnP] at hsplit
      rw [isName, hsplit]
      exact h
    · have hsplit : (['.'].intercalate [head, second]).splitOn '.' = [head, second] :=
        List.splitOn_intercalate '.' (by simpa using ⟨hdot hhead, hdot hsecond⟩) (by simp)
      rw [List.intercalate_cons_cons, List.intercalate_singleton, List.splitOn_eq_splitOnP,
        List.append_assoc, List.singleton_append] at hsplit
      rw [isName, hsplit]
      exact Bool.and_eq_true_iff.2 ⟨hhead, hsecond⟩

theorem not_mem_of_isName {c : Char} (h : isName cs = true) (hc : isPart c = false)
    (hdot : c ≠ '.') : c ∉ cs := by
  rcases isName_iff.1 h with h | ⟨head, second, hhead, hsecond, rfl⟩
  · exact not_mem_of_isPartName h hc
  · simpa [hdot] using ⟨not_mem_of_isPartName hhead hc, not_mem_of_isPartName hsecond hc⟩

/-- The part that a text begins with is a part. -/
theorem isPartName_of_part? {part rest : List Char} (h : part? cs = some (part, rest)) :
    isPartName part = true := by
  cases cs with
  | nil => cases h
  | cons c cs =>
    rw [part?] at h
    split at h
    · rename_i hc
      cases h
      simp [isPartName, hc]
    · cases h

/-- In front of a character of no part, a part is taken whole. -/
theorem part?_append_of_isPartName (h : isPartName cs = true) {c : Char} (hc : isPart c = false)
    (rest : List Char) : part? (cs ++ c :: rest) = some (cs, c :: rest) := by
  cases cs with
  | nil => cases h
  | cons d cs =>
    simp only [isPartName, Bool.and_eq_true, List.all_eq_true] at h
    rw [List.cons_append, part?, if_pos h.1, List.takeWhile_append_of_pos h.2,
      List.dropWhile_append_of_pos h.2]
    simp [hc]

/-- The name that a text begins with is a name. -/
theorem isName_of_name? {name rest : List Char} (h : name? cs = some (name, rest)) :
    isName name = true := by
  obtain ⟨⟨head, behind⟩, hpart, h⟩ := Option.map_eq_some_iff.1 h
  have hhead := isPartName_of_part? hpart
  clear hpart
  dsimp only at h
  split at h
  · split at h
    · rename_i hsecond
      cases h
      exact isName_iff.2 (.inr ⟨_, _, hhead, isPartName_of_part? hsecond, rfl⟩)
    · cases h
      exact isName_iff.2 (.inl hhead)
  · cases h
    exact isName_iff.2 (.inl hhead)

/-- In front of a closing brace, a name is taken whole. -/
theorem name?_append_of_isName (h : isName cs = true) (rest : List Char) :
    name? (cs ++ '}' :: rest) = some (cs, '}' :: rest) := by
  rcases isName_iff.1 h with h | ⟨head, second, hhead, hsecond, rfl⟩
  · rw [name?, part?_append_of_isPartName h (by decide)]
    rfl
  · have hpart := part?_append_of_isPartName hsecond (c := '}') (by decide) rest
    rw [name?, List.append_assoc, List.cons_append,
      part?_append_of_isPartName hhead (by decide)]
    simp [hpart]

end ScopedStyle.Placeholder
