import ScopedStyle.Proofs.Markup.Entity
import ScopedStyle.Style.Selector

/-!
# The parts of a hover selector

The hover form of a selector is made part by part, and its parts are those of the
selector with `:hover` behind each of them (`Selector.hover_parts`).

Parts are not just any texts between commas. A part ends at the first comma where
no bracket is open, so that within a part each comma stands in brackets, and all
brackets are closed where another part follows (`Selector.AreParts`). Only one row
of parts makes up a text (`Selector.parts_eq_iff`). Where the brackets are not
balanced the last part may leave some open; nothing follows it, so it is a part
nonetheless.

Taking blanks away, or putting in `:hover` or a blank, changes no bracket and no
comma of a part, and they are all that counts (`Selector.AreParts.map`). So the
parts with `:hover` behind them are the parts of what they are put together to.
-/

namespace ScopedStyle.Selector

open Text

variable {d : Nat} {c : Char} {a b p q cs : List Char} {ps : List (List Char)}

/-! ### Brackets -/

/-- The number of open brackets behind a text that is read from a depth on. -/
def depth (d : Nat) (cs : List Char) : Nat :=
  cs.foldl depthAfter d

/-- Each comma of a text stands where a bracket is open. -/
def Whole (d : Nat) (p : List Char) : Prop :=
  ∀ before after, p = before ++ ',' :: after → depth d before ≠ 0

/-- A row of parts, the first of which is read from a depth on. -/
inductive AreParts : Nat → List (List Char) → Prop
  /-- The last part may leave brackets open. -/
  | last {d : Nat} {p : List Char} (hwhole : Whole d p) : AreParts d [p]
  /-- Where another part follows, all brackets are closed. -/
  | cons {d : Nat} {p : List Char} {ps : List (List Char)} (hwhole : Whole d p)
      (hclosed : depth d p = 0) (hrest : AreParts 0 ps) : AreParts d (p :: ps)

theorem whole_nil : Whole d [] := by
  simp [Whole]

theorem whole_cons_iff :
    Whole d (c :: cs) ↔ ¬(c = ',' ∧ d = 0) ∧ Whole (depthAfter d c) cs := by
  constructor
  · refine fun h => ⟨?_, fun before after hcs => h (c :: before) after (by rw [hcs]; rfl)⟩
    rintro ⟨rfl, hd⟩
    exact h [] cs rfl hd
  · rintro ⟨hc, h⟩ before after hcs
    cases before with
    | nil =>
      cases hcs
      exact fun hd => hc ⟨rfl, hd⟩
    | cons c' before =>
      cases hcs
      exact h before after rfl

theorem AreParts.ne_nil (h : AreParts d ps) : ps ≠ [] := by
  cases h <;> exact List.cons_ne_nil _ _

/-! ### The one row of parts -/

theorem areParts_parts (d : Nat) (cs : List Char) : AreParts d (parts d cs) := by
  fun_induction parts d cs with
  | case1 d => exact .last whole_nil
  | case2 d c cs h ih => exact .cons whole_nil (by simp_all [depth]) ih
  | case3 d c cs h hparts ih => exact absurd hparts ih.ne_nil
  | case4 d c cs h part rest hparts ih =>
    rw [hparts] at ih
    cases ih with
    | last hwhole => exact .last (whole_cons_iff.2 ⟨by simpa using h, hwhole⟩)
    | cons hwhole hclosed hrest =>
      exact .cons (whole_cons_iff.2 ⟨by simpa using h, hwhole⟩) hclosed hrest

theorem parts_ne_nil (d : Nat) (cs : List Char) : parts d cs ≠ [] :=
  (areParts_parts d cs).ne_nil

theorem intercalate_parts (d : Nat) (cs : List Char) : [','].intercalate (parts d cs) = cs := by
  fun_induction parts d cs with
  | case1 d => rfl
  | case2 d c cs h ih =>
    rw [List.intercalate_cons_of_ne_nil (parts_ne_nil 0 cs), ih]
    simp_all
  | case3 d c cs h hparts ih => exact absurd hparts (parts_ne_nil _ _)
  | case4 d c cs h part rest hparts ih =>
    rw [hparts] at ih
    rw [← ih]
    cases rest <;> rfl

/-- Behind a text that closes its brackets, a comma ends a part. -/
theorem parts_append_comma (h : depth d a = 0) (b : List Char) :
    parts d (a ++ ',' :: b) = parts d a ++ parts 0 b := by
  induction a generalizing d with
  | nil =>
    obtain rfl : d = 0 := h
    rfl
  | cons c a ih =>
    have hparts := ih (d := depthAfter d c) h
    rw [List.cons_append, parts, parts]
    split
    · rename_i hc
      simp only [Bool.and_eq_true, decide_eq_true_eq] at hc
      obtain ⟨rfl, rfl⟩ := hc
      exact congrArg ([] :: ·) hparts
    · rw [hparts]
      cases hrow : parts (depthAfter d c) a with
      | nil => exact absurd hrow (parts_ne_nil _ _)
      | cons part rest => rfl

/-- A text without a comma at depth zero is one part. -/
theorem Whole.parts_eq (h : Whole d p) : parts d p = [p] := by
  induction p generalizing d with
  | nil => rfl
  | cons c p ih =>
    obtain ⟨hc, hp⟩ := whole_cons_iff.1 h
    rw [parts, if_neg (by simpa using hc), ih hp]

theorem AreParts.parts_intercalate (h : AreParts d ps) : parts d ([','].intercalate ps) = ps := by
  induction h with
  | last hwhole =>
    rw [List.intercalate_singleton]
    exact hwhole.parts_eq
  | cons hwhole hclosed hrest ih =>
    rw [List.intercalate_cons_of_ne_nil hrest.ne_nil, List.append_assoc, List.singleton_append,
      parts_append_comma hclosed, hwhole.parts_eq, ih]
    rfl

/-- The parts of a text are the one row of parts that makes it up. -/
theorem parts_eq_iff : parts d cs = ps ↔ AreParts d ps ∧ [','].intercalate ps = cs := by
  constructor
  · rintro rfl
    exact ⟨areParts_parts d cs, intercalate_parts d cs⟩
  · rintro ⟨hparts, rfl⟩
    exact hparts.parts_intercalate

/-! ### Marks -/

/-- The characters that take part in the making of parts: brackets and commas. -/
def isMark (c : Char) : Bool :=
  ['(', '[', ')', ']', ','].contains c

theorem depthAfter_of_not_isMark (h : isMark c = false) (d : Nat) : depthAfter d c = d := by
  simp only [isMark, List.contains_eq_mem, List.mem_cons, List.not_mem_nil, or_false,
    decide_eq_false_iff_not, not_or] at h
  simp [depthAfter, h]

theorem depth_filter_isMark (d : Nat) (cs : List Char) :
    depth d (cs.filter isMark) = depth d cs := by
  induction cs generalizing d with
  | nil => rfl
  | cons c cs ih =>
    cases hc : isMark c with
    | true =>
      rw [List.filter_cons_of_pos hc]
      exact ih (depthAfter d c)
    | false =>
      rw [List.filter_cons_of_neg (by simp [hc]), ih, depth, depth, List.foldl_cons,
        depthAfter_of_not_isMark hc]

theorem whole_filter_isMark_iff : Whole d (cs.filter isMark) ↔ Whole d cs := by
  induction cs generalizing d with
  | nil => rfl
  | cons c cs ih =>
    cases hc : isMark c with
    | true => rw [List.filter_cons_of_pos hc, whole_cons_iff, whole_cons_iff, ih]
    | false =>
      have hcomma : c ≠ ',' := by
        rintro rfl
        cases hc
      rw [List.filter_cons_of_neg (by simp [hc]), whole_cons_iff, ih,
        depthAfter_of_not_isMark hc]
      simp [hcomma]

/-- Parts that are changed in other characters alone are parts again. -/
theorem AreParts.map {f : List Char → List Char}
    (hf : ∀ p, (f p).filter isMark = p.filter isMark) (h : AreParts d ps) :
    AreParts d (ps.map f) := by
  have hwhole {d p} (hp : Whole d p) : Whole d (f p) := by
    rwa [← whole_filter_isMark_iff, hf, whole_filter_isMark_iff]
  have hdepth {d p} : depth d (f p) = depth d p := by
    rw [← depth_filter_isMark, hf, depth_filter_isMark]
  induction h with
  | last hp => exact .last (hwhole hp)
  | cons hp hclosed _ ih => exact .cons (hwhole hp) (hdepth.trans hclosed) ih

theorem isMark_of_isBlank (h : isBlank c = true) : isMark c = false := by
  have hmarks : ['(', '[', ')', ']', ','].all (fun c => !isBlank c) = true := by decide
  refine Bool.of_not_eq_true fun hmark => ?_
  simpa [h] using List.all_eq_true.1 hmarks c (List.contains_iff_mem.1 hmark)

theorem filter_isMark_dropWhile_isBlank (cs : List Char) :
    (cs.dropWhile isBlank).filter isMark = cs.filter isMark := by
  have hblanks : (cs.takeWhile isBlank).filter isMark = [] := by
    refine List.filter_eq_nil_iff.2 fun c hc => ?_
    simp [isMark_of_isBlank (List.mem_takeWhile_imp hc)]
  conv_rhs => rw [← List.takeWhile_append_dropWhile (p := isBlank) (l := cs),
    List.filter_append, hblanks, List.nil_append]

theorem filter_isMark_trimChars (cs : List Char) :
    (trimChars cs).filter isMark = cs.filter isMark := by
  rw [trimChars, dropEndWhile, List.filter_reverse, filter_isMark_dropWhile_isBlank,
    List.filter_reverse, List.reverse_reverse, filter_isMark_dropWhile_isBlank]

/-! ### The hover form -/

/-- A part of a selector for the state `:hover`. -/
def hoverPart (p : List Char) : List Char :=
  trimChars p ++ ":hover".toList

/-- A row of parts with a blank in front of each but the first. -/
def spaced : List (List Char) → List (List Char)
  | [] => []
  | p :: ps => p :: ps.map (' ' :: ·)

theorem toList_hover (s : String) :
    (hover s).toList = [',', ' '].intercalate ((parts 0 s.toList).map hoverPart) := by
  rw [hover, String.toList_intercalate, List.map_map]
  congr 2
  funext p
  simp [hoverPart]

theorem filter_isMark_hoverPart (p : List Char) :
    (hoverPart p).filter isMark = p.filter isMark := by
  rw [hoverPart, List.filter_append, filter_isMark_trimChars]
  exact List.append_nil _

theorem AreParts.spaced (h : AreParts d ps) : AreParts d (spaced ps) := by
  cases h with
  | last hwhole => exact .last hwhole
  | cons hwhole hclosed hrest => exact .cons hwhole hclosed (hrest.map fun _ => rfl)

theorem intercalate_spaced (ps : List (List Char)) :
    [','].intercalate (spaced ps) = [',', ' '].intercalate ps := by
  cases ps with
  | nil => rfl
  | cons p ps =>
    induction ps generalizing p with
    | nil => rfl
    | cons q ps ih =>
      have hblank : [',', ' '].intercalate ((' ' :: q) :: ps) =
          ' ' :: [',', ' '].intercalate (q :: ps) := by
        cases ps <;> rfl
      have hrest : [','].intercalate ((' ' :: q) :: ps.map (' ' :: ·)) =
          ' ' :: [',', ' '].intercalate (q :: ps) := (ih (' ' :: q)).trans hblank
      rw [Selector.spaced, List.map_cons, List.intercalate_cons_cons, hrest,
        List.intercalate_cons_cons]
      simp

/-- The part begins and ends with no blank. -/
theorem trimChars_hoverPart (p : List Char) : trimChars (hoverPart p) = hoverPart p := by
  have hbegin : (":hove".toList ++ ['r']).dropWhile isBlank = ":hove".toList ++ ['r'] := by decide
  have hplain : trimChars (hoverPart p) = (trimChars p).dropWhile isBlank ++ ":hover".toList :=
    Markup.trimChars_append (trimChars p) hbegin (by decide)
  rw [hplain, dropWhile_isBlank_trimChars, hoverPart]

theorem map_trimChars_spaced (ps : List (List Char)) :
    (spaced ps).map trimChars = ps.map trimChars := by
  have hblank (p : List Char) : trimChars (' ' :: p) = trimChars p := by
    rw [trimChars, List.dropWhile_cons_of_pos (by decide), trimChars]
  cases ps with
  | nil => rfl
  | cons p ps => simp [Selector.spaced, hblank]

/-- The parts of the hover form are those of the selector for the state `:hover`. -/
theorem parts_hover (s : String) :
    parts 0 (hover s).toList = spaced ((parts 0 s.toList).map hoverPart) := by
  rw [toList_hover, ← intercalate_spaced]
  exact ((areParts_parts 0 s.toList).map filter_isMark_hoverPart).spaced.parts_intercalate

/-- The parts of a selector are the one row of parts that makes it up, whether its
    brackets are balanced or not. Without the blanks around them, the parts of its
    hover form are the parts of the selector, each with `:hover` behind it. And the
    hover form of two selectors with a comma between them is made of those of the
    two, if the first closes its brackets. -/
theorem hover_parts (s : String) :
    (∀ ps, parts 0 s.toList = ps ↔ AreParts 0 ps ∧ [','].intercalate ps = s.toList) ∧
    (parts 0 (hover s).toList).map trimChars =
      (parts 0 s.toList).map (fun part => trimChars part ++ ":hover".toList) ∧
    ∀ a b : String, depth 0 a.toList = 0 → hover (a ++ "," ++ b) = hover a ++ ", " ++ hover b := by
  refine ⟨fun ps => parts_eq_iff, ?_, fun a b ha => ?_⟩
  · rw [parts_hover, map_trimChars_spaced, List.map_map]
    exact List.map_congr_left fun p _ => trimChars_hoverPart p
  · have hparts : parts 0 (a ++ "," ++ b).toList = parts 0 a.toList ++ parts 0 b.toList := by
      rw [String.toList_append, String.toList_append, List.append_assoc]
      exact parts_append_comma ha b.toList
    rw [hover, hparts, List.map_append, String.intercalate_append_of_ne_nil]
    · rfl
    · simpa using parts_ne_nil 0 a.toList
    · simpa using parts_ne_nil 0 b.toList

/-- A bracket that was never opened does not keep a comma from ending a part, and
    one that is never closed does. -/
theorem unbalanced_hover_parts :
    depth 0 ".a:is(.b, .c))".toList = 0 ∧
    hover (".a:is(.b, .c))" ++ "," ++ " [d, .e ") = ".a:is(.b, .c)):hover, [d, .e:hover" ∧
    AreParts 0 [".a:is(.b, .c))".toList, " [d, .e ".toList] ∧
    (parts 0 (hover ".a:is(.b, .c)), [d, .e ").toList).map trimChars =
      [".a:is(.b, .c)):hover".toList, "[d, .e:hover".toList] := by
  obtain ⟨hparts, htrimmed, happend⟩ := hover_parts ".a:is(.b, .c)), [d, .e "
  have hclosed : depth 0 ".a:is(.b, .c))".toList = 0 := by decide
  exact ⟨hclosed, (happend _ _ hclosed).trans (by decide +kernel),
    ((hparts _).1 (by decide +kernel)).1, htrimmed.trans (by decide +kernel)⟩

end ScopedStyle.Selector
