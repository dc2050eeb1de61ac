import ScopedStyle.Proofs.Template.BracePairs
import ScopedStyle.Template.Basic

/-!
# Strict texts

A text with placeholders is *strict* when its braces leave nothing open to
doubt (`StrictText`): pairs of braces stand around names only, and no opening
brace stands in front of a pair of them.

Two readers that have nothing in common meet in this. The strict reading, which
searches for pairs, accepts precisely the strict texts (`strict_eq_ok_iff`). The
lenient reading, which takes one longest token after the other, accepts all
texts, and shows in its segments which of them are strict: those whose literals
keep no pair of braces, and no opening brace in front of a placeholder
(`Segment.strictText_iff`). On strict texts both find the same names, so that a
template is read in one way (`Template.strictNames_eq_ok_iff`).

The second equivalence goes by the literals. What stands in front of the first
opening pair is read into one literal (`Segment.ofChars_append`), so that pair is
where a placeholder begins, or where braces are left over
(`Segment.exists_written_of_wellBraced`).
-/

namespace ScopedStyle

namespace Placeholder

/-- A strict text, with the names of its placeholders. -/
inductive StrictText : List Char → List String → Prop
  /-- A text without pairs of braces. -/
  | plain {cs : List Char} (hopen : ¬HasPair '{' cs) (hclose : ¬HasPair '}' cs) : StrictText cs []
  /-- A placeholder behind a text without pairs that does not end in an opening
      brace, and in front of a strict text. -/
  | placeholder {before name after : List Char} {names : List String}
      (hopen : ¬HasPair '{' (before ++ ['{'])) (hclose : ¬HasPair '}' before)
      (hname : isName name = true) (hafter : StrictText after names) :
      StrictText (before ++ (written name ++ after)) (String.ofList name :: names)

variable {before name after cs : List Char} {names : List String}

theorem written_append (name after : List Char) :
    written name ++ after = '{' :: '{' :: (name ++ '}' :: '}' :: after) := by
  simp [written]

/-! ### The strict reading -/

/-- The first closing pair behind a strict start is that of the placeholder. -/
theorem not_hasPair_upTo (hclose : ¬HasPair '}' before) (hname : isName name = true) :
    ¬HasPair '}' (before ++ '{' :: '{' :: name ++ ['}']) := by
  have hmem : '}' ∉ name := not_mem_of_isName hname (by decide) (by decide)
  have hnamed : ¬HasPair '}' (name ++ ['}']) := by
    rw [hasPair_concat_iff, not_or]
    exact ⟨fun h => hmem (h.mem (List.mem_cons_self)), fun h => hmem (List.mem_of_getLast? h)⟩
  have hopened : ¬HasPair '}' ([] ++ '{' :: (name ++ ['}'])) :=
    not_hasPair_append_cons (by decide) not_hasPair_nil hnamed
  rw [List.append_assoc]
  exact not_hasPair_append_cons (by decide) hclose hopened

/-- A name between the first pairs is the first name, if the rest is read. -/
theorem strict_of_between {opened closed : List Char}
    (hopen : splitAtPair? '{' cs = some (before, opened))
    (hclose : splitAtPair? '}' cs = some (before ++ '{' :: '{' :: name, closed))
    (hname : isName name = true) : strict cs = (strict closed).map (String.ofList name :: ·) := by
  rw [strict]
  split
  · simp_all
  · simp_all
  · simp_all
  · rename_i hopen' hclose'
    rw [hopen] at hopen'
    rw [hclose] at hclose'
    cases hopen'
    cases hclose'
    have hle : ¬(before ++ '{' :: '{' :: name).length < before.length := by simp
    rw [if_neg hle]
    simp [hname]

/-- What the strict reading accepts is strict. -/
theorem strictText_of_strict (h : strict cs = .ok names) : StrictText cs names := by
  fun_induction strict cs generalizing names with
  | case1 cs hclose hopen =>
    cases h
    exact .plain (splitAtPair?_eq_none_iff.1 hopen) (splitAtPair?_eq_none_iff.1 hclose)
  | case5 cs before opened upTo closed hclose hopen hle name hname =>
    rename_i ih
    obtain ⟨inner, rfl, rfl⟩ := between_of_splitAtPair? hopen hclose (Nat.not_lt.1 hle)
    have hinner : name = inner := by simp [name]
    clear_value name
    subst hinner
    -- The rest is strict, or else its mistake would be that of the whole.
    obtain ⟨rest, hrest, rfl⟩ :
        ∃ rest, strict closed = .ok rest ∧ String.ofList name :: rest = names := by
      cases hstrict : strict closed with
      | error m =>
        rw [hstrict] at h
        cases h
      | ok rest =>
        rw [hstrict] at h
        exact ⟨rest, rfl, Except.ok.inj h⟩
    obtain ⟨rfl, hfirst⟩ := splitAtPair?_eq_some_iff.1 hopen
    obtain ⟨-, hupTo⟩ := splitAtPair?_eq_some_iff.1 hclose
    rw [← written_append]
    refine .placeholder hfirst (fun hpair => hupTo ?_) hname (ih hrest)
    rw [List.append_assoc]
    exact hpair.append_right _
  | _ => cases h

/-- The strict reading accepts a strict text, placeholder by placeholder. -/
theorem StrictText.strict_eq_ok (h : StrictText cs names) : strict cs = .ok names := by
  induction h with
  | plain hopen hclose =>
    rw [← splitAtPair?_eq_none_iff] at hopen hclose
    unfold strict
    split <;> simp_all
  | @placeholder before name after names hopen hclose hname _ ih =>
    have hclosed := splitAtPair?_append (not_hasPair_upTo hclose hname) after
    rw [written_append, strict_of_between (splitAtPair?_append hopen _) (by simpa using hclosed)
      hname, ih]
    rfl

/-- The strict reading accepts the strict texts, and gives their names. -/
theorem strict_eq_ok_iff : strict cs = .ok names ↔ StrictText cs names :=
  ⟨strictText_of_strict, StrictText.strict_eq_ok⟩

end Placeholder

namespace Segment

open Placeholder

variable {before name after cs : List Char} {names : List String} {segments : List Segment}

/-! ### The lenient reading -/

/-- The segments of a text. -/
def ofChars (cs : List Char) : List Segment :=
  ofTokens (Token.ofChars cs)

/-- The segments with a text in front, unless that is empty. -/
def lead : List Char → List Segment → List Segment
  | [], segments => segments
  | c :: cs, segments => consText (String.ofList (c :: cs)) segments

theorem consText_consText (s t : String) (segments : List Segment) :
    consText s (consText t segments) = consText (s ++ t) segments := by
  match segments with
  | [] => rfl
  | .placeholder _ :: _ => rfl
  | .literal u :: _ => simp [consText, String.append_assoc]

theorem lead_cons (c : Char) (cs : List Char) (segments : List Segment) :
    lead (c :: cs) segments = consText (String.ofList [c]) (lead cs segments) := by
  cases cs with
  | nil => rfl
  | cons d cs => simp [lead, consText_consText]

theorem ofChars_nil : ofChars [] = [] := by
  rw [ofChars, Token.ofChars, ofTokens]

/-- Where no two opening braces stand, the first character is text. -/
theorem ofChars_cons {c : Char} (h : ¬(c = '{' ∧ cs.head? = some '{')) :
    ofChars (c :: cs) = consText (String.ofList [c]) (ofChars cs) := by
  rw [ofChars, Token.ofChars]
  by_cases hc : c = '{'
  · have hfirst : Token.first c cs = (.brace, cs) := by
      cases cs with
      | nil => simp [Token.first, hc]
      | cons d cs =>
        have hd : d ≠ '{' := by simpa [hc] using h
        simp [Token.first, hc, hd]
    rw [hfirst, hc]
    rfl
  · -- The token goes on to the next opening brace, and so does that of the rest.
    cases cs with
    | nil => simp [Token.first, hc, ofTokens, ofChars]
    | cons d cs =>
      by_cases hd : d = '{'
      · simp [Token.first, hc, hd, ofTokens, ofChars]
      · rw [ofChars, Token.ofChars.eq_def (d :: cs)]
        simp [Token.first, hc, hd, ofTokens, consText_consText]

/-- What stands in front of the first opening pair, or of the end, goes into one
    literal. -/
theorem ofChars_append (h : ¬HasPair '{' (before ++ cs.take 1)) :
    ofChars (before ++ cs) = lead before (ofChars cs) := by
  induction before with
  | nil => rfl
  | cons c before ih =>
    have hhead : (before ++ cs.take 1).head? = (before ++ cs).head? := by
      cases before with
      | nil => cases cs <;> rfl
      | cons d before => rfl
    have hc : ¬(c = '{' ∧ (before ++ cs).head? = some '{') := by
      rintro ⟨rfl, hbrace⟩
      obtain ⟨rest, hrest⟩ := List.head?_eq_some_iff.1 (hhead.trans hbrace)
      rw [List.cons_append, hrest, hasPair_cons_cons_iff] at h
      exact h (.inl ⟨rfl, rfl⟩)
    have hbefore : ¬HasPair '{' (before ++ cs.take 1) :=
      fun hpair => h (hpair.append_left [c])
    rw [List.cons_append, ofChars_cons hc, ih hbefore, lead_cons]

/-- A text without opening pairs goes into one literal. -/
theorem ofChars_of_not_hasPair (h : ¬HasPair '{' cs) : ofChars cs = lead cs [] := by
  have hread : ofChars (cs ++ []) = lead cs (ofChars []) := ofChars_append (by simpa using h)
  rwa [List.append_nil, ofChars_nil] at hread

/-- Two opening braces are read as one token, or the first of them as one. -/
theorem ofChars_braces (cs : List Char) : ofChars ('{' :: '{' :: cs) =
    ofTokens ((Token.afterBraces cs).1 :: Token.ofChars (Token.afterBraces cs).2) := by
  rw [ofChars, Token.ofChars]
  rfl

theorem ofChars_written (hname : isName name = true) (after : List Char) :
    ofChars (written name ++ after) = .placeholder (String.ofList name) :: ofChars after := by
  rw [written_append, ofChars_braces, Token.afterBraces, name?_append_of_isName hname]
  rfl

/-- A text in front has no placeholders. -/
theorem filterMap_name?_lead (before : List Char) (segments : List Segment) :
    (lead before segments).filterMap name? = segments.filterMap name? := by
  cases before with
  | nil => rfl
  | cons c before =>
    match segments with
    | [] => rfl
    | .placeholder _ :: _ => rfl
    | .literal _ :: _ => rfl

/-! ### Segments with braces in their place -/

/-- No literal has a pair of braces, and none in front of a placeholder ends in
    an opening brace. -/
structure WellBraced (segments : List Segment) : Prop where
  /-- The literals are without pairs of braces. -/
  literal : ∀ s, .literal s ∈ segments → ¬HasPair '{' s.toList ∧ ¬HasPair '}' s.toList
  /-- No opening brace touches a placeholder. -/
  placeholder : ∀ s name, [.literal s, .placeholder name] <:+: segments →
    s.toList.getLast? ≠ some '{'

theorem wellBraced_nil : WellBraced [] where
  literal := nofun
  placeholder _ _ h := nomatch List.infix_nil.1 h

theorem WellBraced.tail {segment : Segment} (h : WellBraced (segment :: segments)) :
    WellBraced segments where
  literal s hs := h.literal s (List.mem_cons_of_mem _ hs)
  placeholder s name hs := h.placeholder s name (hs.trans (List.suffix_cons _ _).isInfix)

theorem wellBraced_placeholder_cons_iff {placeholder : String} :
    WellBraced (.placeholder placeholder :: segments) ↔ WellBraced segments := by
  refine ⟨WellBraced.tail, fun h => ⟨fun s hs => h.literal s (by simpa using hs), ?_⟩⟩
  intro s name hs
  rcases List.infix_cons_iff.1 hs with hs | hs
  · cases (List.cons_prefix_cons.1 hs).1
  · exact h.placeholder s name hs

theorem wellBraced_literal_cons_iff {s : String} :
    WellBraced (.literal s :: segments) ↔ (¬HasPair '{' s.toList ∧ ¬HasPair '}' s.toList) ∧
      (∀ name, segments.head? = some (.placeholder name) → s.toList.getLast? ≠ some '{') ∧
      WellBraced segments := by
  constructor
  · intro h
    refine ⟨h.literal s List.mem_cons_self, fun name hname => ?_, h.tail⟩
    obtain ⟨rest, rfl⟩ := List.head?_eq_some_iff.1 hname
    exact h.placeholder s name (List.IsPrefix.isInfix (by simp))
  · rintro ⟨hs, hlast, h⟩
    refine ⟨fun t ht => ?_, fun t name ht => ?_⟩
    · rcases List.mem_cons.1 ht with ht | ht
      · cases ht
        exact hs
      · exact h.literal t ht
    · rcases List.infix_cons_iff.1 ht with ht | ht
      · obtain ⟨ht, hfollows⟩ := List.cons_prefix_cons.1 ht
        cases ht
        obtain ⟨rest, hrest⟩ := hfollows
        exact hlast name (by simp [← hrest])
      · exact h.placeholder t name ht

/-- A literal at the front that has a pair of opening braces stays so. -/
theorem not_wellBraced_consText {s : String} (h : HasPair '{' s.toList) :
    ¬WellBraced (consText s segments) := by
  intro hwell
  match segments with
  | [] => exact (wellBraced_literal_cons_iff.1 hwell).1.1 h
  | .placeholder _ :: _ => exact (wellBraced_literal_cons_iff.1 hwell).1.1 h
  | .literal t :: _ =>
    refine (wellBraced_literal_cons_iff.1 hwell).1.1 ?_
    rw [String.toList_append]
    exact h.append_right _

theorem wellBraced_lead_nil_iff :
    WellBraced (lead before []) ↔ ¬HasPair '{' before ∧ ¬HasPair '}' before := by
  cases before with
  | nil => simp [lead, wellBraced_nil, not_hasPair_nil]
  | cons c before => simp [lead, consText, wellBraced_literal_cons_iff, wellBraced_nil]

theorem wellBraced_lead_placeholder_iff {placeholder : String} :
    WellBraced (lead before (.placeholder placeholder :: segments)) ↔
      ¬HasPair '{' (before ++ ['{']) ∧ ¬HasPair '}' before ∧ WellBraced segments := by
  rw [hasPair_concat_iff, not_or]
  cases before with
  | nil => simp [lead, wellBraced_placeholder_cons_iff, not_hasPair_nil]
  | cons c before =>
    simp only [lead, consText, wellBraced_literal_cons_iff, wellBraced_placeholder_cons_iff,
      String.toList_ofList, List.head?_cons]
    grind

/-- Taking the text at the front away leaves what is behind it well braced. -/
theorem WellBraced.of_lead (h : WellBraced (lead before segments)) : WellBraced segments := by
  cases before with
  | nil => exact h
  | cons c before =>
    match segments with
    | [] => exact wellBraced_nil
    | .placeholder _ :: _ => exact h.tail
    | .literal t :: rest =>
      obtain ⟨⟨hopen, hclose⟩, hlast, hrest⟩ := wellBraced_literal_cons_iff.1 h
      rw [String.toList_append] at hopen hclose hlast
      refine wellBraced_literal_cons_iff.2
        ⟨⟨fun hpair => hopen (hpair.append_left _), fun hpair => hclose (hpair.append_left _)⟩,
          fun name hname ht => hlast name hname ?_, hrest⟩
      rw [List.getLast?_append, ht]
      rfl

/-! ### Two readers, one language -/

theorem not_wellBraced_consText_brace {s : String} (h : s.toList.head? = some '{') :
    ¬WellBraced (consText "\x7b" (consText s segments)) := by
  obtain ⟨rest, hrest⟩ := List.head?_eq_some_iff.1 h
  rw [consText_consText]
  refine not_wellBraced_consText ?_
  rw [String.toList_append, hrest]
  exact hasPair_cons_cons_iff.2 (.inl ⟨rfl, rfl⟩)

/-- One brace more in front of an opening brace leaves a pair, or touches the
    placeholder that begins there. -/
theorem not_wellBraced_brace_cons (cs : List Char) :
    ¬WellBraced (consText "\x7b" (ofChars ('{' :: cs))) := by
  intro h
  by_cases hhead : cs.head? = some '{'
  · obtain ⟨rest, rfl⟩ := List.head?_eq_some_iff.1 hhead
    rw [ofChars_braces, Token.afterBraces] at h
    split at h
    · exact not_wellBraced_consText_brace (by decide) h
    · -- The brace is the end of a literal in front of a placeholder.
      exact (wellBraced_literal_cons_iff.1 h).2.1 _ rfl rfl
    · exact not_wellBraced_consText_brace (by simp) h
  · rw [ofChars_cons (fun hbrace => hhead hbrace.2)] at h
    exact not_wellBraced_consText_brace (by simp) h

/-- Two opening braces begin a placeholder when the segments are well braced. -/
theorem exists_written_of_wellBraced (h : WellBraced (ofChars ('{' :: '{' :: cs))) :
    ∃ name after, isName name = true ∧ '{' :: '{' :: cs = written name ++ after := by
  rw [ofChars_braces, Token.afterBraces] at h
  split at h
  · exact (not_wellBraced_brace_cons cs h).elim
  · rename_i name after hname
    refine ⟨name, after, isName_of_name? hname, ?_⟩
    rw [written_append, append_of_name? hname]
  · -- A name that is not closed stays in a literal, with the braces in front of it.
    refine (not_wellBraced_consText ?_ h).elim
    rw [String.toList_ofList, hasPair_cons_cons_iff]
    exact .inl ⟨rfl, rfl⟩

/-- The segments of a strict text are well braced, and have its names. -/
theorem wellBraced_of_strictText (h : StrictText cs names) :
    WellBraced (ofChars cs) ∧ (ofChars cs).filterMap name? = names := by
  induction h with
  | @plain cs hopen hclose =>
    rw [ofChars_of_not_hasPair hopen, filterMap_name?_lead]
    exact ⟨wellBraced_lead_nil_iff.2 ⟨hopen, hclose⟩, rfl⟩
  | @placeholder before name after names hopen hclose hname _ ih =>
    obtain ⟨hwell, rfl⟩ := ih
    rw [ofChars_append (by simpa [written] using hopen), ofChars_written hname,
      filterMap_name?_lead]
    exact ⟨wellBraced_lead_placeholder_iff.2 ⟨hopen, hclose, hwell⟩, rfl⟩

/-- A text with well braced segments is strict. By induction on its length: what
    is behind the first placeholder is shorter, and well braced as well. -/
theorem strictText_of_wellBraced (h : WellBraced (ofChars cs)) :
    StrictText cs ((ofChars cs).filterMap name?) := by
  induction hlength : cs.length using Nat.strongRecOn generalizing cs with
  | ind length ih =>
  cases hsplit : splitAtPair? '{' cs with
  | none =>
    have hopen := splitAtPair?_eq_none_iff.1 hsplit
    rw [ofChars_of_not_hasPair hopen] at h ⊢
    rw [filterMap_name?_lead]
    exact .plain hopen (wellBraced_lead_nil_iff.1 h).2
  | some parts =>
    obtain ⟨before, opened⟩ := parts
    obtain ⟨rfl, hopen⟩ := splitAtPair?_eq_some_iff.1 hsplit
    rw [ofChars_append (by simpa using hopen)] at h
    obtain ⟨name, after, hname, hwritten⟩ := exists_written_of_wellBraced h.of_lead
    rw [hwritten, ofChars_written hname] at h
    obtain ⟨-, hclose, hafter⟩ := wellBraced_lead_placeholder_iff.1 h
    have hshorter : after.length < length := by
      rw [← hlength, hwritten]
      simp [written]
      omega
    rw [hwritten, ofChars_append (by simpa [written] using hopen), ofChars_written hname,
      filterMap_name?_lead]
    exact .placeholder hopen hclose hname (ih _ hshorter hafter rfl)

/-- The strict texts are those with well braced segments, and the names of the
    one are the placeholders of the other. -/
theorem strictText_iff : StrictText cs names ↔
    WellBraced (ofChars cs) ∧ (ofChars cs).filterMap name? = names := by
  refine ⟨wellBraced_of_strictText, ?_⟩
  rintro ⟨h, rfl⟩
  exact strictText_of_wellBraced h

end Segment

/-- A template is read strictly when its segments are well braced, and has then the
    same names. -/
theorem Template.strictNames_eq_ok_iff {t : Template} {names : List String} :
    Placeholder.strictNames t.source = .ok names ↔
      Segment.WellBraced t.segments ∧ t.placeholders = names :=
  Placeholder.strict_eq_ok_iff.trans Segment.strictText_iff

end ScopedStyle
