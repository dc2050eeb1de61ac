import Mathlib.Data.Option.Basic
import ScopedStyle.Markup.Attributes
import ScopedStyle.Proofs.Markup.Entity
import ScopedStyle.Proofs.Schema.Addressing

/-!
# The style attribute

A reader of the markup sees the style attribute with its entities read back.
These should be the declarations of the contributing fields, each without the
blanks around it and the semicolons at its end, one after the other.

But the semicolons are taken away after escaping. Where a declaration ends in an
escaped character, this takes the semicolon of its entity as well
(`Markup.Written`). The last declaration is then read with a broken entity in
it, and any other one closes its entity by the semicolon that should separate
it from the next. So what is read is right exactly when no declaration ends in
an escaped character (`Schema.unescape_styleAttribute_iff`).
-/

namespace ScopedStyle

/-! ### Texts in the markup -/

namespace Markup

/-- Whether a text ends in a character that has an entity, once the semicolons
    at its end are taken away. -/
def endsEscaped (text : String) : Bool :=
  (Text.dropEndWhile (· = ';') text.toList).getLast?.any isEscaped

/-- How a text stands in the markup: as a whole, or with the entity of its last
    character clipped. -/
inductive Written : Bool → List Char → List Char → Prop where
  | whole (cs : List Char) : Written false cs (cs.flatMap escapeChar)
  | clipped (cs : List Char) {c : Char} {name : List Char} (h : Entity c name) :
    Written true (cs ++ [c]) (cs.flatMap escapeChar ++ name)

/-- Taking the semicolons at the end away clips the entity of a last character. -/
theorem written_dropEndWhile (cs : List Char) :
    Written ((Text.dropEndWhile (· = ';') cs).getLast?.any isEscaped)
      (Text.dropEndWhile (· = ';') cs) (Text.dropEndWhile (· = ';') (cs.flatMap escapeChar)) := by
  induction cs using List.reverseRecOn with
  | nil => exact .whole []
  | append_singleton cs c ih =>
    rw [List.flatMap_append, List.flatMap_singleton, dropEndWhile_concat]
    by_cases hc : c = ';'
    · subst hc
      have hchar : escapeChar ';' = [';'] := rfl
      rwa [if_pos (by simp), hchar, dropEndWhile_concat, if_pos (by simp)]
    · rw [if_neg (by simp [hc]), List.getLast?_concat, Option.any_some]
      rcases escapeChar_cases c with ⟨hescaped, hchar⟩ | ⟨name, hname, hchar⟩
      · rw [hchar, dropEndWhile_concat, if_neg (by simp [hc]), hescaped]
        have hwhole := Written.whole (cs ++ [c])
        rwa [List.flatMap_append, List.flatMap_singleton, hchar] at hwhole
      · -- The semicolon of the entity is dropped, and nothing in front of it.
        obtain ⟨init, d, rfl, hd, _⟩ := hname.exists_concat
        rw [hchar, ← List.append_assoc, dropEndWhile_concat, if_pos (by simp), ← List.append_assoc,
          dropEndWhile_concat, if_neg (by simp [hd]), hname.isEscaped, List.append_assoc]
        exact .clipped cs hname

namespace Written

variable {b : Bool} {cs ps : List Char}

/-- Blanks may be taken away before or after escaping, even where the entity at
    the end is clipped. -/
theorem trimChars (h : Written b cs ps) : Written b (Text.trimChars cs) (Text.trimChars ps) := by
  cases h with
  | whole =>
    rw [trimChars_escape]
    exact .whole _
  | clipped cs hname =>
    have hc := hname.isBlank_eq_false
    obtain ⟨rest, hrest, -⟩ := hname.exists_cons
    obtain ⟨init, d, rfl, _, hd⟩ := hname.exists_concat
    have hplain : Text.trimChars (cs ++ ([] ++ [_])) = _ := trimChars_append cs (by simp [hc]) hc
    rw [List.nil_append] at hplain
    rw [hplain, trimChars_append _ (by rw [hrest]; exact List.dropWhile_cons_of_neg (by decide)) hd,
      dropWhile_isBlank_escape]
    exact .clipped _ hname

/-- Clipped or not, only the empty text stands as nothing. -/
theorem isEmpty_eq (h : Written b cs ps) : ps.isEmpty = cs.isEmpty := by
  cases h with
  | whole =>
    cases cs with
    | nil => rfl
    | cons c cs =>
      rw [List.flatMap_cons]
      rcases escapeChar_cases c with ⟨_, hc⟩ | ⟨name, _, hc⟩ <;> simp [hc]
  | clipped cs hname =>
    obtain ⟨rest, rfl, -⟩ := hname.exists_cons
    rw [Bool.eq_iff_iff, List.isEmpty_iff, List.isEmpty_iff]
    simp

theorem ne_nil (h : Written true cs ps) : cs ≠ [] := by
  cases h with
  | clipped cs hname => exact List.append_ne_nil_of_right_ne_nil cs (by simp)

/-- At the end of the markup, a text is read back unless it is clipped. -/
theorem unescapeChars_eq_iff (h : Written b cs ps) : unescapeChars ps = cs ↔ b = false := by
  cases h with
  | whole =>
    have hread := unescapeChars_escape_append cs []
    rw [List.append_nil, unescapeChars, List.append_nil] at hread
    exact iff_of_true hread rfl
  | clipped cs hname =>
    rw [unescapeChars_escape_append, hname.unescapeChars_eq, List.append_cancel_left_eq]
    -- The broken entity is read as it is written, and is longer than its character.
    refine iff_of_false (fun heq => ?_) (by decide)
    cases hname <;> cases heq

/-- In front of a separator, a text is read back unless it is clipped: then its
    entity takes the semicolon of the separator. -/
theorem unescapeChars_append_iff (h : Written b cs ps) (qs ds : List Char) :
    unescapeChars (ps ++ ([';', ' '] ++ qs)) = cs ++ ([';', ' '] ++ ds) ↔
      b = false ∧ unescapeChars qs = ds := by
  cases h with
  | whole =>
    rw [unescapeChars_escape_append, List.append_cancel_left_eq]
    change ';' :: ' ' :: unescapeChars qs = ';' :: ' ' :: ds ↔ _
    simp
  | clipped cs hname =>
    rw [List.append_assoc, unescapeChars_escape_append, List.append_assoc,
      List.append_cancel_left_eq]
    change unescapeChars (_ ++ ';' :: ' ' :: qs) = _ ↔ _
    rw [hname.unescapeChars_append, unescapeChars_cons (by decide)]
    -- The character is followed by a blank where a semicolon should be.
    simp

end Written

end Markup

/-! ### Contributing fields -/

open Markup

/-- The text of a template of a field without the blanks around it, unless the
    field does not contribute. -/
def Entry.rendered? (e : Entry) (s : Schema) (t : Tree) (template : Template) : Option String := do
  guard (e.active s t)
  let v ← e.field.resolveDesktop? (t.get? e.path)
  guard (contributes e.field v)
  return Text.trim (v.tokens.render template)

/-- What a field contributes to the markup is the escaped text of its template. -/
theorem Entry.markup?_eq_rendered? (e : Entry) (s : Schema) (t : Tree) (template : Template) :
    e.markup? s t template = ((e.rendered? s t template).map escape).filter (!·.isEmpty) := by
  rw [markup?, rendered?]
  cases e.active s t with
  | false => rfl
  | true =>
    cases e.field.resolveDesktop? (t.get? e.path) with
    | none => rfl
    | some v =>
      cases hcontributes : contributes e.field v with
      | false => simp [hcontributes, failure]
      | true =>
        cases hempty : (escape (Text.trim (v.tokens.render template))).isEmpty <;>
          simp_all [guard, Option.filter]

namespace Schema

/-- The texts of the style templates of the contributing fields, in the order of
    the fields. -/
def styleTexts (s : Schema) (t : Tree) : List String :=
  s.entries.filterMap fun e => e.field.styleTemplate.bind (e.rendered? s t)

/-- A declaration stands in the markup as a whole unless it ends in an escaped
    character. -/
theorem written_bareDeclaration (text : String) :
    Written (endsEscaped text) (bareDeclaration text).toList
      (bareDeclaration (escape text)).toList := by
  rw [bareDeclaration, bareDeclaration, escape_eq, String.toList_ofList, String.toList_ofList,
    String.toList_ofList]
  exact (written_dropEndWhile text.toList).trimChars

/-- Joined declarations are read back exactly when none of them is clipped. -/
theorem unescape_join_iff (texts : List String) :
    unescape ("; ".intercalate (texts.map fun text => bareDeclaration (escape text))) =
        "; ".intercalate (texts.map bareDeclaration) ↔
      ∀ text ∈ texts, endsEscaped text = false := by
  rw [unescape, String.toList_intercalate, ← String.toList_inj, String.toList_ofList,
    String.toList_intercalate]
  change unescapeChars ([';', ' '].intercalate _) = [';', ' '].intercalate _ ↔ _
  -- A clipped first declaration cannot be made up for, and behind a whole one the rest decides.
  induction texts with
  | nil => simp [unescapeChars]
  | cons text texts ih =>
    have hwritten := written_bareDeclaration text
    cases texts with
    | nil => simpa using hwritten.unescapeChars_eq_iff
    | cons next texts =>
      simp only [List.map_cons, List.intercalate_cons_cons, List.append_assoc] at ih ⊢
      rw [hwritten.unescapeChars_append_iff, ih, List.forall_mem_cons (a := text)]

theorem isEmpty_toList (text : String) : text.toList.isEmpty = text.isEmpty := by
  rw [Bool.eq_iff_iff, List.isEmpty_iff, String.isEmpty_iff, String.toList_eq_nil_iff]

/-- A text that ends in an escaped character is not empty as a declaration. -/
theorem isEmpty_bareDeclaration_of_endsEscaped {text : String} (h : endsEscaped text = true) :
    (bareDeclaration text).isEmpty = false := by
  have hwritten := written_bareDeclaration text
  rw [h] at hwritten
  rw [String.isEmpty_eq_false_iff, ne_eq, ← String.toList_eq_nil_iff]
  exact hwritten.ne_nil

/-- What is written of a text is empty exactly when its declaration is. -/
theorem isEmpty_written (text : String) :
    (!(bareDeclaration (escape text)).isEmpty && !(escape text).isEmpty) =
      !(bareDeclaration text).isEmpty := by
  rw [← isEmpty_toList (bareDeclaration text), ← (written_bareDeclaration text).isEmpty_eq,
    isEmpty_toList]
  by_cases hescape : escape text = ""
  · have hbare : bareDeclaration "" = "" := by rfl
    rw [hescape, hbare]
    rfl
  · rw [String.isEmpty_eq_false_iff.2 hescape, Bool.not_false, Bool.and_true]

/-- The style attribute joins what is written of the texts whose declarations
    are not empty. -/
theorem styleAttribute_eq_join {s : Schema} (hs : s.category = .general) (t : Tree) :
    s.styleAttribute t = "; ".intercalate
      (((s.styleTexts t).filter fun text => !(bareDeclaration text).isEmpty).map
        fun text => bareDeclaration (escape text)) := by
  have htexts : s.markupTexts t Field.styleTemplate =
      ((s.styleTexts t).map escape).filter (!·.isEmpty) := by
    rw [markupTexts, hs, styleTexts, List.map_filterMap, List.filter_filterMap]
    refine List.filterMap_congr fun e _ => ?_
    cases e.field.styleTemplate with
    | none => rfl
    | some template => exact e.markup?_eq_rendered? s t template
  rw [styleAttribute, htexts]
  simp only [List.filter_map, List.filter_filter, List.map_map, Function.comp_def, isEmpty_written]

/-- What is read of the style attribute of a general schema are the
    declarations of the contributing fields exactly when none of them ends in an
    escaped character. -/
theorem unescape_styleAttribute_iff {s : Schema} (hs : s.category = .general) (t : Tree) :
    unescape (s.styleAttribute t) =
        "; ".intercalate (((s.styleTexts t).map bareDeclaration).filter (!·.isEmpty)) ↔
      ∀ text ∈ s.styleTexts t, endsEscaped text = false := by
  rw [styleAttribute_eq_join hs, List.filter_map, Function.comp_def, unescape_join_iff]
  refine ⟨fun h text htext => ?_, fun h text htext => h text (List.mem_filter.1 htext).1⟩
  refine Bool.of_not_eq_true fun hends => ?_
  have hempty := isEmpty_bareDeclaration_of_endsEscaped hends
  have hfalse := h text (List.mem_filter.2 ⟨htext, by rw [hempty]; rfl⟩)
  rw [hends] at hfalse
  cases hfalse

/-- A quoted mark in front of a color. -/
def markSteps : List Step :=
  [.openGroup "look" "Look",
    .field "text" [.key "mark", .label "Mark",
      .styleTemplate ⟨"content: \"\x7b\x7bVALUE\x7d\x7d\""⟩],
    .field "color" [.key "tone", .label "Tone", .styleTemplate ⟨"color: \x7b\x7bVALUE\x7d\x7d"⟩]]

/-- Settings that store a mark and a color. -/
def markTree (mark tone : String) : Tree :=
  ⟨.obj [("look", .obj [("mark", .str mark), ("tone", .str tone)])]⟩

/-- The closing quote takes the semicolon between the two declarations. -/
theorem quoted_mark_takes_separator :
    ∃ s, ofSteps .general markSteps = .ok s ∧ s.category = .general ∧
      "; ".intercalate (((s.styleTexts (markTree "x" "red")).map bareDeclaration).filter
        (!·.isEmpty)) = "content: \"x\"; color: red" ∧
      unescape (s.styleAttribute (markTree "x" "red")) = "content: \"x\" color: red" := by
  obtain ⟨s, hs, hq⟩ := exists_of_any .general markSteps (fun s =>
    s.category = .general &&
      "; ".intercalate (((s.styleTexts (markTree "x" "red")).map bareDeclaration).filter
        (!·.isEmpty)) = "content: \"x\"; color: red" &&
      unescape (s.styleAttribute (markTree "x" "red")) = "content: \"x\" color: red")
    (by decide +kernel)
  simp only [Bool.and_eq_true, decide_eq_true_eq] at hq
  exact ⟨s, hs, hq.1.1, hq.1.2, hq.2⟩

/-- Without a mark the color is read back, although its text is escaped. -/
theorem plain_tone_read_back :
    ∃ s, ofSteps .general markSteps = .ok s ∧ s.category = .general ∧
      s.styleTexts (markTree "" "a&b") = ["color: a&b"] ∧
      unescape (s.styleAttribute (markTree "" "a&b")) = "; ".intercalate
        (((s.styleTexts (markTree "" "a&b")).map bareDeclaration).filter (!·.isEmpty)) := by
  obtain ⟨s, hs, hq⟩ := exists_of_any .general markSteps (fun s =>
    s.category = .general && s.styleTexts (markTree "" "a&b") = ["color: a&b"])
    (by decide +kernel)
  simp only [Bool.and_eq_true, decide_eq_true_eq] at hq
  obtain ⟨hgeneral, htexts⟩ := hq
  refine ⟨s, hs, hgeneral, htexts, (unescape_styleAttribute_iff hgeneral _).2 ?_⟩
  rw [htexts]
  decide +kernel

end Schema

end ScopedStyle
