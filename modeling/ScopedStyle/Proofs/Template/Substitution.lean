import ScopedStyle.Proofs.Template.Rendering

/-!
# Rendering what was rendered

A placeholder may be replaced by a text that has placeholders itself, and the
result be read as a template again. It is then rendered as if each placeholder had
been replaced at once by what its text becomes (`Template.render_rendered`).

What is put in could make placeholders that nobody wrote, together with the text
around it. It does not if it begins with two opening braces: a placeholder that
begins in front of it would reach over these, and no name has a brace
(`Placeholder.Replaced.begins_of_begins`).
-/

namespace ScopedStyle

namespace Placeholder

variable {name : String} {c : Char} {cs out before rest rest' : List Char}
variable {lookup edit later once : String → Option String}

/-- A text without an opening pair that is at the front of an opening pair is at
    the front of every opening pair. -/
theorem prefix_pair_of_prefix_pair (hbefore : ¬HasPair '{' before)
    (h : before <+: '{' :: '{' :: rest) (rest' : List Char) : before <+: '{' :: '{' :: rest' := by
  match before, h with
  | [], _ => exact List.nil_prefix
  | [b], h =>
    rw [(List.cons_prefix_cons.1 h).1]
    simp
  | b :: b' :: before, h =>
    obtain ⟨hb, htail⟩ := List.cons_prefix_cons.1 h
    have hb' := (List.cons_prefix_cons.1 htail).1
    exact absurd (hasPair_cons_cons_iff.2 (.inl ⟨hb, hb'⟩)) hbefore

/-- Every value that is put in begins with two opening braces. -/
def Braced (lookup : String → Option String) : Prop :=
  ∀ name value, lookup name = some value → ∃ rest, value.toList = '{' :: '{' :: rest

namespace Replaced

/-- Up to the first opening pair, a text in which braced values were put in is as
    it was. -/
theorem prefix_of_prefix (hlookup : Braced lookup) (h : Replaced lookup cs out)
    (hbefore : ¬HasPair '{' before) (hout : before <+: out) : before <+: cs := by
  induction h generalizing before with
  | nil => exact hout
  | @char c cs out _ _ ih =>
    cases before with
    | nil => exact List.nil_prefix
    | cons b before =>
      obtain ⟨hb, htail⟩ := List.cons_prefix_cons.1 hout
      exact List.cons_prefix_cons.2 ⟨hb, ih (fun h => hbefore (h.append_left [b])) htail⟩
  | known _ hvalue _ _ =>
    obtain ⟨rest, hrest⟩ := hlookup _ _ hvalue
    rw [hrest] at hout
    exact prefix_pair_of_prefix_pair hbefore hout _
  | unknown _ _ _ _ => exact prefix_pair_of_prefix_pair hbefore hout _

/-- A placeholder that begins with a character of the text itself was there before
    braced values were put in. -/
theorem begins_of_begins (hlookup : Braced lookup) (h : Replaced lookup cs out)
    (hbegins : Begins name (c :: out)) : Begins name (c :: cs) := by
  obtain ⟨hname, hwritten⟩ := hbegins
  obtain ⟨hc, htail⟩ := List.cons_prefix_cons.1 hwritten
  refine ⟨hname, List.cons_prefix_cons.2 ⟨hc, h.prefix_of_prefix hlookup ?_ htail⟩⟩
  -- Behind its first brace a placeholder has only one more.
  have hbrace : '{' ∉ name.toList ++ ['}', '}'] := by
    simpa using not_mem_of_isName hname (by decide) (by decide)
  intro hpair
  rcases List.infix_cons_iff.1 hpair with hpair | hpair
  · exact hbrace ((List.cons_prefix_cons.1 hpair).2.subset (List.mem_singleton_self _))
  · exact hbrace (hpair.subset (List.mem_cons_self))

end Replaced

/-- What a placeholder becomes at once is what it becomes in two steps. -/
def Composes (edit later once : String → Option String) (name : String) : Prop :=
  match edit name with
  | some value => ∃ text, once name = some text ∧ ∀ cs out, Replaced later cs out →
      Replaced later (value.toList ++ cs) (text.toList ++ out)
  | none => once name = later name

/-- A text in which placeholders were replaced by braced values is rendered as the
    text itself is at once. -/
theorem Replaced.comp {edited : List Char} (hedit : Braced edit) (h : Replaced edit cs edited)
    (hnames : ∀ name, isName name.toList = true → written name.toList <:+: cs →
      Composes edit later once name)
    (hout : Replaced once cs out) : Replaced later edited out := by
  -- The induction is on the text; what a placeholder is replaced by is taken at once.
  induction h generalizing out with
  | nil =>
    generalize htext : [] = text at hout
    cases hout <;> cases htext
    exact .nil
  | char hplain hrest ih =>
    obtain ⟨rest, rfl, hout'⟩ := exists_of_not_begins hplain hout
    refine .char (fun name hname => hplain name (hrest.begins_of_begins hedit hname)) ?_
    refine ih (fun name hname hin => ?_) hout'
    exact hnames name hname (hin.trans (List.suffix_cons _ _).isInfix)
  | @known name value cs edited hname hvalue _ ih =>
    obtain ⟨rest, hrest, rfl⟩ := exists_of_written hname hout
    have hcomposes := hnames name hname (List.prefix_append _ _).isInfix
    rw [Composes, hvalue] at hcomposes
    obtain ⟨text, htext, hcomposes⟩ := hcomposes
    rw [htext]
    refine hcomposes _ _ (ih (fun name hname hin => ?_) hrest)
    exact hnames name hname (hin.trans (List.suffix_append _ _).isInfix)
  | @unknown name cs edited hname hvalue _ ih =>
    obtain ⟨rest, hrest, rfl⟩ := exists_of_written hname hout
    have hcomposes := hnames name hname (List.prefix_append _ _).isInfix
    rw [Composes, hvalue] at hcomposes
    rw [hcomposes]
    refine .placeholder hname (ih (fun name hname hin => ?_) hrest)
    exact hnames name hname (hin.trans (List.suffix_append _ _).isInfix)

/-- A placeholder occurs somewhere in a text when its written form is in it. -/
theorem exists_occursAt_iff : (∃ start, OccursAt cs start name) ↔
    isName name.toList = true ∧ written name.toList <:+: cs := by
  constructor
  · rintro ⟨start, hname, hwritten⟩
    exact ⟨hname, hwritten.isInfix.trans (List.drop_suffix _ _).isInfix⟩
  · rintro ⟨hname, before, after, rfl⟩
    refine ⟨before.length, hname, ?_⟩
    rw [List.append_assoc, List.drop_left]
    exact List.prefix_append _ _

end Placeholder

open Placeholder

theorem Segment.filterMap_name?_ofTokens (tokens : List Token) :
    (ofTokens tokens).filterMap name? = tokens.filterMap Token.name? := by
  have htext (s : String) (segments : List Segment) :
      (consText s segments).filterMap name? = segments.filterMap name? := by
    match segments with
    | [] => rfl
    | .placeholder _ :: _ => rfl
    | .literal _ :: _ => rfl
  induction tokens with
  | nil => rfl
  | cons token tokens ih =>
    cases token with
    | placeholder name => exact congrArg (name :: ·) ih
    | text s => exact (htext s _).trans ih
    | brace => exact (htext _ _).trans ih

theorem Token.map_placed (start : Nat) (tokens : List Token) :
    (placed start tokens).map (·.2) = tokens.filterMap name? := by
  induction tokens generalizing start with
  | nil => rfl
  | cons token tokens ih =>
    rw [placed, List.map_append, ih]
    cases token <;> rfl

namespace Template

variable {t t' : Template} {name : String} {edit later once f : String → Option String}

/-- The placeholders of a template are those whose written form is in its text. -/
theorem mem_placeholders_iff : name ∈ t.placeholders ↔
    isName name.toList = true ∧ written name.toList <:+: t.source.toList := by
  rw [← exists_occursAt_iff, placeholders, segments, Segment.filterMap_name?_ofTokens,
    ← Token.map_placed 0, List.mem_map]
  constructor
  · rintro ⟨⟨start, _⟩, hmem, rfl⟩
    exact ⟨start, (Token.mem_placed_ofChars_iff.1 hmem).2⟩
  · rintro ⟨start, hoccurs⟩
    exact ⟨(start, name), Token.mem_placed_ofChars_iff.2 ⟨Nat.zero_le _, hoccurs⟩, rfl⟩

/-- The value of a placeholder of the template is in the rendered text. -/
theorem infix_render {value : String} (hname : name ∈ t.placeholders) (hvalue : f name = some value) :
    value.toList <:+: (t.render f).toList := by
  obtain ⟨segment, hsegment, hsome⟩ := List.mem_filterMap.1 hname
  cases segment with
  | literal s => cases hsome
  | placeholder _ =>
    cases hsome
    rw [render, String.toList_join]
    refine List.infix_of_mem_flatten (List.mem_map.2 ⟨value, ?_, rfl⟩)
    exact List.mem_map.2 ⟨_, hsegment, by rw [Segment.render, hvalue, Option.getD_some]⟩

/-- A template made by putting braced values into another one is rendered as that
    one is at once. -/
theorem render_rendered (hedit : Braced edit) (h : Replaced edit t.source.toList t'.source.toList)
    (hnames : ∀ name ∈ t.placeholders, Composes edit later once name) :
    t'.render later = t.render once :=
  render_eq_iff.2 (h.comp hedit (fun name hname hin => hnames name (mem_placeholders_iff.2 ⟨hname, hin⟩))
    (render_eq_iff.1 rfl))

end Template

end ScopedStyle
