import ScopedStyle.Proofs.Template.Occurrences

/-!
# Rendering templates

The tokens of a text are put together to segments, the plain ones that follow
each other to one literal. Rendering goes by the segments; what it does to the
text can be said without them: walking along the text, a character stays where
no placeholder begins, and a placeholder gives way to its value if the lookup
knows it, and stays otherwise (`Placeholder.Replaced`). Walking goes on behind
the placeholder, so that what is put in is not read again.

There is one way to do this (`Placeholder.Replaced.unique`), and rendering does
it (`Template.render_eq_iff`).
-/

namespace ScopedStyle

namespace Placeholder

variable {name : String} {cs before : List Char}

/-- A text with its placeholders replaced by what the lookup knows. -/
inductive Replaced (lookup : String → Option String) : List Char → List Char → Prop
  /-- The empty text stays. -/
  | nil : Replaced lookup [] []
  /-- A character stays where no placeholder begins. -/
  | char {c : Char} {cs out : List Char} (hplain : ∀ name, ¬Begins name (c :: cs))
      (hrest : Replaced lookup cs out) : Replaced lookup (c :: cs) (c :: out)
  /-- A placeholder that is known gives way to its value. -/
  | known {name value : String} {cs out : List Char} (hname : isName name.toList = true)
      (hvalue : lookup name = some value) (hrest : Replaced lookup cs out) :
      Replaced lookup (written name.toList ++ cs) (value.toList ++ out)
  /-- A placeholder that is unknown stays as it is written. -/
  | unknown {name : String} {cs out : List Char} (hname : isName name.toList = true)
      (hvalue : lookup name = none) (hrest : Replaced lookup cs out) :
      Replaced lookup (written name.toList ++ cs) (written name.toList ++ out)

namespace Replaced

variable {lookup : String → Option String} {out out' : List Char}

/-- A text in which no placeholder begins stays in front of what is replaced. -/
theorem append (hplain : ∀ start < before.length, ∀ name, ¬OccursAt (before ++ cs) start name)
    (h : Replaced lookup cs out) : Replaced lookup (before ++ cs) (before ++ out) := by
  induction before with
  | nil => exact h
  | cons c before ih =>
    refine .char (hplain 0 (Nat.succ_pos _)) (ih fun start hstart => ?_)
    exact hplain (start + 1) (Nat.succ_lt_succ hstart)

/-- A placeholder is replaced by its value, or stays when it has none. -/
theorem placeholder (hname : isName name.toList = true) (h : Replaced lookup cs out) :
    Replaced lookup (written name.toList ++ cs)
      (((lookup name).getD (writtenText name)).toList ++ out) := by
  cases hvalue : lookup name with
  | some value => exact .known hname hvalue h
  | none =>
    rw [Option.getD_none, writtenText, String.toList_ofList]
    exact .unknown hname hvalue h

theorem exists_of_not_begins {c : Char} (hplain : ∀ name, ¬Begins name (c :: cs))
    (h : Replaced lookup (c :: cs) out) : ∃ rest, out = c :: rest ∧ Replaced lookup cs rest := by
  generalize htext : c :: cs = text at h
  cases h with
  | nil => cases htext
  | char _ hrest =>
    cases htext
    exact ⟨_, rfl, hrest⟩
  | known hname | unknown hname => exact absurd ⟨hname, _, htext.symm⟩ (hplain _)

theorem exists_of_written (hname : isName name.toList = true)
    (h : Replaced lookup (written name.toList ++ cs) out) : ∃ rest, Replaced lookup cs rest ∧
      out = ((lookup name).getD (writtenText name)).toList ++ rest := by
  generalize htext : written name.toList ++ cs = text at h
  cases h with
  | nil => cases htext
  | char hplain => exact absurd ⟨hname, _, htext⟩ (hplain _)
  | known hname' hvalue hrest =>
    obtain ⟨rfl, rfl⟩ := written_append_inj hname hname' htext
    exact ⟨_, hrest, by rw [hvalue]; rfl⟩
  | unknown hname' hvalue hrest =>
    obtain ⟨rfl, rfl⟩ := written_append_inj hname hname' htext
    exact ⟨_, hrest, by rw [hvalue, Option.getD_none, writtenText, String.toList_ofList]⟩

/-- There is one way to replace the placeholders. -/
theorem unique (h : Replaced lookup cs out) (h' : Replaced lookup cs out') : out = out' := by
  -- What begins at the front of a text decides which rule the other way has used.
  induction h generalizing out' with
  | nil =>
    generalize htext : [] = text at h'
    cases h' <;> cases htext
    rfl
  | char hplain _ ih =>
    obtain ⟨rest, rfl, hrest⟩ := exists_of_not_begins hplain h'
    rw [ih hrest]
  | known hname hvalue _ ih =>
    obtain ⟨rest, hrest, rfl⟩ := exists_of_written hname h'
    rw [ih hrest, hvalue, Option.getD_some]
  | unknown hname hvalue _ ih =>
    obtain ⟨rest, hrest, rfl⟩ := exists_of_written hname h'
    rw [ih hrest, hvalue, Option.getD_none, writtenText, String.toList_ofList]

end Replaced

end Placeholder

open Placeholder

/-! ### Tokens -/

namespace Token

variable {lookup : String → Option String} {cs : List Char}

/-- What a token becomes when its template is rendered. -/
def render (lookup : String → Option String) : Token → List Char
  | .placeholder name => ((lookup name).getD (writtenText name)).toList
  | token => token.source

theorem eq_placeholder_of_name? {token : Token} {name : String} (h : token.name? = some name) :
    token = .placeholder name := by
  cases token <;> cases h
  rfl

theorem render_of_name?_eq_none {token : Token} (h : token.name? = none)
    (lookup : String → Option String) : token.render lookup = token.source := by
  cases token <;> first | rfl | cases h

/-- What the tokens of a text become is the text with its placeholders replaced. -/
theorem replaced_flatMap_render (lookup : String → Option String) (cs : List Char) :
    Replaced lookup cs ((ofChars cs).flatMap (render lookup)) := by
  fun_induction ofChars cs with
  | case1 => exact .nil
  | case2 c cs ih =>
    have htext := source_first c cs
    rw [List.flatMap_cons, ← htext]
    cases hname : (first c cs).1.name? with
    | some name =>
      have hbegins : Begins name (c :: cs) := name?_first_eq_some_iff.1 hname
      rw [eq_placeholder_of_name? hname]
      exact .placeholder hbegins.1 ih
    | none =>
      -- A plain token holds no place where a placeholder begins.
      rw [render_of_name?_eq_none hname]
      refine .append (fun start hstart name => ?_) ih
      rw [htext, occursAt_iff_of_lt hstart, hname]
      simp

theorem flatMap_render_unknown (tokens : List Token) :
    tokens.flatMap (render fun _ => none) = tokens.flatMap source := by
  refine List.flatMap_congr fun token _ => ?_
  cases token with
  | placeholder name => simp [render, source, writtenText]
  | text s => rfl
  | brace => rfl

end Token

/-! ### Segments -/

namespace Segment

variable {segments : List Segment} {tokens : List Token} {s : String}

/-- The text that segments become. -/
def renderAll (lookup : String → Option String) (segments : List Segment) : List Char :=
  segments.flatMap fun segment => (segment.render lookup).toList

theorem renderAll_consText (lookup : String → Option String) (s : String)
    (segments : List Segment) :
    renderAll lookup (consText s segments) = s.toList ++ renderAll lookup segments := by
  match segments with
  | [] => rfl
  | .placeholder _ :: _ => rfl
  | .literal _ :: _ => simp [renderAll, consText, render]

/-- Putting tokens together changes nothing in what they become. -/
theorem renderAll_ofTokens (lookup : String → Option String) (tokens : List Token) :
    renderAll lookup (ofTokens tokens) = tokens.flatMap (Token.render lookup) := by
  induction tokens with
  | nil => rfl
  | cons token tokens ih =>
    rw [List.flatMap_cons, ← ih]
    cases token with
    | placeholder name => rfl
    | text s => exact renderAll_consText lookup s _
    | brace => exact renderAll_consText lookup _ _

/-- No literal is empty, and no two literals follow each other. -/
structure Merged (segments : List Segment) : Prop where
  /-- The literals have text. -/
  ne_empty : ∀ s, .literal s ∈ segments → s ≠ ""
  /-- Behind a literal there is a placeholder or the end. -/
  apart : ∀ s t, ¬[.literal s, .literal t] <:+: segments

theorem merged_nil : Merged [] where
  ne_empty := nofun
  apart _ _ h := nomatch List.infix_nil.1 h

theorem Merged.placeholder (h : Merged segments) (name : String) :
    Merged (.placeholder name :: segments) where
  ne_empty s hs := h.ne_empty s (by simpa using hs)
  apart s t hst := by
    rcases List.infix_cons_iff.1 hst with hst | hst
    · cases (List.cons_prefix_cons.1 hst).1
    · exact h.apart s t hst

theorem merged_literal_cons_iff : Merged (.literal s :: segments) ↔
    s ≠ "" ∧ (∀ t, segments.head? ≠ some (.literal t)) ∧ Merged segments := by
  constructor
  · refine fun h => ⟨h.ne_empty s List.mem_cons_self, fun t ht => ?_, ?_⟩
    · obtain ⟨rest, rfl⟩ := List.head?_eq_some_iff.1 ht
      exact h.apart s t (List.IsPrefix.isInfix (by simp))
    · exact ⟨fun t ht => h.ne_empty t (List.mem_cons_of_mem _ ht),
        fun t u htu => h.apart t u (htu.trans (List.suffix_cons _ _).isInfix)⟩
  · rintro ⟨hs, hhead, h⟩
    refine ⟨fun t ht => ?_, fun t u htu => ?_⟩
    · rcases List.mem_cons.1 ht with ht | ht
      · cases ht
        exact hs
      · exact h.ne_empty t ht
    · rcases List.infix_cons_iff.1 htu with htu | htu
      · obtain ⟨rest, hrest⟩ := (List.cons_prefix_cons.1 htu).2
        exact hhead u (by simp [← hrest])
      · exact h.apart t u htu

/-- A text in front goes into the literal that is there. -/
theorem Merged.consText (h : Merged segments) (hs : s ≠ "") : Merged (consText s segments) := by
  match segments with
  | [] => exact merged_literal_cons_iff.2 ⟨hs, fun _ => nofun, h⟩
  | .placeholder _ :: _ => exact merged_literal_cons_iff.2 ⟨hs, fun _ => nofun, h⟩
  | .literal t :: rest =>
    obtain ⟨_, hhead, hrest⟩ := merged_literal_cons_iff.1 h
    exact merged_literal_cons_iff.2 ⟨by simp [hs], hhead, hrest⟩

/-- Tokens that have text are put together. -/
theorem merged_ofTokens (h : ∀ token ∈ tokens, token.source ≠ []) : Merged (ofTokens tokens) := by
  induction tokens with
  | nil => exact merged_nil
  | cons token tokens ih =>
    obtain ⟨htoken, htokens⟩ := List.forall_mem_cons.1 h
    cases token with
    | placeholder name => exact (ih htokens).placeholder name
    | text s => exact (ih htokens).consText (by simpa [Token.source] using htoken)
    | brace => exact (ih htokens).consText (by decide)

end Segment

/-! ### Templates -/

/-- Every token of a text has characters. -/
theorem Token.source_ne_nil_of_mem {cs : List Char} {token : Token} (h : token ∈ ofChars cs) :
    token.source ≠ [] := by
  fun_induction ofChars cs with
  | case1 => cases h
  | case2 c cs ih =>
    rcases List.mem_cons.1 h with rfl | h
    · exact source_first_ne_nil c cs
    · exact ih h

namespace Template

variable {t : Template} {lookup : String → Option String}

theorem toList_render (t : Template) (lookup : String → Option String) :
    (t.render lookup).toList = (Token.ofText t.source).flatMap (Token.render lookup) := by
  rw [render, segments, ← Segment.renderAll_ofTokens, Segment.renderAll, String.toList_join,
    List.flatMap_map]

/-- Rendering a template is replacing the placeholders in its text. -/
theorem render_eq_iff {out : String} :
    t.render lookup = out ↔ Replaced lookup t.source.toList out.toList := by
  have hrender : Replaced lookup t.source.toList (t.render lookup).toList := by
    rw [toList_render]
    exact Token.replaced_flatMap_render lookup _
  constructor
  · rintro rfl
    exact hrender
  · exact fun h => String.toList_inj.1 (hrender.unique h)

/-- A template is read without loss, and rendered by its text. The tokens have
    characters, which are those of the text; the placeholders among them are, from
    left to right, those that occur in the text. The literals of the segments have
    text and do not follow each other. Rendering replaces the placeholders in the
    text, known ones by their value, and keeps all else, so that nothing changes
    where none is known. -/
theorem render_replaces_occurrences (t : Template) :
    ((∀ token ∈ Token.ofText t.source, token.source ≠ []) ∧
      (Token.ofText t.source).flatMap Token.source = t.source.toList) ∧
    ((∀ start name, (start, name) ∈ Token.placed 0 (Token.ofText t.source) ↔
        OccursAt t.source.toList start name) ∧
      (Token.placed 0 (Token.ofText t.source)).Pairwise
        fun a b => a.1 + (written a.2.toList).length ≤ b.1) ∧
    ((∀ s, .literal s ∈ t.segments → s ≠ "") ∧ ∀ a b, ¬[.literal a, .literal b] <:+: t.segments) ∧
    (∀ lookup out, t.render lookup = out ↔ Replaced lookup t.source.toList out.toList) ∧
    t.render (fun _ => none) = t.source := by
  have hmerged : Segment.Merged t.segments :=
    Segment.merged_ofTokens fun token htoken => Token.source_ne_nil_of_mem htoken
  refine ⟨⟨fun token htoken => Token.source_ne_nil_of_mem htoken, Token.source_ofChars _⟩,
    ⟨fun start name => ?_, Token.pairwise_placed _ _⟩, ⟨hmerged.ne_empty, hmerged.apart⟩,
    fun lookup out => render_eq_iff, ?_⟩
  · rw [Token.ofText, Token.mem_placed_ofChars_iff]
    simp
  · rw [← String.toList_inj, toList_render, Token.flatMap_render_unknown]
    exact Token.source_ofChars _

/-- A text in which braces touch a placeholder, and one in which a name is not
    closed in front of another placeholder. -/
def crowded : Template :=
  ⟨"\x7b\x7b\x7bVALUE.TOP\x7d\x7d\x7d \x7b\x7bA\x7b\x7bB\x7d\x7d"⟩

/-- The lookup that knows one side, by a value that looks like a placeholder. -/
def topOnly (name : String) : Option String :=
  if name = "VALUE.TOP" then some "\x7b\x7bB\x7d\x7d" else none

/-- Both placeholders of the text are found, and the value that looks like one is
    put in as it is. -/
theorem crowded_occurrences :
    (.brace ∈ Token.ofText crowded.source ∧ Token.source .brace ≠ []) ∧
    ((1, "VALUE.TOP") ∈ Token.placed 0 (Token.ofText crowded.source) ∧
      OccursAt crowded.source.toList 1 "VALUE.TOP") ∧
    ((19, "B") ∈ Token.placed 0 (Token.ofText crowded.source) ∧
      OccursAt crowded.source.toList 19 "B") ∧
    (.literal "\x7b" ∈ crowded.segments ∧ "\x7b" ≠ "") ∧
    crowded.render topOnly =
      "\x7b\x7b\x7bB\x7d\x7d\x7d \x7b\x7bA\x7b\x7bB\x7d\x7d" ∧
    Replaced topOnly crowded.source.toList
      "\x7b\x7b\x7bB\x7d\x7d\x7d \x7b\x7bA\x7b\x7bB\x7d\x7d".toList := by
  obtain ⟨⟨hsource, -⟩, ⟨hplaced, -⟩, ⟨hliteral, -⟩, hrender, -⟩ :=
    render_replaces_occurrences crowded
  have hbrace : Token.brace ∈ Token.ofText crowded.source := by decide +kernel
  have htop : (1, "VALUE.TOP") ∈ Token.placed 0 (Token.ofText crowded.source) := by
    decide +kernel
  have hside : (19, "B") ∈ Token.placed 0 (Token.ofText crowded.source) := by decide +kernel
  have hopening : Segment.literal "\x7b" ∈ crowded.segments := by decide +kernel
  have hout : crowded.render topOnly =
      "\x7b\x7b\x7bB\x7d\x7d\x7d \x7b\x7bA\x7b\x7bB\x7d\x7d" := by decide +kernel
  exact ⟨⟨hbrace, hsource _ hbrace⟩, ⟨htop, (hplaced _ _).1 htop⟩, ⟨hside, (hplaced _ _).1 hside⟩,
    ⟨hopening, hliteral _ hopening⟩, hout, (hrender _ _).1 hout⟩

end Template

end ScopedStyle
