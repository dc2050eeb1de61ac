import Mathlib.Data.List.Basic
import ScopedStyle.Proofs.Markup.Entity

/-!
# Skeletons of markup

A reader of markup is in a text, in a tag, or in a quoted value, and three
characters take it from one to another: `<` begins a tag, `>` ends it, and a
double quote stands on both sides of a value. These are the delimiters. The
skeleton of a markup is what is left of it without its texts and values: the
tags with the names in them, and all delimiters, wherever they stand
(`Markup.filter_isDelimiter_outline`).

A text without delimiters leaves nothing in the skeleton, if it stands where a
text or a value may stand (`Markup.Shows.plain`). Escaped texts are such
(`Markup.plain_escape`), even if characters at their ends are taken away.
-/

namespace ScopedStyle.Markup

/-! ### Reading -/

/-- Where a reader of markup is. -/
inductive Place where
  /-- Between tags. -/
  | text
  /-- Inside a tag. -/
  | tag
  /-- Inside a quoted value of a tag. -/
  | value
  deriving DecidableEq

/-- Whether a character begins or ends a tag or a value. -/
def isDelimiter (c : Char) : Bool :=
  ['<', '>', '"'].contains c

namespace Place

/-- The place behind a character. -/
def next : Place → Char → Place
  | .text, '<' => .tag
  | .tag, '>' => .text
  | .tag, '"' => .value
  | .value, '"' => .tag
  | p, _ => p

/-- The place behind a row of characters. -/
def after (p : Place) (cs : List Char) : Place :=
  cs.foldl next p

/-- Whether a character is part of the skeleton: all of a tag, and delimiters. -/
def shows (p : Place) (c : Char) : Bool :=
  p = .tag || isDelimiter c

end Place

/-- What characters that are read from a place leave in the skeleton. -/
def outline : Place → List Char → List Char
  | _, [] => []
  | p, c :: cs => if p.shows c then c :: outline (p.next c) cs else outline (p.next c) cs

/-- The skeleton of a markup that is read from a place. -/
def skeletonFrom (p : Place) (s : String) : String :=
  String.ofList (outline p s.toList)

/-- The skeleton of a markup. -/
def skeleton (s : String) : String :=
  skeletonFrom .text s

/-- The skeleton has all delimiters. -/
theorem filter_isDelimiter_outline (p : Place) (cs : List Char) :
    (outline p cs).filter isDelimiter = cs.filter isDelimiter := by
  induction cs generalizing p with
  | nil => rfl
  | cons c cs ih =>
    rw [outline]
    split
    · rw [List.filter_cons, List.filter_cons, ih]
    · rename_i hshows
      have hplain : ¬isDelimiter c = true := fun h => hshows (by rw [Place.shows, h, Bool.or_true])
      rw [List.filter_cons_of_neg hplain, ih]

theorem filter_isDelimiter_skeletonFrom (p : Place) (s : String) :
    (skeletonFrom p s).toList.filter isDelimiter = s.toList.filter isDelimiter := by
  rw [skeletonFrom, String.toList_ofList, filter_isDelimiter_outline]

/-- A delimiter of a markup is one of its skeleton. -/
theorem mem_skeletonFrom {p : Place} {s : String} {c : Char} (hc : isDelimiter c = true)
    (h : c ∈ s.toList) : c ∈ (skeletonFrom p s).toList := by
  have hmem : c ∈ s.toList.filter isDelimiter := List.mem_filter.2 ⟨h, hc⟩
  rw [← filter_isDelimiter_skeletonFrom p] at hmem
  exact (List.mem_filter.1 hmem).1

theorem outline_append (p : Place) (cs ds : List Char) :
    outline p (cs ++ ds) = outline p cs ++ outline (p.after cs) ds := by
  induction cs generalizing p with
  | nil => rfl
  | cons c cs ih =>
    rw [List.cons_append, outline, outline, ih]
    split <;> rfl

/-- A text without delimiters. -/
def Plain (s : String) : Prop :=
  ∀ c ∈ s.toList, isDelimiter c = false

instance : DecidablePred Plain :=
  fun s => List.decidableBAll (isDelimiter · = false) s.toList

theorem outline_of_plain {p : Place} (hp : p ≠ .tag) {cs : List Char}
    (h : ∀ c ∈ cs, isDelimiter c = false) : outline p cs = [] ∧ p.after cs = p := by
  induction cs with
  | nil => exact ⟨rfl, rfl⟩
  | cons c cs ih =>
    obtain ⟨hc, hcs⟩ := List.forall_mem_cons.1 h
    -- Only a delimiter takes the reader out of a text or a value.
    have hnext : p.next c = p := by
      cases p with
      | tag => exact absurd rfl hp
      | text | value => unfold Place.next; split <;> first | rfl | cases hc
    obtain ⟨houtline, hafter⟩ := ih hcs
    refine ⟨?_, ?_⟩
    · rw [outline, if_neg (by simp [Place.shows, hp, hc]), hnext, houtline]
    · rw [Place.after, List.foldl_cons, hnext]
      exact hafter

/-- A markup takes a reader from one place to another, and leaves a skeleton. -/
structure Shows (p q : Place) (s out : String) : Prop where
  /-- What the skeleton is. -/
  skeletonFrom : skeletonFrom p s = out
  /-- Where the reader is in the end. -/
  after : p.after s.toList = q

namespace Shows

variable {p q r : Place} {s s' out out' : String}

/-- Markups are read one after the other. -/
theorem append (h : Shows p q s out) (h' : Shows q r s' out') :
    Shows p r (s ++ s') (out ++ out') where
  skeletonFrom := by
    rw [Markup.skeletonFrom, String.toList_append, outline_append, h.after, String.ofList_append,
      ← h.skeletonFrom, ← h'.skeletonFrom]
    rfl
  after := by
    rw [Place.after, String.toList_append, List.foldl_append, ← h'.after, ← h.after]
    rfl

/-- A text without delimiters is no part of the skeleton where texts and values
    stand. -/
theorem plain (hp : p ≠ .tag) (h : Plain s) : Shows p p s "" where
  skeletonFrom := by rw [Markup.skeletonFrom, (outline_of_plain hp h).1]
  after := (outline_of_plain hp h).2

/-- A text without delimiters leaves nothing behind a markup, either. -/
theorem append_plain (h : Shows p q s out) (hq : q ≠ .tag) (hs' : Plain s') :
    Shows p q (s ++ s') out := by
  have hshows := h.append (.plain hq hs')
  rwa [String.append_empty] at hshows

end Shows

instance (p q : Place) (s out : String) : Decidable (Shows p q s out) :=
  decidable_of_iff (skeletonFrom p s = out ∧ p.after s.toList = q)
    ⟨fun h => ⟨h.1, h.2⟩, fun h => ⟨h.1, h.2⟩⟩

/-! ### Texts without delimiters -/

theorem isEscaped_of_isDelimiter {c : Char} (h : isDelimiter c = true) : isEscaped c = true := by
  simp only [isDelimiter, List.contains_cons, List.contains_nil, Bool.or_eq_true, beq_iff_eq] at h
  rcases h with rfl | rfl | rfl | h <;> first | rfl | cases h

/-- An escaped text has no delimiters. -/
theorem plain_escape (s : String) : Plain (escape s) := by
  refine fun d hd => Bool.eq_false_iff.2 fun hdelimiter => ?_
  rw [eq_ampersand_of_mem_escape hd (isEscaped_of_isDelimiter hdelimiter)] at hdelimiter
  cases hdelimiter

theorem plain_append_iff {s s' : String} : Plain (s ++ s') ↔ Plain s ∧ Plain s' := by
  rw [Plain, String.toList_append, List.forall_mem_append]
  rfl

theorem plain_intercalate {sep : String} {texts : List String} (hsep : Plain sep)
    (h : ∀ text ∈ texts, Plain text) : Plain (sep.intercalate texts) := by
  induction texts with
  | nil => exact fun _ hc => by cases hc
  | cons text texts ih =>
    obtain ⟨htext, htexts⟩ := List.forall_mem_cons.1 h
    cases texts with
    | nil => simpa using htext
    | cons next texts =>
      rw [String.intercalate_cons_cons]
      exact plain_append_iff.2 ⟨plain_append_iff.2 ⟨htext, hsep⟩, ih htexts⟩

end ScopedStyle.Markup
