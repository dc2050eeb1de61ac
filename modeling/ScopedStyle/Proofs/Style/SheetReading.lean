import ScopedStyle.Proofs.Style.Cascade

/-!
# Reading a sheet back

With comments a sheet says where its rules come from. A comment names the field
that the blocks behind it belong to (`Schema.WellFormed.under_compile`), and each
block says at which breakpoint its rules apply. So the rules of every field are
read off the sheet breakpoint by breakpoint (`Schema.WellFormed.rulesAt_eq_read`).

Hence two trees make the same sheets exactly if every field has the same rules
over both of them, at every breakpoint (`Schema.WellFormed.compile_eq_iff`).
-/

namespace ScopedStyle

/-! ### Rules of a breakpoint -/

/-- The rules of a block that apply up to just the given width, or to all. -/
def Block.rulesUpTo (maxWidth? : Option Nat) : Block → List StyleRule
  | .rule r => if maxWidth? = none then [r] else []
  | .media maxWidth rules => if maxWidth? = some maxWidth then rules else []
  | .comment _ => []

namespace Widths

variable {w : Widths}

theorem flatMap_rulesUpTo_blocksOf (b : Breakpoint) (rules : List StyleRule)
    (maxWidth? : Option Nat) : (w.blocksOf b rules).flatMap (·.rulesUpTo maxWidth?) =
      if w.maxWidth? b = maxWidth? then rules else [] := by
  rw [blocksOf]
  cases w.maxWidth? b with
  | none => cases maxWidth? <;> simp [List.flatMap_map, Block.rulesUpTo]
  | some maxWidth =>
    cases rules with
    | nil => simp [Block.mediaOf]
    | cons r rules => simp [Block.mediaOf, Block.rulesUpTo, eq_comm]

/-- With the widths in order, no two breakpoints have the same one. -/
theorem maxWidth?_inj (h : w.mobile < w.tablet) {b b' : Breakpoint} :
    w.maxWidth? b = w.maxWidth? b' ↔ b = b' := by
  cases b <;> cases b' <;> simp [maxWidth?] <;> omega

/-- The rules of each breakpoint are found in the blocks of all of them. -/
theorem flatMap_rulesUpTo_blocks (h : w.mobile < w.tablet)
    (rules : Breakpoint → List StyleRule) (b : Breakpoint) :
    (Breakpoint.all.flatMap fun b' => w.blocksOf b' (rules b')).flatMap
      (·.rulesUpTo (w.maxWidth? b)) = rules b := by
  simp only [List.flatMap_assoc, flatMap_rulesUpTo_blocksOf, maxWidth?_inj h]
  cases b <;> simp [Breakpoint.all]

end Widths

/-! ### Blocks under a comment -/

/-- There is no comment in front of no blocks. -/
@[simp] theorem Entry.comment_nil (e : Entry) (c : Config) : e.comment c [] = [] := by
  simp [comment]

namespace Sheet

/-- The blocks between the comment with a text and the next comment. -/
def under (text : String) (s : Sheet) : List Block :=
  ((s.dropWhile (· ≠ .comment text)).drop 1).takeWhile (!·.isComment)

variable {text : String} {blocks s : List Block}

theorem under_append_of_not_mem (h : .comment text ∉ blocks) :
    under text (blocks ++ s) = under text s := by
  rw [under, under, List.dropWhile_append_of_pos]
  intro block hblock
  rw [decide_eq_true_eq]
  rintro rfl
  exact h hblock

theorem under_eq_nil (h : .comment text ∉ s) : under text s = [] := by
  rw [← s.append_nil, under_append_of_not_mem h]
  rfl

theorem under_comment_cons (hblocks : ∀ block ∈ blocks, block.isComment = false)
    (hs : s.takeWhile (!·.isComment) = []) :
    under text (.comment text :: (blocks ++ s)) = blocks := by
  rw [under, List.dropWhile_cons_of_neg (by simp), List.drop_one, List.tail_cons,
    List.takeWhile_append_of_pos fun block hblock => by rw [hblocks block hblock]; rfl, hs,
    List.append_nil]

variable {c : Config} {es : List Entry} {plain : Entry → List Block}

/-- What stands under comments begins with one. -/
theorem takeWhile_flatMap_comment (hc : c.comments = true) :
    (es.flatMap fun e => e.comment c (plain e) ++ plain e).takeWhile (!·.isComment) = [] := by
  induction es with
  | nil => rfl
  | cons e es ih =>
    rw [List.flatMap_cons]
    cases h : plain e with
    | nil => rwa [Entry.comment_nil]
    | cons block blocks => simp [Entry.comment, hc, Block.isComment]

/-- The only comment of a field is that with its path. -/
theorem not_mem_comment_append {e : Entry}
    (hplain : ∀ block ∈ plain e, block.isComment = false) (h : e.path.toText ≠ text) :
    .comment text ∉ e.comment c (plain e) ++ plain e := by
  rw [List.mem_append, not_or]
  constructor
  · rw [Entry.comment]
    split
    · simpa using h.symm
    · exact List.not_mem_nil
  · intro hmem
    cases hplain _ hmem

/-- Under the comment with the path of a field stands what the field adds, if no
    other one has a path with the same text. -/
theorem under_flatMap (hc : c.comments = true)
    (hplain : ∀ e ∈ es, ∀ block ∈ plain e, block.isComment = false)
    (hpaths : es.Pairwise fun e₁ e₂ => e₁.path.toText ≠ e₂.path.toText) {e : Entry}
    (he : e ∈ es) :
    under e.path.toText (es.flatMap fun e => e.comment c (plain e) ++ plain e) = plain e := by
  induction es with
  | nil => cases he
  | cons first rest ih =>
    obtain ⟨hfirst, hrest⟩ := List.forall_mem_cons.1 hplain
    obtain ⟨hne, hpaths⟩ := List.pairwise_cons.1 hpaths
    rw [List.flatMap_cons]
    rcases List.mem_cons.1 he with rfl | he
    · cases h : plain e with
      | nil =>
        -- No comment, but none of the other fields has it either.
        refine under_eq_nil fun hmem => ?_
        rw [Entry.comment_nil, List.nil_append, List.nil_append] at hmem
        obtain ⟨e', he', hmem⟩ := List.mem_flatMap.1 hmem
        exact not_mem_comment_append (hrest e' he') (hne e' he').symm hmem
      | cons block blocks =>
        rw [Entry.comment, hc, List.append_assoc]
        rw [h] at hfirst
        exact under_comment_cons hfirst (takeWhile_flatMap_comment hc)
    · rw [under_append_of_not_mem (not_mem_comment_append hfirst (hne e he))]
      exact ih hrest hpaths he

end Sheet

/-! ### Sheets of a schema -/

namespace Entry

variable {e : Entry} {s : Schema} {t t' : Tree} {wrapper : String}

/-- A field with the same rules at every breakpoint adds the same blocks. -/
theorem blocks_congr_rulesAt (h : ∀ b, e.rulesAt s t wrapper b = e.rulesAt s t' wrapper b)
    (c : Config) : e.blocks s t c wrapper = e.blocks s t' c wrapper := by
  have hplain : e.blocks s t { c with comments := false } wrapper =
      e.blocks s t' { c with comments := false } wrapper := by
    rw [blocks_eq_flatMap rfl, blocks_eq_flatMap rfl]
    exact List.flatMap_congr fun b _ => by rw [h b]
  rw [blocks_eq_comment_append, hplain, ← blocks_eq_comment_append]

end Entry

namespace Schema.WellFormed

variable {s : Schema} (hs : s.WellFormed)

include hs

theorem pairwise_toText_ne :
    s.entries.Pairwise fun e₁ e₂ => e₁.path.toText ≠ e₂.path.toText := by
  refine hs.pairwise_apart.imp_of_mem fun h₁ h₂ happart htext => happart.ne ?_
  rw [← (hs.ofKeys_path h₁).2.ofText_toText, htext, (hs.ofKeys_path h₂).2.ofText_toText]

/-- In a sheet with comments, the blocks of a field stand under its path. -/
theorem under_compile {e : Entry} (he : e ∈ s.entries) (t : Tree) {c : Config}
    (hc : c.comments = true) (id : String) (sectionId : Option String) :
    Sheet.under e.path.toText (s.compile t c id sectionId) =
      Breakpoint.all.flatMap fun b =>
        c.breakpoints.blocksOf b (e.rulesAt s t (Selector.wrapper id sectionId) b) := by
  have hplain (e : Entry) :
      e.blocks s t { c with comments := false } (Selector.wrapper id sectionId) =
        Breakpoint.all.flatMap fun b =>
          c.breakpoints.blocksOf b (e.rulesAt s t (Selector.wrapper id sectionId) b) :=
    Entry.blocks_eq_flatMap rfl
  have hsheet : s.compile t c id sectionId = s.entries.flatMap fun e =>
      e.comment c (e.blocks s t { c with comments := false } (Selector.wrapper id sectionId)) ++
        e.blocks s t { c with comments := false } (Selector.wrapper id sectionId) :=
    List.flatMap_congr fun e _ => e.blocks_eq_comment_append s t c _
  rw [hsheet, Sheet.under_flatMap hc (fun e _ block hblock => ?_) hs.pairwise_toText_ne he, hplain]
  rw [hplain] at hblock
  obtain ⟨b, -, hblock⟩ := List.mem_flatMap.1 hblock
  rcases Widths.mem_blocksOf_cases hblock with ⟨r, -, rfl⟩ | ⟨maxWidth, rfl⟩ <;> rfl

/-- The rules of a field at a breakpoint are read off a sheet with comments. -/
theorem rulesAt_eq_read {e : Entry} (he : e ∈ s.entries) (t : Tree) {c : Config}
    (hc : c.comments = true) (hwidths : c.breakpoints.mobile < c.breakpoints.tablet) (id : String)
    (sectionId : Option String) (b : Breakpoint) :
    e.rulesAt s t (Selector.wrapper id sectionId) b =
      (Sheet.under e.path.toText (s.compile t c id sectionId)).flatMap
        (·.rulesUpTo (c.breakpoints.maxWidth? b)) := by
  rw [hs.under_compile he t hc, Widths.flatMap_rulesUpTo_blocks hwidths]

/-- Two trees make the same sheets exactly if every field has the same rules over
    both of them. -/
theorem compile_eq_iff {t t' : Tree} :
    (∀ c id sectionId, s.compile t c id sectionId = s.compile t' c id sectionId) ↔
      ∀ e ∈ s.entries, ∀ id sectionId b,
        e.rulesAt s t (Selector.wrapper id sectionId) b =
          e.rulesAt s t' (Selector.wrapper id sectionId) b := by
  constructor
  · intro h e he id sectionId b
    have hwidths : Widths.standard.mobile < Widths.standard.tablet := by decide
    rw [hs.rulesAt_eq_read he t (c := ⟨.standard, true⟩) rfl hwidths, h,
      ← hs.rulesAt_eq_read he t' (c := ⟨.standard, true⟩) rfl hwidths]
  · intro h c id sectionId
    exact List.flatMap_congr fun e he => Entry.blocks_congr_rulesAt (h e he id sectionId) c

end Schema.WellFormed

end ScopedStyle
