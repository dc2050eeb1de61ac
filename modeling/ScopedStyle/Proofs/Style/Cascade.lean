import ScopedStyle.Proofs.Style.Locality
import ScopedStyle.Proofs.Style.Viewport

/-!
# The cascade of one field

What a field adds to a style sheet is made of the rules that it has at each
breakpoint (`Entry.rulesAt`), from the widest breakpoint to the narrowest one:
the rules of the desktop by themselves, and those of a narrower breakpoint in
one media block, if there are any (`Entry.filter_blocks`). So a viewport takes
its values from the narrowest breakpoint that has any for it, and a change of
the value for one breakpoint stays there (`Entry.blocks_cascade`).
-/

namespace ScopedStyle

/-- What the elements with a property make, made by all with the others making
    nothing. -/
theorem flatMap_filter {α β : Type} (p : α → Bool) (f : α → List β) (l : List α) :
    (l.filter p).flatMap f = l.flatMap fun a => if p a then f a else [] := by
  induction l with
  | nil => rfl
  | cons a l ih =>
    rw [List.filter_cons, List.flatMap_cons, ← ih]
    cases p a <;> simp

namespace Field

/-- The rules of a field at a breakpoint, none where it cannot be resolved. -/
def rulesAt (f : Field) (stored : Option Responsive) (wrapper : String) (b : Breakpoint) :
    List StyleRule :=
  match f.resolveAt stored b with
  | .error _ => []
  | .ok v => f.styleRules v wrapper

variable {f : Field} {stored : Option Responsive}

theorem blocksAt_eq (w : Widths) (wrapper : String) (b : Breakpoint) :
    f.blocksAt stored w wrapper b = w.blocksOf b (f.rulesAt stored wrapper b) := by
  rw [blocksAt, rulesAt, Widths.blocksOf]
  cases f.resolveAt stored b with
  | error e => cases w.maxWidth? b <;> rfl
  | ok v => rfl

/-- Whether a field is resolved at a breakpoint: at the desktop, and if it is
    responsive, where its stored value, or else its default, has an entry. -/
def hasBreakpoint (f : Field) (stored : Option Responsive) (b : Breakpoint) : Bool :=
  b = .desktop || f.responsive && ((stored.getD (.ofStored f.default)).get? b).isSome

theorem breakpoints_eq_filter :
    f.breakpoints stored = Breakpoint.all.filter (f.hasBreakpoint stored) := by
  rw [breakpoints]
  cases hresponsive : f.responsive with
  | false => simp [hasBreakpoint, hresponsive, Breakpoint.all]
  | true =>
    rw [if_pos rfl]
    refine List.filter_congr fun b _ => ?_
    rw [hasBreakpoint, hresponsive, Bool.true_and]

/-- A field without rules adds none. -/
theorem rulesAt_of_rules_eq_nil (h : f.rules = []) (wrapper : String) (b : Breakpoint) :
    f.rulesAt stored wrapper b = [] := by
  rw [rulesAt]
  split
  · rfl
  · rw [styleRules, h, List.flatMap_nil]

end Field

namespace Entry

/-- The rules that a field adds at a breakpoint. -/
def rulesAt (e : Entry) (s : Schema) (t : Tree) (wrapper : String) (b : Breakpoint) :
    List StyleRule :=
  let stored := (t.get? e.path).map Responsive.ofStored
  if e.active s t && e.field.hasBreakpoint stored b then e.field.rulesAt stored wrapper b else []

variable {e : Entry} {s : Schema} {t : Tree} {wrapper : String}

/-- Only a responsive field has rules at a narrower breakpoint. -/
theorem responsive_of_rulesAt {b : Breakpoint} (hb : b ≠ .desktop)
    (h : e.rulesAt s t wrapper b ≠ []) : e.field.responsive = true := by
  by_contra hresponsive
  refine h (if_neg ?_)
  simp [Field.hasBreakpoint, hb, hresponsive]

/-- Without comments, a field adds its rules breakpoint by breakpoint. -/
theorem blocks_eq_flatMap {c : Config} (hc : c.comments = false) :
    e.blocks s t c wrapper =
      Breakpoint.all.flatMap fun b => c.breakpoints.blocksOf b (e.rulesAt s t wrapper b) := by
  rw [blocks]
  split
  · rename_i h
    obtain ⟨-, hactive⟩ := Bool.and_eq_true_iff.1 h
    have hcomment (bs : List Block) : e.comment c bs = [] := by simp [comment, hc]
    dsimp only
    rw [hcomment, List.nil_append, Field.blocks, Field.breakpoints_eq_filter, flatMap_filter]
    refine List.flatMap_congr fun b _ => ?_
    rw [Field.blocksAt_eq, rulesAt, hactive, Bool.true_and]
    split
    · rfl
    · rw [Widths.blocksOf_eq_nil_iff.2 rfl]
  · rename_i h
    rw [Bool.and_eq_true_iff, not_and_or] at h
    refine (List.flatMap_eq_nil_iff.2 fun b _ => Widths.blocksOf_eq_nil_iff.2 ?_).symm
    rw [rulesAt]
    rcases h with hrules | hactive
    · rw [Field.rulesAt_of_rules_eq_nil (by simpa using hrules), ite_self]
    · simp [hactive]

/-- Comments aside, a field adds its rules breakpoint by breakpoint. -/
theorem filter_blocks (c : Config) : (e.blocks s t c wrapper).filter (!·.isComment) =
    Breakpoint.all.flatMap fun b => c.breakpoints.blocksOf b (e.rulesAt s t wrapper b) := by
  have hcomment (bs : List Block) : (e.comment c bs).filter (!·.isComment) = [] := by
    rw [comment]
    split <;> rfl
  rw [blocks_eq_comment_append, List.filter_append, hcomment, List.nil_append,
    blocks_eq_flatMap (c := { c with comments := false }) rfl]
  refine List.filter_eq_self.2 fun block hblock => ?_
  obtain ⟨b, _, hmem⟩ := List.mem_flatMap.1 hblock
  rcases Widths.mem_blocksOf_cases hmem with ⟨r, _, rfl⟩ | ⟨maxWidth, rfl⟩ <;> rfl

/-- Comments apply nowhere. -/
theorem filter_appliesAt_blocks (c : Config) (width : Nat) :
    (e.blocks s t c wrapper).filter (·.appliesAt width) =
      (Breakpoint.all.flatMap fun b =>
        c.breakpoints.blocksOf b (e.rulesAt s t wrapper b)).filter (·.appliesAt width) := by
  rw [← filter_blocks, List.filter_filter]
  refine List.filter_congr fun block _ => ?_
  cases block <;> simp [Block.isComment, Block.appliesAt]

end Entry

/-- The entry of a value that is keyed by breakpoints. -/
theorem Responsive.get?_ofStored {v : Json} (h : isMap v = true) (b : Breakpoint) :
    (ofStored v).get? b = at? v b := by
  rw [ofStored, ofMap?, if_pos h]
  cases b <;> rfl

/-- The rules at a breakpoint depend only on the entry for this breakpoint, as
    long as values that are keyed by breakpoints are stored. -/
theorem Entry.rulesAt_congr_entry {e : Entry} {s : Schema} {t t' : Tree} {v v' : Json}
    (hv : t.get? e.path = some v) (hv' : t'.get? e.path = some v')
    (hmap : Responsive.isMap v = true) (hmap' : Responsive.isMap v' = true)
    (hactive : e.active s t = e.active s t') {b : Breakpoint}
    (hat : Responsive.at? v b = Responsive.at? v' b) (wrapper : String) :
    e.rulesAt s t wrapper b = e.rulesAt s t' wrapper b := by
  have hget : (Responsive.ofStored v).get? b = (Responsive.ofStored v').get? b := by
    rw [Responsive.get?_ofStored hmap, Responsive.get?_ofStored hmap', hat]
  have hbreakpoint : e.field.hasBreakpoint (some (.ofStored v)) b =
      e.field.hasBreakpoint (some (.ofStored v')) b := by
    rw [Field.hasBreakpoint, Field.hasBreakpoint, Option.getD_some, Option.getD_some, hget]
  have hrules : e.field.rulesAt (some (.ofStored v)) wrapper b =
      e.field.rulesAt (some (.ofStored v')) wrapper b := by
    rw [Field.rulesAt, Field.rulesAt, Field.resolveAt, Field.resolveAt, Option.bind_some,
      Option.bind_some, hget]
  rw [rulesAt, rulesAt, hv, hv', Option.map_some, Option.map_some, hactive, hbreakpoint, hrules]

/-- Under a configuration that is read from a document, a field adds its rules for
    the desktop and then, if it is responsive, at most a media block for the
    tablet and one for the phone. So the last block that applies at a viewport
    width is one of the narrowest breakpoint there at which the field has rules.
    A change of the entry for one breakpoint leaves the rules at the others, as
    long as it does not change whether the condition holds. -/
theorem Entry.blocks_cascade {text : String} {c : Config} (hc : Config.ofText text = .ok c)
    (e : Entry) (s : Schema) (wrapper : String) :
    (0 < c.breakpoints.mobile ∧ c.breakpoints.mobile < c.breakpoints.tablet) ∧
    (∀ t, (e.blocks s t c wrapper).filter (!·.isComment) =
      (e.rulesAt s t wrapper .desktop).map .rule ++
        (Block.mediaOf c.breakpoints.tablet (e.rulesAt s t wrapper .tablet) ++
          Block.mediaOf c.breakpoints.mobile (e.rulesAt s t wrapper .mobile))) ∧
    (∀ t b, b ≠ .desktop → e.rulesAt s t wrapper b ≠ [] → e.field.responsive = true) ∧
    (∀ t width block, ((e.blocks s t c wrapper).filter (·.appliesAt width)).getLast? = some block ↔
      ∃ b, c.breakpoints.IsNarrowest (fun b => e.rulesAt s t wrapper b ≠ []) width b ∧
        (c.breakpoints.blocksOf b (e.rulesAt s t wrapper b)).getLast? = some block) ∧
    ∀ t t' v v' changed, t.get? e.path = some v → t'.get? e.path = some v' →
      Responsive.isMap v = true → Responsive.isMap v' = true →
      (∀ b, b ≠ changed → Responsive.at? v b = Responsive.at? v' b) →
      e.active s t = e.active s t' →
      ∀ b, b ≠ changed → e.rulesAt s t wrapper b = e.rulesAt s t' wrapper b := by
  have hordered := Config.ordered_of_ofText hc
  refine ⟨hordered, fun t => ?_, fun t b hb => responsive_of_rulesAt hb,
    fun t width block => ?_, ?_⟩
  · rw [filter_blocks]
    simp [Breakpoint.all, Widths.blocksOf, Widths.maxWidth?]
  · rw [filter_appliesAt_blocks,
      Widths.getLast?_filter_appliesAt_iff (Widths.pairwise_narrower hordered.2)]
    simp only [Breakpoint.mem_all, true_and]
  · intro t t' v v' changed hv hv' hmap hmap' hat hactive b hb
    exact rulesAt_congr_entry hv hv' hmap hmap' hactive (hat b hb) wrapper

/-- A gap between items that varies by breakpoint. -/
def Schema.gapSteps : List Schema.Step :=
  [.openGroup "layout" "Layout",
    .field "number" [.key "gap", .label "Gap", .responsive true,
      .rule (.declared ⟨"\x7b\x7bWRAPPER\x7d\x7d"⟩ ⟨"gap: \x7b\x7bVALUE\x7d\x7dpx;"⟩)]]

/-- Settings that store a gap for each breakpoint. -/
def gapTree (mobile : Json) : Tree :=
  ⟨.obj [("layout", .obj [("gap",
    .obj [("desktop", .ofNat 20), ("mobile", mobile), ("tablet", .ofNat 12)])])]⟩

/-- A configuration with narrow breakpoints. -/
def narrowConfig : String :=
  "\x7b\"breakpoints\": \x7b\"mobile\": 480, \"tablet\": 900\x7d\x7d"

/-- On a narrow viewport the gap for the tablet counts where that for the phone is
    malformed, and it stays when that for the phone is mended. -/
theorem gap_of_tablet_counts :
    ∃ c, Config.ofText narrowConfig = .ok c ∧ ∃ s, Schema.ofSteps .style Schema.gapSteps = .ok s ∧
      ∃ e ∈ s.entries, e.field.responsive = true ∧
        e.rulesAt s (gapTree (.str "wide")) "#w" .mobile = [] ∧
        ((e.blocks s (gapTree (.str "wide")) c "#w").filter (·.appliesAt 400)).getLast? =
          some (.media 900 [⟨"#w", "gap: 12px;"⟩]) ∧
        e.rulesAt s (gapTree (.str "wide")) "#w" .tablet =
          e.rulesAt s (gapTree (.ofNat 8)) "#w" .tablet := by
  have hc : Config.ofText narrowConfig = .ok ⟨⟨900, 480⟩, false⟩ :=
    Schema.eq_ok_of_toOption (by decide +kernel)
  obtain ⟨s, hs, hq⟩ := Schema.exists_of_any .style Schema.gapSteps (fun s => s.entries.any fun e =>
    e.path = ⟨["layout", "gap"]⟩ && e.rulesAt s (gapTree (.str "wide")) "#w" .mobile = [] &&
      e.rulesAt s (gapTree (.str "wide")) "#w" .tablet = [⟨"#w", "gap: 12px;"⟩] &&
        e.field.condition.isNone) (by decide +kernel)
  obtain ⟨e, he, hq⟩ := List.any_eq_true.1 hq
  simp only [Bool.and_eq_true, decide_eq_true_eq] at hq
  obtain ⟨⟨⟨hpath, hmobile⟩, htablet⟩, hcondition⟩ := hq
  have hrules : e.rulesAt s (gapTree (.str "wide")) "#w" .tablet ≠ [] := by
    rw [htablet]
    exact List.cons_ne_nil _ _
  obtain ⟨-, -, hresponsive, hlast, hentry⟩ := e.blocks_cascade hc s "#w"
  refine ⟨_, hc, s, hs, e, he, hresponsive _ .tablet (by decide) hrules, hmobile,
    (hlast _ _ _).2 ⟨.tablet, ⟨rfl, hrules, ?_⟩, ?_⟩, ?_⟩
  · intro b _ hrules
    cases b with
    | desktop => exact fun _ _ => rfl
    | tablet => exact .refl _
    | mobile => exact absurd hmobile hrules
  · rw [htablet]
    rfl
  · refine hentry _ _ _ _ .mobile (by rw [hpath]; rfl) (by rw [hpath]; rfl) rfl rfl ?_ ?_ .tablet
      (by decide)
    · intro b hb
      cases b with
      | desktop | tablet => rfl
      | mobile => exact absurd rfl hb
    · rw [Entry.active, Entry.active, Option.isNone_iff_eq_none.1 hcondition]

end ScopedStyle
