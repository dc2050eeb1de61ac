import ScopedStyle.Proofs.Schema.Addressing
import ScopedStyle.Proofs.Style.Reads

/-!
# Locality of the style sheet

A style sheet is made field by field in declaration order. What a field adds
depends on a tree only at a few places (`Entry.reads`): at its own path, and at
the targets of its condition that are fields of the schema. So whatever stands
elsewhere, malformed or of no field at all, neither changes what the field adds
nor moves it (`Schema.compile_fieldwise`).

This is sharper than `Schema.compile_congr`, which compares two trees in all
fields at once.
-/

namespace ScopedStyle

namespace Entry

/-- The paths of a tree that decide what a field adds to the output: its own,
    and those of the fields that its condition is about. -/
def reads (e : Entry) (s : Schema) : List Path :=
  e.path :: ((e.field.condition.toList.flatMap Condition.clauses).map (·.target e.group)).filter
    fun p => (s.field? p).isSome

variable {e : Entry} {s : Schema} {t t' : Tree}

/-- What a condition is about is read when it is a field. -/
theorem mem_reads_of_gatedBy {p : Path} (hp : e.GatedBy p)
    (hfield : (s.field? p).isSome = true) : p ∈ e.reads s := by
  obtain ⟨c, hc, clause, hclause, rfl⟩ := hp
  refine List.mem_cons_of_mem _ (List.mem_filter.2 ⟨?_, hfield⟩)
  rw [hc, Option.toList_some, List.flatMap_singleton]
  exact List.mem_map_of_mem hclause

/-- A condition depends on the targets that are fields. -/
theorem active_congr_reads (h : ∀ p ∈ e.reads s, t.get? p = t'.get? p) :
    e.active s t = e.active s t' := by
  refine active_congr_gatedBy fun p hp hfield => ?_
  exact Schema.effective?_congr (h p (mem_reads_of_gatedBy hp hfield))

/-- What a field adds depends on the places that it reads. -/
theorem blocks_congr_reads (h : ∀ p ∈ e.reads s, t.get? p = t'.get? p) (c : Config)
    (wrapper : String) : e.blocks s t c wrapper = e.blocks s t' c wrapper := by
  rw [blocks, blocks, active_congr_reads h, h e.path List.mem_cons_self]

/-- Comments do not touch the blocks behind them. -/
theorem blocks_eq_comment_append (e : Entry) (s : Schema) (t : Tree) (c : Config)
    (wrapper : String) : e.blocks s t c wrapper =
      e.comment c (e.blocks s t { c with comments := false } wrapper) ++
        e.blocks s t { c with comments := false } wrapper := by
  rw [blocks, blocks]
  split
  · simp [comment]
  · simp [comment]

end Entry

namespace Schema

/-- A style sheet is the row of what its fields add, in declaration order. Each
    field reads its own path and the fields that its condition is about, so two
    trees that agree there, as before and after a value is stored apart from
    there, are the same to it. Comments add one in front of what a field adds,
    if that is anything. -/
theorem compile_fieldwise (s : Schema) (c : Config) (id : String) (sectionId : Option String) :
    (∀ t, s.compile t c id sectionId =
      s.entries.flatMap (·.blocks s t c (Selector.wrapper id sectionId))) ∧
    (∀ e : Entry, ∀ t t' : Tree, (∀ p ∈ e.reads s, t.get? p = t'.get? p) →
      e.blocks s t c (Selector.wrapper id sectionId) =
        e.blocks s t' c (Selector.wrapper id sectionId)) ∧
    (∀ e : Entry, ∀ t : Tree, ∀ p value, (∀ q ∈ e.reads s, p.Apart q) →
      e.blocks s (t.put p value) c (Selector.wrapper id sectionId) =
        e.blocks s t c (Selector.wrapper id sectionId)) ∧
    ∀ e : Entry, ∀ t : Tree,
      e.blocks s t { c with comments := true } (Selector.wrapper id sectionId) =
        match e.blocks s t { c with comments := false } (Selector.wrapper id sectionId) with
        | [] => []
        | block :: blocks => .comment e.path.toText :: block :: blocks := by
  refine ⟨fun t => rfl, fun e t t' h => Entry.blocks_congr_reads h c _, ?_, ?_⟩
  · intro e t p value h
    exact Entry.blocks_congr_reads (fun q hq => t.get?_put_of_apart (h q hq) value) c _
  · intro e t
    rw [Entry.blocks_eq_comment_append, Entry.comment]
    cases e.blocks s t { c with comments := false } (Selector.wrapper id sectionId) <;> rfl

/-- A group with a switch and two colors, of which one depends on the switch. -/
def iconSteps : List Step :=
  [.openGroup "icon" "Icon",
    .field "toggle" [.key "show", .label "Show", .default (.bool false)],
    .field "color" [.key "frame", .label "Frame",
      .rule (.declared ⟨"\x7b\x7bWRAPPER\x7d\x7d"⟩ ⟨"border-color: \x7b\x7bVALUE\x7d\x7d;"⟩)],
    .field "color" [.key "tone", .label "Tone", .condition ⟨[⟨⟨["show"]⟩, .eq, .bool true⟩]⟩,
      .rule (.declared ⟨"\x7b\x7bWRAPPER\x7d\x7d i"⟩ ⟨"color: \x7b\x7bVALUE\x7d\x7d;"⟩)]]

/-- Settings in which the icon is shown. -/
def shownTree : Tree :=
  ⟨.obj [("icon", .obj [("show", .bool true)])]⟩

/-- The same with a malformed frame, and with keys of no field. -/
def strayTree : Tree :=
  ⟨.obj [("icon", .obj [("frame", .arr []), ("show", .bool true), ("x", .null)]),
    ("stray", .str "y")]⟩

/-- A malformed frame and stray keys leave the rule for the tone as it is, and so
    does a new frame. -/
theorem tone_blocks_local :
    ∃ s, ofSteps .style iconSteps = .ok s ∧ ∃ e ∈ s.entries,
      e.reads s = [⟨["icon", "tone"]⟩, ⟨["icon", "show"]⟩] ∧
      (e.blocks s shownTree .standard (Selector.wrapper "w" none)).length = 1 ∧
      e.blocks s shownTree .standard (Selector.wrapper "w" none) =
        e.blocks s strayTree .standard (Selector.wrapper "w" none) ∧
      e.blocks s (strayTree.put ⟨["icon", "frame"]⟩ (.str "blue")) .standard
          (Selector.wrapper "w" none) =
        e.blocks s strayTree .standard (Selector.wrapper "w" none) := by
  obtain ⟨s, hs, hq⟩ := exists_of_any .style iconSteps (fun s => s.entries.any fun e =>
    e.reads s = [⟨["icon", "tone"]⟩, ⟨["icon", "show"]⟩] &&
      (e.blocks s shownTree .standard (Selector.wrapper "w" none)).length = 1) (by decide +kernel)
  obtain ⟨e, he, hq⟩ := List.any_eq_true.1 hq
  simp only [Bool.and_eq_true, decide_eq_true_eq] at hq
  obtain ⟨hreads, hlength⟩ := hq
  obtain ⟨-, hagree, hput, -⟩ := compile_fieldwise s .standard "w" none
  refine ⟨s, hs, e, he, hreads, hlength, hagree e _ _ ?_, hput e _ _ _ ?_⟩
  · -- Both trees store the switch and no tone.
    rw [hreads]
    exact List.forall_mem_cons.2 ⟨rfl, List.forall_mem_singleton.2 rfl⟩
  · simp [hreads, Path.apart_cons_iff]

end Schema

end ScopedStyle
