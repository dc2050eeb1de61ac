import Mathlib.Data.List.Pairwise
import ScopedStyle.Style.Config
import ScopedStyle.Style.Sheet

/-!
# Viewports

Every breakpoint stands for the viewport widths up to some maximum, the desktop
for all of them. A configuration that is read from a document has its maxima in
order, so that each breakpoint contains the widths of the next one and more
(`Widths.pairwise_narrower`).

A viewport applies the blocks that belong to its width. When the blocks of ever
narrower breakpoints follow each other, the last block that applies is one of
the narrowest breakpoint that contains the width and has rules at all
(`Widths.getLast?_filter_appliesAt_iff`).
-/

namespace ScopedStyle

/-! ### Breakpoints and widths -/

theorem Breakpoint.mem_all (b : Breakpoint) : b ∈ all := by
  cases b <;> simp [all]

/-- The widths of a configuration that is read from a document are in order. -/
theorem Config.ordered_of_ofText {text : String} {c : Config} (h : ofText text = .ok c) :
    0 < c.breakpoints.mobile ∧ c.breakpoints.mobile < c.breakpoints.tablet := by
  rw [ofText] at h
  split at h
  · rename_i read _
    rw [check] at h
    split at h
    · cases h
    rename_i hzero
    split at h
    · cases h
    rename_i horder
    cases h
    simp only [Bool.or_eq_true, decide_eq_true_eq, not_or] at hzero
    omega
  · cases h

namespace Widths

/-- Whether a viewport width belongs to a breakpoint. -/
def contains (w : Widths) (b : Breakpoint) (width : Nat) : Bool :=
  (w.maxWidth? b).all (width ≤ ·)

/-- Every width of one breakpoint is one of the other. -/
def Within (w : Widths) (b b' : Breakpoint) : Prop :=
  ∀ width, w.contains b width = true → w.contains b' width = true

/-- A breakpoint has only widths of the other, but not all of them. -/
def Narrower (w : Widths) (b b' : Breakpoint) : Prop :=
  w.Within b b' ∧ ¬w.Within b' b

/-- The narrowest breakpoint with a property that contains a width. -/
structure IsNarrowest (w : Widths) (p : Breakpoint → Prop) (width : Nat) (b : Breakpoint) :
    Prop where
  contains : w.contains b width = true
  holds : p b
  within : ∀ b', w.contains b' width = true → p b' → w.Within b b'

variable {w : Widths}

@[simp] theorem contains_tablet (width : Nat) :
    w.contains .tablet width = decide (width ≤ w.tablet) := rfl

@[simp] theorem contains_mobile (width : Nat) :
    w.contains .mobile width = decide (width ≤ w.mobile) := rfl

theorem Within.refl (b : Breakpoint) : w.Within b b := fun _ h => h

/-- The desktop has every width, and no other breakpoint has. -/
theorem narrower_desktop {b : Breakpoint} (hb : b ≠ .desktop) : w.Narrower b .desktop := by
  refine ⟨fun _ _ => rfl, fun h => ?_⟩
  cases b with
  | desktop => exact hb rfl
  | tablet =>
    have hwidth := h (w.tablet + 1) rfl
    simp only [contains_tablet, decide_eq_true_eq] at hwidth
    omega
  | mobile =>
    have hwidth := h (w.mobile + 1) rfl
    simp only [contains_mobile, decide_eq_true_eq] at hwidth
    omega

theorem narrower_tablet (h : w.mobile < w.tablet) : w.Narrower .mobile .tablet := by
  refine ⟨fun width hwidth => ?_, fun hwithin => ?_⟩
  · simp only [contains_mobile, contains_tablet, decide_eq_true_eq] at hwidth ⊢
    omega
  · have := hwithin w.tablet (by simp)
    simp only [contains_mobile, decide_eq_true_eq] at this
    omega

/-- With the widths in order, the breakpoints get narrower one by one. -/
theorem pairwise_narrower (h : w.mobile < w.tablet) :
    Breakpoint.all.Pairwise fun b b' => w.Narrower b' b := by
  simp [Breakpoint.all, narrower_desktop, narrower_tablet h]

end Widths

/-! ### The last block that applies -/

namespace Block

/-- Whether a block is a remark. -/
def isComment : Block → Bool
  | .comment _ => true
  | .rule _ | .media _ _ => false

/-- Whether the rules of a block apply at a viewport width. -/
def appliesAt (width : Nat) : Block → Bool
  | .rule _ => true
  | .media maxWidth _ => width ≤ maxWidth
  | .comment _ => false

/-- A media block for rules, if there are any. -/
def mediaOf (maxWidth : Nat) (rules : List StyleRule) : List Block :=
  if rules.isEmpty then [] else [.media maxWidth rules]

end Block

/-- The blocks that rules make at a breakpoint. -/
def Widths.blocksOf (w : Widths) (b : Breakpoint) (rules : List StyleRule) : List Block :=
  match w.maxWidth? b with
  | none => rules.map .rule
  | some maxWidth => Block.mediaOf maxWidth rules

namespace Widths

variable {w : Widths} {rules : Breakpoint → List StyleRule}

@[simp] theorem blocksOf_eq_nil_iff {b : Breakpoint} {rs : List StyleRule} :
    w.blocksOf b rs = [] ↔ rs = [] := by
  rw [blocksOf]
  cases w.maxWidth? b <;> simp [Block.mediaOf]

/-- A block of a breakpoint is one of its rules, or has them all. -/
theorem mem_blocksOf_cases {b : Breakpoint} {rs : List StyleRule} {block : Block}
    (h : block ∈ w.blocksOf b rs) :
    (∃ r ∈ rs, block = .rule r) ∨ ∃ maxWidth, block = .media maxWidth rs := by
  rw [blocksOf] at h
  split at h
  · obtain ⟨r, hr, rfl⟩ := List.mem_map.1 h
    exact .inl ⟨r, hr, rfl⟩
  · rw [Block.mediaOf] at h
    split at h
    · exact absurd h List.not_mem_nil
    · exact .inr ⟨_, List.mem_singleton.1 h⟩

/-- The blocks of a breakpoint apply where it contains the width. -/
theorem filter_appliesAt_blocksOf (width : Nat) (b : Breakpoint) (rs : List StyleRule) :
    (w.blocksOf b rs).filter (·.appliesAt width) =
      if w.contains b width then w.blocksOf b rs else [] := by
  rw [blocksOf, contains]
  cases w.maxWidth? b with
  | none => simp [Block.appliesAt]
  | some maxWidth =>
    by_cases h : rs.isEmpty <;> simp [h, Block.mediaOf, Block.appliesAt, List.filter_cons]

/-- No block applies at a width when no breakpoint with rules contains it. -/
theorem filter_appliesAt_eq_nil_iff {bs : List Breakpoint} {width : Nat} :
    (bs.flatMap fun b => w.blocksOf b (rules b)).filter (·.appliesAt width) = [] ↔
      ∀ b ∈ bs, w.contains b width = true → rules b = [] := by
  rw [List.filter_flatMap, List.flatMap_eq_nil_iff]
  refine forall₂_congr fun b _ => ?_
  rw [filter_appliesAt_blocksOf]
  cases w.contains b width <;> simp

/-- In a row of ever narrower breakpoints, the last block that applies at a width
    is the last one of the narrowest breakpoint that contains the width and has
    rules. -/
theorem getLast?_filter_appliesAt_iff {bs : List Breakpoint}
    (hbs : bs.Pairwise fun b b' => w.Narrower b' b) {width : Nat} {block : Block} :
    ((bs.flatMap fun b => w.blocksOf b (rules b)).filter (·.appliesAt width)).getLast? =
        some block ↔
      ∃ b, w.IsNarrowest (fun b => b ∈ bs ∧ rules b ≠ []) width b ∧
        (w.blocksOf b (rules b)).getLast? = some block := by
  -- Whatever applies of the narrower breakpoints stands behind the first one.
  induction bs with
  | nil =>
    constructor
    · intro h
      cases h
    · rintro ⟨b, hb, _⟩
      exact absurd hb.holds.1 List.not_mem_nil
  | cons first bs ih =>
    obtain ⟨hfirst, hbs⟩ := List.pairwise_cons.1 hbs
    rw [List.flatMap_cons, List.filter_append, List.getLast?_append, Option.or_eq_some_iff, ih hbs,
      List.getLast?_eq_none_iff, filter_appliesAt_eq_nil_iff, filter_appliesAt_blocksOf]
    constructor
    · rintro (⟨b, hb, hlast⟩ | ⟨hnone, hlast⟩)
      · refine ⟨b, ⟨hb.contains, ⟨List.mem_cons_of_mem _ hb.holds.1, hb.holds.2⟩, ?_⟩, hlast⟩
        rintro b' hb' ⟨hmem, hrules⟩
        rcases List.mem_cons.1 hmem with rfl | hmem
        · exact (hfirst b hb.holds.1).1
        · exact hb.within b' hb' ⟨hmem, hrules⟩
      · split at hlast
        · rename_i hcontains
          have hrules : rules first ≠ [] := fun h => by
            rw [blocksOf_eq_nil_iff.2 h] at hlast
            cases hlast
          refine ⟨first, ⟨hcontains, ⟨List.mem_cons_self, hrules⟩, ?_⟩, hlast⟩
          rintro b' hb' ⟨hmem, hrules'⟩
          rcases List.mem_cons.1 hmem with rfl | hmem
          · exact .refl _
          · exact absurd (hnone b' hmem hb') hrules'
        · cases hlast
    · rintro ⟨b, hb, hlast⟩
      rcases List.mem_cons.1 hb.holds.1 with rfl | hmem
      · -- A narrower breakpoint with rules would contradict that this is the narrowest one.
        refine .inr ⟨fun b' hmem hb' => ?_, by rwa [if_pos hb.contains]⟩
        by_contra hrules
        exact (hfirst b' hmem).2 (hb.within b' hb' ⟨List.mem_cons_of_mem _ hmem, hrules⟩)
      · refine .inl ⟨b, ⟨hb.contains, ⟨hmem, hb.holds.2⟩, ?_⟩, hlast⟩
        exact fun b' hb' hrules => hb.within b' hb' ⟨List.mem_cons_of_mem _ hrules.1, hrules.2⟩

end Widths

end ScopedStyle
