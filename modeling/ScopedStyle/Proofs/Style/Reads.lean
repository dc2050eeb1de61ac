import Mathlib.Data.List.Basic
import ScopedStyle.Markup.Attributes

/-!
# What the output reads of a tree

A tree reaches the output of a field on two ways only: by the value stored at
the path of the field, and by whether its condition holds, which depends on the
effective values of the fields that the schema knows. Two trees that agree in
this for every field have the same style sheet (`Schema.compile_congr`) and the
same attributes of the markup (`Schema.markupTexts_congr`).
-/

namespace ScopedStyle

/-! ### Conditions -/

/-- Two sources agree on whether a path names a field, and then on its value. -/
structure Source.AgreeAt (a b : Source) (p : Path) : Prop where
  hasField : a.hasField p = b.hasField p
  value? : a.hasField p = true → a.value? p = b.value? p

/-- Two sources know the same fields, and have the same values for them. -/
structure Source.Agree (a b : Source) : Prop where
  hasField : a.hasField = b.hasField
  value? : ∀ p, a.hasField p = true → a.value? p = b.value? p

theorem Source.Agree.agreeAt {a b : Source} (h : a.Agree b) (p : Path) : a.AgreeAt b p where
  hasField := congrFun h.hasField p
  value? := h.value? p

/-- A clause looks at its target only. -/
theorem Clause.holds_congr {a b : Source} {c : Clause} {group : Path}
    (h : a.AgreeAt b (c.target group)) : c.holds a group = c.holds b group := by
  rw [holds, holds, ← h.hasField]
  cases hfield : a.hasField (c.target group) with
  | false => rfl
  | true => rw [h.value? hfield]

/-- A condition looks at the targets of its clauses only. -/
theorem Condition.holds_congr {a b : Source} {c : Condition} {group : Path}
    (h : ∀ clause ∈ c.clauses, a.AgreeAt b (clause.target group)) :
    c.holds a group = c.holds b group := by
  rw [holds, holds, Bool.eq_iff_iff, List.all_eq_true, List.all_eq_true]
  refine forall₂_congr fun clause hclause => ?_
  rw [Clause.holds_congr (h clause hclause)]

/-! ### Contributions to the markup -/

/-- What a field with a stored value contributes to the markup, leaving out a
    toggle that is off and a text that is empty. -/
def Field.contribution? (f : Field) (stored : Option Json) : Option Resolved :=
  (f.resolveDesktop? stored).filter (Markup.contributes f)

/-- A test for a value can be made as soon as the value is there. -/
theorem bind_guard_eq_filter {α β : Type} (a? : Option α) (test : α → Bool) (next : α → Option β) :
    (do let a ← a?; guard (test a); next a) = (do let a ← a?.filter test; next a) := by
  cases a? with
  | none => rfl
  | some a =>
    rw [Option.filter_some, Option.bind_eq_bind, Option.bind_some, guard]
    split <;> rfl

/-- The text of a field in the markup is made of what the field contributes while
    its condition holds. -/
theorem Entry.markup?_eq_bind (e : Entry) (s : Schema) (t : Tree) (template : Template) :
    e.markup? s t template = do
      guard (e.active s t)
      let v ← e.field.contribution? (t.get? e.path)
      let text := Markup.escape (Text.trim (v.tokens.render template))
      guard !text.isEmpty
      return text :=
  congrArg (guard (e.active s t = true) >>= ·) (funext fun _ => bind_guard_eq_filter _ _ _)

/-- The text of a field in the markup depends only on whether its condition
    holds and on what the field contributes. -/
theorem Entry.markup?_congr {e : Entry} {s : Schema} {t t' : Tree}
    (hactive : e.active s t = e.active s t')
    (hcontribution : e.field.contribution? (t.get? e.path) = e.field.contribution? (t'.get? e.path))
    (template : Template) : e.markup? s t template = e.markup? s t' template := by
  rw [markup?_eq_bind, markup?_eq_bind, hactive, hcontribution]

/-! ### Fields and schemas -/

namespace Entry

variable {e : Entry} {s : Schema} {t t' : Tree}

/-- The condition of a field is about a path. -/
def GatedBy (e : Entry) (p : Path) : Prop :=
  ∃ c, e.field.condition = some c ∧ ∃ clause ∈ c.clauses, clause.target e.group = p

/-- A condition depends on the effective values of the fields that it is about. -/
theorem active_congr_gatedBy (h : ∀ p, e.GatedBy p → (s.field? p).isSome = true →
    s.effective? t p = s.effective? t' p) : e.active s t = e.active s t' := by
  rw [active, active]
  cases hc : e.field.condition with
  | none => rfl
  | some c =>
    refine c.holds_congr fun clause hclause => ⟨rfl, fun hfield => ?_⟩
    exact h _ ⟨c, hc, clause, hclause, rfl⟩ hfield

end Entry

namespace Schema

variable {s : Schema} {t t' : Tree}

/-- Every field of a schema has the same effective value in two trees. -/
def SameEffective (s : Schema) (t t' : Tree) : Prop :=
  ∀ p f, s.field? p = some f → s.effective? t p = s.effective? t' p

theorem SameEffective.agree (h : s.SameEffective t t') : (s.source t).Agree (s.source t') where
  hasField := rfl
  value? p hp := by
    obtain ⟨f, hf⟩ := Option.isSome_iff_exists.1 hp
    exact h p f hf

theorem SameEffective.active (h : s.SameEffective t t') (e : Entry) :
    e.active s t = e.active s t' := by
  refine Entry.active_congr_gatedBy fun p _ hfield => ?_
  exact h.agree.value? p hfield

/-- A style sheet depends only on the effective values of fields, for
    conditions, and on the blocks of every field by itself. -/
theorem compile_congr (h : s.SameEffective t t') {c : Config}
    (hblocks : ∀ e ∈ s.entries, ∀ wrapper, e.field.blocks (t.get? e.path) c.breakpoints wrapper =
      e.field.blocks (t'.get? e.path) c.breakpoints wrapper)
    (id : String) (sectionId : Option String) :
    s.compile t c id sectionId = s.compile t' c id sectionId := by
  refine List.flatMap_congr fun e he => ?_
  rw [Entry.blocks, Entry.blocks, h.active e, hblocks e he]

/-- The attributes of the markup depend only on the effective values of fields,
    for conditions, and on the contribution of every field by itself. -/
theorem markupTexts_congr (h : s.SameEffective t t')
    (hcontribution : ∀ e ∈ s.entries,
      e.field.contribution? (t.get? e.path) = e.field.contribution? (t'.get? e.path))
    (templateOf : Field → Option Template) :
    s.markupTexts t templateOf = s.markupTexts t' templateOf := by
  rw [markupTexts, markupTexts]
  cases s.category with
  | style => rfl
  | general =>
    refine List.filterMap_congr fun e he => ?_
    congr 1
    funext template
    exact Entry.markup?_congr (h.active e) (hcontribution e he) template

end Schema

end ScopedStyle
