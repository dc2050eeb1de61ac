import Mathlib.Data.List.Pairwise
import ScopedStyle.Proofs.Field.Accepted

/-!
# The order of attributes

The attributes of a field can be given in any order that keeps the rules in theirs, as
long as none of them replaces another (`Field.DeclaredOnce`): each sets a part of its
own, so it does not matter which of two comes first (`Field.Declared.add_comm`), and the
rules can wait until everything else is said (`Field.Declared.foldl_add_eq`). So the
same is declared, and what is checked on the whole has the same outcome.

The order shows in one place. An attribute is checked where it is given, and of several
with a problem the first one is reported, so another order may report another one
(`Field.ofAttributes_eq_or`). Whether there is a problem, and whether it comes before or
behind what else is wrong with the field, stays the same (`Field.ofAttributes_reorder`).
-/

namespace ScopedStyle.Field

/-- The part of a field that an attribute declares. -/
def Attribute.part : Attribute → String
  | .key _ => "key"
  | .label _ => "label"
  | .description _ => "description"
  | .default _ => "default"
  | .unit _ => "unit"
  | .min _ => "min"
  | .max _ => "max"
  | .step _ => "step"
  | .options _ => "options"
  | .responsive _ => "responsive"
  | .condition _ => "condition"
  | .rule _ | .rules _ => "rules"
  | .axis _ => "axis"
  | .classTemplate _ => "class"
  | .styleTemplate _ => "style"

/-- Whether an attribute is one more rule. -/
def Attribute.isRule : Attribute → Bool
  | .rule _ => true
  | _ => false

/-- No part is declared twice, but for rules that are given one by one. -/
def DeclaredOnce (attributes : List Attribute) : Prop :=
  attributes.Pairwise fun a b => a.part = b.part → a.isRule = true ∧ b.isRule = true

variable {xs ys : List Attribute} {a b : Attribute}

/-! ### What is declared -/

namespace Declared

/-- Attributes for different parts can be given in both orders. -/
theorem add_comm (h : a.part ≠ b.part) (d : Declared) : (d.add a).add b = (d.add b).add a := by
  -- Each sets one component; with two equal parts there is nothing to show.
  cases a <;> cases b <;> first | rfl | exact absurd rfl h

/-- An attribute can wait for others that are for other parts. -/
theorem foldl_add_comm (h : ∀ b ∈ xs, a.part ≠ b.part) (d : Declared) :
    xs.foldl add (d.add a) = (xs.foldl add d).add a := by
  induction xs generalizing d with
  | nil => rfl
  | cons b xs ih =>
    obtain ⟨hfirst, hrest⟩ := List.forall_mem_cons.1 h
    rw [List.foldl_cons, List.foldl_cons, add_comm hfirst, ih hrest]

/-- The rules can wait for everything else. -/
theorem foldl_add_eq (h : DeclaredOnce xs) (d : Declared) :
    xs.foldl add d =
      (xs.filter Attribute.isRule).foldl add ((xs.filter (!·.isRule)).foldl add d) := by
  induction xs generalizing d with
  | nil => rfl
  | cons a xs ih =>
    obtain ⟨hfirst, hrest⟩ := List.pairwise_cons.1 h
    rw [List.foldl_cons, ih hrest]
    cases hrule : a.isRule with
    | false => simp [hrule]
    | true =>
      -- Nothing behind the rule is for its part but other rules.
      have hothers : ∀ b ∈ xs.filter (!·.isRule), a.part ≠ b.part := by
        intro b hb hpart
        obtain ⟨hmem, hb⟩ := List.mem_filter.1 hb
        simp [(hfirst b hmem hpart).2] at hb
      rw [List.filter_cons_of_pos hrule, List.filter_cons_of_neg (by simp [hrule]), List.foldl_cons,
        foldl_add_comm hothers]

/-- Where nothing is a single rule, the order does not matter at all. -/
theorem foldl_add_perm (hperm : xs.Perm ys) (honce : DeclaredOnce xs)
    (hrule : ∀ a ∈ xs, a.isRule = false) (d : Declared) : xs.foldl add d = ys.foldl add d := by
  have hcomm : xs.Pairwise fun a b => ∀ d : Declared, (d.add a).add b = (d.add b).add a := by
    refine honce.imp_of_mem fun ha _ hpart => add_comm fun heq => ?_
    simpa [hrule _ ha] using (hpart heq).1
  refine hperm.foldl_eq' (fun a ha b hb => ?_) d
  exact hcomm.forall_of_forall_of_flip (fun _ _ _ => rfl) (hcomm.imp fun h d => (h d).symm) ha hb

/-- Attributes that keep the rules in their order declare the same in every order. -/
theorem ofAttributes_perm (hperm : xs.Perm ys) (honce : DeclaredOnce xs)
    (hrules : xs.filter Attribute.isRule = ys.filter Attribute.isRule) :
    ofAttributes xs = ofAttributes ys := by
  have hys : DeclaredOnce ys :=
    (hperm.pairwise_iff fun {a b} h (heq : b.part = a.part) => (h heq.symm).symm).1 honce
  have hothers : ∀ a ∈ xs.filter (!·.isRule), a.isRule = false := fun a ha => by
    simpa using (List.mem_filter.1 ha).2
  rw [ofAttributes, ofAttributes, foldl_add_eq honce, foldl_add_eq hys, hrules,
    foldl_add_perm (hperm.filter _) (honce.filter _) hothers]

end Declared

/-! ### What is made -/

/-- Two lists of the same attributes that declare the same make the same field or fail in
    the same way, unless each reports the first problem of an attribute in its order. -/
theorem ofKind_eq_or (hperm : xs.Perm ys)
    (hdeclared : Declared.ofAttributes xs = Declared.ofAttributes ys) (k : Kind) :
    ofKind k xs = ofKind k ys ∨
      ∃ key p p', xs.findSome? (Attribute.problem? k) = some p ∧
        ys.findSome? (Attribute.problem? k) = some p' ∧
        ofKind k xs = .error (.invalid key p) ∧ ofKind k ys = .error (.invalid key p') := by
  have hnone : xs.findSome? (Attribute.problem? k) = none ↔
      ys.findSome? (Attribute.problem? k) = none := by
    simp only [List.findSome?_eq_none_iff, hperm.mem_iff]
  cases hx : xs.findSome? (Attribute.problem? k) with
  | none => exact .inl (by simp only [ofKind, hdeclared, hx, hnone.1 hx])
  | some p =>
    obtain ⟨p', hy⟩ : ∃ p', ys.findSome? (Attribute.problem? k) = some p' :=
      Option.ne_none_iff_exists'.1 fun hy => by simp [hnone.2 hy] at hx
    simp only [ofKind, hdeclared, hx, hy]
    -- A missing or malformed key and a missing label come before every problem.
    cases nonEmpty? (Declared.ofAttributes ys).key with
    | none => exact .inl rfl
    | some key =>
      cases hkey : Path.isKey key with
      | false => exact .inl (by simp [hkey])
      | true =>
        cases nonEmpty? (Declared.ofAttributes ys).label with
        | none => exact .inl (by simp)
        | some label => exact .inr ⟨key, p, p', rfl, rfl, by simp [hkey], by simp [hkey]⟩

theorem ofAttributes_eq_or (hperm : xs.Perm ys)
    (hdeclared : Declared.ofAttributes xs = Declared.ofAttributes ys) (kindName : String) :
    ofAttributes kindName xs = ofAttributes kindName ys ∨
      ∃ k key p p', Kind.ofName? kindName = some k ∧
        xs.findSome? (Attribute.problem? k) = some p ∧
        ys.findSome? (Attribute.problem? k) = some p' ∧
        ofAttributes kindName xs = .error (.invalid key p) ∧
        ofAttributes kindName ys = .error (.invalid key p') := by
  cases hk : Kind.ofName? kindName with
  | none => exact .inl (by simp only [ofAttributes, hk, hdeclared])
  | some k =>
    simp only [ofAttributes, hk]
    rcases ofKind_eq_or hperm hdeclared k with heq | ⟨key, p, p', h⟩
    · exact .inl heq
    · exact .inr ⟨k, key, p, p', rfl, h⟩

/-- Attributes of which none replaces another can be given in any order that keeps the
    rules in theirs. The same field is made, and if none is, the error is the same but
    where an attribute has a problem: then each order reports the first of these in it. -/
theorem ofAttributes_reorder (hperm : xs.Perm ys) (honce : DeclaredOnce xs)
    (hrules : xs.filter Attribute.isRule = ys.filter Attribute.isRule) (kindName : String) :
    (∀ f, ofAttributes kindName xs = .ok f ↔ ofAttributes kindName ys = .ok f) ∧
    ∀ e e', ofAttributes kindName xs = .error e → ofAttributes kindName ys = .error e' →
      e = e' ∨ ∃ k key p p', Kind.ofName? kindName = some k ∧
        xs.findSome? (Attribute.problem? k) = some p ∧
        ys.findSome? (Attribute.problem? k) = some p' ∧
        e = .invalid key p ∧ e' = .invalid key p' := by
  rcases ofAttributes_eq_or hperm (Declared.ofAttributes_perm hperm honce hrules) kindName with
    heq | ⟨k, key, p, p', hk, hp, hp', hx, hy⟩
  · rw [heq]
    exact ⟨fun _ => .rfl, fun e e' he he' => .inl (Except.error.inj (he.symm.trans he'))⟩
  · rw [hx, hy]
    refine ⟨fun _ => ⟨nofun, nofun⟩, fun e e' he he' => .inr ⟨k, key, p, p', hk, hp, hp', ?_, ?_⟩⟩
    · exact (Except.error.inj he).symm
    · exact (Except.error.inj he').symm

/-- A least gap and two rules for it. -/
def rowAttributes : List Attribute :=
  [.min .zero, .rule (.declared ⟨"\x7b\x7bWRAPPER\x7d\x7d"⟩ ⟨"gap: \x7b\x7bVALUE\x7d\x7d;"⟩),
    .key "gap", .label "Gap",
    .rule (.declared ⟨"\x7b\x7bWRAPPER\x7d\x7d .row"⟩ ⟨"margin: \x7b\x7bVALUE\x7d\x7d;"⟩)]

/-- The unit can be given first or last. Where it is a problem and the least number is one,
    too, the one that is given first is reported. -/
theorem row_reordered :
    (.unit "px" :: rowAttributes).Perm (rowAttributes ++ [.unit "px"]) ∧
    DeclaredOnce (.unit "px" :: rowAttributes) ∧
    (∃ f, ofAttributes "number" (.unit "px" :: rowAttributes) = .ok f ∧ f.rules.length = 2 ∧
      ofAttributes "number" (rowAttributes ++ [.unit "px"]) = .ok f) ∧
    ofAttributes "color" (.unit "px" :: rowAttributes) = .error (.invalid "gap" (.noUnit .color)) ∧
    ofAttributes "color" (rowAttributes ++ [.unit "px"]) =
      .error (.invalid "gap" (.noBound .color "min")) := by
  have hperm : (.unit "px" :: rowAttributes).Perm (rowAttributes ++ [.unit "px"]) :=
    (List.perm_append_singleton _ _).symm
  have honce : DeclaredOnce (.unit "px" :: rowAttributes) := by
    simp [DeclaredOnce, rowAttributes, Attribute.part, Attribute.isRule]
  obtain ⟨f, hmade, hlength⟩ := exists_of_any "number" (.unit "px" :: rowAttributes)
    (fun f => f.rules.length = 2) (by decide +kernel)
  exact ⟨hperm, honce, ⟨f, hmade, by simpa using hlength,
    ((ofAttributes_reorder hperm honce rfl "number").1 f).1 hmade⟩, rfl, rfl⟩

end ScopedStyle.Field
