import ScopedStyle.Settings.Tree

/-!
# Storing one setting

A value that is stored at a path is found there again (`Tree.get?_put_self`),
and what stands at any path *apart* from it stays as it was
(`Tree.get?_put_of_apart`). Two paths are apart when neither leads through the
place of the other. This is enough even where the write goes through a text or
a list and replaces it by an object: whatever was found below such a value was
found nowhere.
-/

namespace ScopedStyle

namespace Path

/-- Neither of two paths leads through or to the place of the other. -/
def Apart (p q : Path) : Prop :=
  ¬p.IsPrefixOf q ∧ ¬q.IsPrefixOf p

theorem Apart.symm {p q : Path} (h : Apart p q) : Apart q p :=
  ⟨h.2, h.1⟩

theorem Apart.ne {p q : Path} (h : Apart p q) : p ≠ q := by
  rintro rfl
  exact h.1 List.prefix_rfl

theorem not_apart_nil {p : Path} : ¬Apart ⟨[]⟩ p :=
  fun h => h.1 List.nil_prefix

/-- Paths are apart as soon as they part, and only then. -/
theorem apart_cons_iff {k l : String} {ks ls : List String} :
    Apart ⟨k :: ks⟩ ⟨l :: ls⟩ ↔ k ≠ l ∨ Apart ⟨ks⟩ ⟨ls⟩ := by
  simp only [Apart, IsPrefixOf, List.cons_prefix_cons, ne_eq]
  by_cases h : k = l
  · subst h; simp
  · simp [h, Ne.symm h]

end Path

namespace Json

theorem field?_obj (entries : Dict Json) (key : String) :
    (obj entries).field? key = entries.get? key := rfl

theorem descend?_null {keys : List String} (h : keys ≠ []) : null.descend? keys = none := by
  cases keys with
  | nil => exact absurd rfl h
  | cons key keys => rfl

/-- What stands behind a missing key is what stands in `null`, unless it is the
    key itself that is asked for. -/
theorem descend?_getD_null (found : Option Json) {keys : List String} (h : keys ≠ []) :
    (found.getD .null).descend? keys = found.bind (descend? · keys) := by
  cases found with
  | none => exact descend?_null h
  | some j => rfl

theorem descend?_write_self (j : Json) (keys : List String) (new : Json) :
    (j.write keys new).descend? keys = some new := by
  induction keys generalizing j with
  | nil => rfl
  | cons key keys ih =>
    rw [write, descend?, field?_obj, Dict.get?_put_self, Option.bind_some, ih]

theorem descend?_write_of_apart (j : Json) {keys others : List String}
    (h : Path.Apart ⟨keys⟩ ⟨others⟩) (new : Json) :
    (j.write keys new).descend? others = j.descend? others := by
  induction keys generalizing j others with
  | nil => exact absurd h Path.not_apart_nil
  | cons key keys ih =>
    cases others with
    | nil => exact absurd h.symm Path.not_apart_nil
    | cons other others =>
      rw [write, descend?, descend?, field?_obj]
      by_cases hk : other = key
      · -- The paths go on together, and part further down.
        subst hk
        have hrest : Path.Apart ⟨keys⟩ ⟨others⟩ :=
          (Path.apart_cons_iff.1 h).resolve_left fun hne => hne rfl
        have hne : others ≠ [] := by
          rintro rfl
          exact Path.not_apart_nil hrest.symm
        rw [Dict.get?_put_self, Option.bind_some, ih _ hrest, descend?_getD_null _ hne]
      · rw [Dict.get?_put_of_ne _ hk]
        rfl

end Json

namespace Tree

/-- A stored value is found at its path, `null` as no value. -/
theorem get?_put_self (t : Tree) (p : Path) (value : Json) :
    (t.put p value).get? p = value.nonNull? := by
  rw [get?, put, Json.descend?_write_self, Option.bind_some]

/-- A stored value changes nothing at the paths apart from its own. -/
theorem get?_put_of_apart (t : Tree) {p q : Path} (h : p.Apart q) (value : Json) :
    (t.put p value).get? q = t.get? q := by
  rw [get?, put, Json.descend?_write_of_apart _ h, get?]

end Tree

end ScopedStyle
