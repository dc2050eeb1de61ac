import ScopedStyle.Settings.Tree

/-!
# Key order in trees

Whatever is read from a document has the entries of all its objects in key
order, because a dictionary is built from the entries as they are written. So a
document makes a tree that carries its order (`OrderedTree.ofText?`). Writing a
value that is in order keeps the order (`Json.ordered_write`).
-/

namespace ScopedStyle

/-- What a list of results holds is the result of an element. -/
theorem exists_of_mem_mapM {α β : Type} {f : α → Option β} {l : List α} {results : List β}
    (h : l.mapM f = some results) {b : β} (hb : b ∈ results) : ∃ a ∈ l, f a = some b := by
  induction l generalizing results with
  | nil =>
    cases h
    cases hb
  | cons a l ih =>
    rw [List.mapM_cons, Option.bind_eq_bind, Option.bind_eq_some_iff] at h
    obtain ⟨first, hfirst, h⟩ := h
    obtain ⟨rest, hrest, h⟩ := Option.bind_eq_some_iff.1 h
    cases h
    rcases List.mem_cons.1 hb with rfl | hb
    · exact ⟨a, List.mem_cons_self, hfirst⟩
    · obtain ⟨a', ha', hresult⟩ := ih hrest hb
      exact ⟨a', List.mem_cons_of_mem _ ha', hresult⟩

namespace Json

/-! ### Values in order -/

theorem itemsOrdered_iff {items : List Json} :
    ItemsOrdered items ↔ ∀ j ∈ items, j.Ordered := by
  induction items with
  | nil => simp [ItemsOrdered]
  | cons j js ih => simp [ItemsOrdered, ih]

theorem entriesOrdered_iff {es : Dict Json} :
    EntriesOrdered es ↔ ∀ e ∈ es, e.2.Ordered := by
  induction es with
  | nil => simp [EntriesOrdered]
  | cons e es ih =>
    obtain ⟨k, j⟩ := e
    simp [EntriesOrdered, ih]

/-- An object is in order when its keys and all its values are. -/
theorem ordered_obj_iff {es : Dict Json} :
    (obj es).Ordered ↔ Dict.Ordered es ∧ ∀ e ∈ es, e.2.Ordered := by
  rw [Ordered, entriesOrdered_iff]

theorem ordered_entries {j : Json} (h : j.Ordered) :
    Dict.Ordered j.entries ∧ ∀ e ∈ j.entries, e.2.Ordered := by
  cases j with
  | obj es => exact ordered_obj_iff.1 h
  | _ => exact ⟨List.Pairwise.nil, fun _ he => absurd he List.not_mem_nil⟩

theorem ordered_of_field? {j child : Json} (h : j.Ordered) {key : String}
    (hfield : j.field? key = some child) : child.Ordered :=
  (ordered_entries h).2 _ (Dict.mem_of_get?_eq_some hfield)

/-- An object stays in order with a new value that is. -/
theorem ordered_obj_put {es : Dict Json} (h : Dict.Ordered es) (hes : ∀ e ∈ es, e.2.Ordered)
    {j : Json} (hj : j.Ordered) (key : String) : (obj (es.put key j)).Ordered := by
  refine ordered_obj_iff.2 ⟨Dict.ordered_put h key j, fun e he => ?_⟩
  rcases Dict.eq_or_mem_of_mem_put he with rfl | he
  · exact hj
  · exact hes e he

/-- An object stays in order without one of its entries. -/
theorem ordered_obj_erase {es : Dict Json} (h : Dict.Ordered es) (hes : ∀ e ∈ es, e.2.Ordered)
    (key : String) : (obj (es.erase key)).Ordered :=
  ordered_obj_iff.2 ⟨Dict.ordered_erase h key,
    fun e he => hes e ((Dict.erase_sublist es key).mem he)⟩

/-! ### Documents -/

/-- The value of a document is in order. -/
theorem ordered_toJson? : ∀ {depth : Nat} {raw : Raw} {j : Json},
    raw.toJson? depth = some j → j.Ordered
  | _, .null, _, h | _, .bool _, _, h => by
    rw [Raw.toJson?] at h
    cases h
    trivial
  | _, .num _, _, h | _, .str _, _, h => by
    rw [Raw.toJson?] at h
    obtain ⟨_, _, rfl⟩ := Option.map_eq_some_iff.1 h
    trivial
  | depth + 1, .arr items, _, h => by
    obtain ⟨js, hjs, rfl⟩ := Option.map_eq_some_iff.1 h
    refine itemsOrdered_iff.2 fun j hj => ?_
    obtain ⟨raw, _, hraw⟩ := exists_of_mem_mapM hjs hj
    exact ordered_toJson? hraw
  | depth + 1, .obj entries, _, h => by
    obtain ⟨es, hes, rfl⟩ := Option.map_eq_some_iff.1 h
    refine ordered_obj_iff.2 ⟨Dict.ordered_ofEntries es, fun e he => ?_⟩
    obtain ⟨member, _, hmember⟩ := exists_of_mem_mapM hes (Dict.mem_of_mem_ofEntries he)
    obtain ⟨key, _, hmember⟩ := Option.bind_eq_some_iff.1 hmember
    obtain ⟨j, hj, hmember⟩ := Option.bind_eq_some_iff.1 hmember
    cases hmember
    exact ordered_toJson? hj

/-! ### Edits -/

/-- A value with another one stored in it is in order if both are. -/
theorem ordered_write {j new : Json} (h : j.Ordered) (hnew : new.Ordered) (keys : List String) :
    (j.write keys new).Ordered := by
  induction keys generalizing j with
  | nil => exact hnew
  | cons key keys ih =>
    obtain ⟨hentries, hvalues⟩ := ordered_entries h
    refine ordered_obj_put hentries hvalues (ih ?_) key
    cases hfield : j.field? key with
    | none => trivial
    | some child => exact ordered_of_field? h hfield

end Json

/-- The tree of a document is in order. -/
theorem Tree.ordered_ofText? {text : String} {t : Tree} (h : ofText? text = some t) :
    t.root.Ordered := by
  obtain ⟨j, hj, rfl⟩ := Option.map_eq_some_iff.1 h
  obtain ⟨raw, _, hraw⟩ := Option.bind_eq_some_iff.1 hj
  exact Json.ordered_toJson? hraw

/-- A tree whose objects are all in key order. -/
structure OrderedTree extends Tree where
  /-- The keys of every object ascend. -/
  ordered : root.Ordered

instance : Coe OrderedTree Tree := ⟨OrderedTree.toTree⟩

/-- The tree of a document's text, with its order. -/
def OrderedTree.ofText? (text : String) : Option OrderedTree :=
  (Tree.ofText? text).pmap OrderedTree.mk fun _ => Tree.ordered_ofText?

end ScopedStyle
