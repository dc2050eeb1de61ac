import Mathlib.Data.List.Forall2
import ScopedStyle.Condition.Evaluation
import ScopedStyle.Proofs.Settings.DottedPath

/-!
# The written form of conditions

A condition is read from three forms and written in two: a single clause as an
object, any other number of clauses as a list. The object that is written has all
keys of a clause, so it is never taken for an object of fields, and the path in it
is a dotted text. Hence a clause is read back exactly if this text stands for its
path, which is not the root, and if a list is there where one is asked for
(`Condition.clauseOf_toJson_iff`).

Every clause that is read satisfies this but for the root, which a text of dots
stands for (`Condition.clauses_of_ofJson`). So writing brings each of the three
forms into one that is read as the same clauses (`Condition.read_back`).
-/

namespace ScopedStyle

theorem Operator.ofName?_name (op : Operator) : ofName? op.name = some op := by
  cases op <;> rfl

/-- A clause that is not lost when it is written. -/
structure Clause.Writable (c : Clause) : Prop where
  /-- The clause is about a field and not about the root. -/
  ne_root : c.field ≠ .root
  /-- The dotted text stands for the path. -/
  plain : c.field.Plain
  /-- What asks for one of a list has a list. -/
  list : c.op = .oneOf → ∃ items, c.value = .arr items

/-- Only the root is written as the empty text. -/
theorem Path.Plain.toText_ne_empty {p : Path} (h : p.Plain) (hroot : p ≠ .root) :
    p.toText ≠ "" := by
  intro hempty
  have hread := ofText_toText h
  rw [hempty] at hread
  exact hroot (hread.symm.trans rfl)

/-- The steps of a list go well exactly if each does, and result in what each of them
    results in. -/
theorem mapM_eq_ok_iff_forall₂ {ε α β : Type} {f : α → Except ε β} {l : List α} {l' : List β} :
    l.mapM f = .ok l' ↔ List.Forall₂ (fun a b => f a = .ok b) l l' := by
  induction l generalizing l' with
  | nil =>
    rw [List.forall₂_nil_left_iff]
    exact ⟨fun h => by cases h; rfl, fun h => h ▸ rfl⟩
  | cons a l ih =>
    rw [List.mapM_cons, List.forall₂_cons_left_iff]
    cases hfirst : f a with
    | error e => simp [bind, Except.bind]
    | ok first =>
      cases hrest : l.mapM f with
      | error e => simp [← ih, hrest, bind, Except.bind]
      | ok rest => simp [← ih, hrest, bind, Except.bind, pure, Except.pure, eq_comm]

/-- A list is read back from what is written of it exactly if each of its elements
    is. -/
theorem mapM_map_eq_ok_iff {ε α β : Type} {write : β → α} {read : α → Except ε β} {l : List β} :
    (l.map write).mapM read = .ok l ↔ ∀ b ∈ l, read (write b) = .ok b := by
  rw [mapM_eq_ok_iff_forall₂, List.forall₂_map_left_iff, List.forall₂_same]

namespace Condition

variable {entries : Dict Json} {clause : Clause} {c : Condition} {j : Json}

/-- What a clause is read from. -/
theorem clauseOf_eq_ok_iff : clauseOf entries = .ok clause ↔
    (∀ key ∈ entries.keys, key ∈ clauseKeys) ∧
    ∃ text, entries.get? "field" = some (.str text) ∧ text ≠ "" ∧ clause.field = .ofText text ∧
      operatorOf entries = .ok clause.op ∧ clause.value = (entries.get? "value").getD .null ∧
      (clause.op = .oneOf → ∃ items, clause.value = .arr items) := by
  rw [clauseOf]
  cases hstray : entries.keys.find? (!clauseKeys.contains ·) with
  | some key =>
    have hkey : key ∉ clauseKeys := by simpa using List.find?_some hstray
    refine iff_of_false nofun fun ⟨hkeys, _⟩ => ?_
    exact hkey (hkeys key (List.mem_of_find?_eq_some hstray))
  | none =>
    have hkeys : ∀ key ∈ entries.keys, key ∈ clauseKeys := by simpa using hstray
    rw [and_iff_right hkeys]
    cases hfield : entries.get? "field" with
    | none => simp
    | some v =>
      cases v with
      | str text =>
        by_cases hempty : text = ""
        · simp [hempty]
        · cases hop : operatorOf entries with
          | error e => simp [hempty, bind, Except.bind]
          | ok op =>
            obtain ⟨field, op', value⟩ := clause
            have hlist (v : Json) : v.arr?.isNone = true ↔ ¬∃ items, v = .arr items := by
              cases v <;> simp [Json.arr?]
            simp only [String.isEmpty_iff, hempty, if_false, bind, Except.bind]
            split
            · rename_i hbad
              simp only [Bool.and_eq_true, decide_eq_true_eq, hlist] at hbad
              refine iff_of_false nofun ?_
              rintro ⟨_, _, _, _, hop', rfl, hneeds⟩
              cases hop'
              exact hbad.2 (hneeds hbad.1)
            · rename_i hgood
              simp only [Bool.and_eq_true, decide_eq_true_eq, hlist, not_and, Classical.not_not]
                at hgood
              constructor
              · rintro ⟨⟩
                exact ⟨text, rfl, hempty, rfl, rfl, rfl, hgood⟩
              · rintro ⟨_, ⟨⟩, _, hpath, ⟨⟩, hvalue, _⟩
                cases hpath
                cases hvalue
                rfl
      | _ => simp

/-- A clause is read back from what is written of it exactly if it is not lost
    there. -/
theorem clauseOf_toJson_iff :
    clauseOfItem (clauseToJson clause) = .ok clause ↔ clause.Writable := by
  rw [clauseToJson, clauseOfItem, clauseOf_eq_ok_iff]
  constructor
  · rintro ⟨-, text, hfield, hne, hpath, -, -, hlist⟩
    obtain rfl : clause.field.toText = text := by simpa [Dict.get?] using hfield
    refine ⟨fun hroot => hne ?_, ?_, hlist⟩
    · rw [hroot]
      rfl
    · rw [hpath]
      exact Path.plain_ofText _
  · intro h
    have hop : operatorOf [("field", .str clause.field.toText), ("op", .str clause.op.name),
        ("value", clause.value)] = .ok clause.op := by
      simp [operatorOf, Dict.get?, Operator.ofName?_name]
    exact ⟨fun key hkey => hkey, _, rfl, h.plain.toText_ne_empty h.ne_root,
      (Path.ofText_toText h.plain).symm, hop, rfl, h.list⟩

/-- A condition is read back from what is written of it exactly if it has clauses
    and none of them is lost there. -/
theorem ofJson_toJson_iff : ofJson c.toJson = .ok c ↔
    c.clauses ≠ [] ∧ ∀ clause ∈ c.clauses, clause.Writable := by
  obtain ⟨clauses⟩ := c
  simp only [← clauseOf_toJson_iff]
  match clauses with
  | [] => exact iff_of_false nofun fun h => h.1 rfl
  | [clause] =>
    -- A single clause is an object with the key that tells clauses from fields.
    change (clauseOfItem (clauseToJson clause)).map (fun clause => (⟨[clause]⟩ : Condition)) =
      .ok ⟨[clause]⟩ ↔ _
    cases hread : clauseOfItem (clauseToJson clause) <;> simp [Except.map, hread]
  | first :: second :: rest =>
    change (((first :: second :: rest).map clauseToJson).mapM clauseOfItem).map Condition.mk =
      .ok ⟨first :: second :: rest⟩ ↔ _
    rw [← mapM_map_eq_ok_iff, and_iff_right (List.cons_ne_nil _ _)]
    cases ((first :: second :: rest).map clauseToJson).mapM clauseOfItem <;> simp [Except.map]

/-- What a list of clauses may have in it when it is read. -/
theorem clause_of_item {item : Json} (h : clauseOfItem item = .ok clause) :
    clause.field.Plain ∧ (clause.op = .oneOf → ∃ items, clause.value = .arr items) := by
  cases item with
  | obj entries =>
    obtain ⟨-, text, -, -, hpath, -, -, hlist⟩ := clauseOf_eq_ok_iff.1 h
    exact ⟨hpath ▸ Path.plain_ofText text, hlist⟩
  | _ => cases h

/-- The clauses of a list are those of its elements. -/
theorem ofJson_list_iff {first : Json} {rest : List Json} :
    ofJson (.arr (first :: rest)) = .ok c ↔ (first :: rest).mapM clauseOfItem = .ok c.clauses := by
  obtain ⟨clauses⟩ := c
  change ((first :: rest).mapM clauseOfItem).map Condition.mk = _ ↔ _
  cases (first :: rest).mapM clauseOfItem <;> simp [Except.map]

/-- In whichever form a condition is read, it has clauses, and only those about the
    root are lost when it is written. -/
theorem clauses_of_ofJson (h : ofJson j = .ok c) : c.clauses ≠ [] ∧
    ∀ clause ∈ c.clauses,
      clause.field.Plain ∧ (clause.op = .oneOf → ∃ items, clause.value = .arr items) := by
  cases j with
  | obj entries =>
    rcases entries with _ | ⟨first, rest⟩
    · cases h
    change (if Dict.contains (first :: rest) "field" then
      (clauseOfItem (.obj (first :: rest))).map fun clause => (⟨[clause]⟩ : Condition)
      else .ok ⟨(first :: rest).map fun entry => ⟨.ofText entry.1, .eq, entry.2⟩⟩) = _ at h
    split at h
    · cases hclause : clauseOfItem (.obj (first :: rest)) with
      | error e => simp [hclause, Except.map] at h
      | ok clause =>
        rw [hclause] at h
        cases h
        exact ⟨List.cons_ne_nil _ _, List.forall_mem_singleton.2 (clause_of_item hclause)⟩
    · -- An object of fields asks for equality only.
      cases h
      refine ⟨List.cons_ne_nil _ _, fun clause hclause => ?_⟩
      obtain ⟨entry, -, rfl⟩ := List.mem_map.1 hclause
      exact ⟨Path.plain_ofText _, nofun⟩
  | arr items =>
    rcases items with _ | ⟨first, rest⟩
    · cases h
    have hread := mapM_eq_ok_iff_forall₂.1 (ofJson_list_iff.1 h)
    refine ⟨fun hnone => ?_, ?_⟩
    · rw [hnone] at hread
      exact absurd hread.length_eq (Nat.succ_ne_zero _)
    · have hitems := hread.flip.imp fun clause item hitem => And.intro (clause_of_item hitem) hitem
      exact ((List.forall₂_and_left _ _).1 hitems).1
  | _ => cases h

/-- A condition is read back from what is written of it exactly if it has clauses,
    each of them about a field with a plain path, and with a list where it asks for
    one of a list. So writing what was read, in whichever form, changes nothing
    unless a clause is about the root: the clauses that are read again are the same
    in the same order, and hold over every source and in every group as before. -/
theorem read_back :
    (∀ c : Condition, ofJson c.toJson = .ok c ↔
      c.clauses ≠ [] ∧ ∀ clause ∈ c.clauses, clause.Writable) ∧
    ∀ (j : Json) (c : Condition), ofJson j = .ok c → (∀ clause ∈ c.clauses, clause.field ≠ .root) →
      ∃ c', ofJson c.toJson = .ok c' ∧ c'.clauses = c.clauses ∧
        ∀ (source : Source) (group : Path), c'.holds source group = c.holds source group := by
  refine ⟨fun c => ofJson_toJson_iff, fun j c h hroot => ?_⟩
  obtain ⟨hne, hclauses⟩ := clauses_of_ofJson h
  refine ⟨c, ofJson_toJson_iff.2 ⟨hne, fun clause hclause => ?_⟩, rfl, fun _ _ => rfl⟩
  obtain ⟨hplain, hlist⟩ := hclauses clause hclause
  exact ⟨hroot clause hclause, hplain, hlist⟩

/-- An object of two fields is written as a list of two clauses and read back from
    it. -/
theorem two_fields_read_back :
    let c : Condition :=
      ⟨[⟨⟨["frame", "width"]⟩, .eq, .null⟩, ⟨⟨["layout"]⟩, .eq, .str "inline"⟩]⟩
    ofJson (.obj [(".frame..width.", .null), ("layout", .str "inline")]) = .ok c ∧
      (∀ clause ∈ c.clauses, clause.field ≠ .root) ∧
      ∃ c', ofJson c.toJson = .ok c' ∧ c'.clauses = c.clauses ∧
        ∀ (source : Source) (group : Path), c'.holds source group = c.holds source group := by
  intro c
  have hread : ofJson (.obj [(".frame..width.", .null), ("layout", .str "inline")]) = .ok c := by
    rfl
  have hroot : ∀ clause ∈ c.clauses, clause.field ≠ .root := by
    simp [c, Path.root]
  exact ⟨hread, hroot, read_back.2 _ c hread hroot⟩

end Condition

end ScopedStyle
