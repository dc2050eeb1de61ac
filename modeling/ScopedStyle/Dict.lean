/-!
# Dictionaries in key order

Objects of a settings document, token sets and the widget catalog list their
entries by ascending key, so that equal contents have one form and every text
made from them is the same on every run. A dictionary is the plain list of its
entries. `put` and `erase` keep the order that `Ordered` states, and change the
value of their own key alone.

Keys compare by code point.
-/

namespace ScopedStyle

/-- The entries of a dictionary, by ascending key. -/
abbrev Dict (α : Type) := List (String × α)

namespace Dict

variable {α : Type}

/-- The keys ascend, so no key occurs twice. -/
def Ordered (d : Dict α) : Prop :=
  d.Pairwise fun e₁ e₂ => e₁.1 < e₂.1

/-- The value of a key. -/
def get? (d : Dict α) (key : String) : Option α :=
  match d with
  | [] => none
  | (k, v) :: rest => if k = key then some v else get? rest key

/-- The dictionary with `value` as the value of `key`, at the place of the old
    one or else in front of the first greater key. -/
def put (d : Dict α) (key : String) (value : α) : Dict α :=
  match d with
  | [] => [(key, value)]
  | (k, v) :: rest =>
    if k = key then (key, value) :: rest
    else if key < k then (key, value) :: (k, v) :: rest
    else (k, v) :: put rest key value

/-- The dictionary without `key`. -/
def erase (d : Dict α) (key : String) : Dict α :=
  match d with
  | [] => []
  | (k, v) :: rest => if k = key then rest else (k, v) :: erase rest key

/-- The dictionary of a list of entries, in which the last value of a key
    counts. -/
def ofEntries (entries : List (String × α)) : Dict α :=
  entries.foldl (fun d e => put d e.1 e.2) []

/-- The keys in ascending order. -/
def keys (d : Dict α) : List String :=
  d.map (·.1)

/-- Whether the dictionary has an entry for the key. -/
def contains (d : Dict α) (key : String) : Bool :=
  (get? d key).isSome

theorem get?_put_self (d : Dict α) (key : String) (value : α) :
    get? (put d key value) key = some value := by
  induction d with
  | nil => simp [put, get?]
  | cons e rest ih =>
    obtain ⟨k, v⟩ := e
    by_cases hk : k = key
    · simp [put, get?, hk]
    · by_cases hlt : key < k <;> simp [put, get?, hk, hlt, ih]

theorem get?_put_of_ne (d : Dict α) {key other : String} (h : other ≠ key) (value : α) :
    get? (put d key value) other = get? d other := by
  induction d with
  | nil => simp [put, get?, Ne.symm h]
  | cons e rest ih =>
    obtain ⟨k, v⟩ := e
    by_cases hk : k = key
    · subst hk; simp [put, get?, Ne.symm h]
    · by_cases hlt : key < k
      · simp [put, get?, hk, hlt, Ne.symm h]
      · by_cases ho : k = other
        · subst ho; simp [put, get?, hk, hlt]
        · simp [put, get?, hk, hlt, ho, ih]

/-- What is found is an entry. -/
theorem mem_of_get?_eq_some {d : Dict α} {key : String} {value : α}
    (h : get? d key = some value) : (key, value) ∈ d := by
  induction d with
  | nil => cases h
  | cons e rest ih =>
    obtain ⟨k, v⟩ := e
    rw [get?] at h
    split at h
    · rename_i hk
      cases h
      rw [hk]
      exact .head _
    · exact .tail _ (ih h)

/-- An entry of a dictionary with a new value is the new one or an old one. -/
theorem eq_or_mem_of_mem_put {d : Dict α} {key : String} {value : α} {e : String × α}
    (h : e ∈ put d key value) : e = (key, value) ∨ e ∈ d := by
  induction d with
  | nil => simpa [put] using h
  | cons first rest ih =>
    obtain ⟨k, v⟩ := first
    by_cases hk : k = key
    · simp only [put, hk, if_true, List.mem_cons] at h ⊢
      exact h.imp_right .inr
    · by_cases hlt : key < k
      · simpa [put, hk, hlt] using h
      · simp only [put, hk, hlt, if_false, List.mem_cons] at h ⊢
        rcases h with h | h
        · exact .inr (.inl h)
        · exact (ih h).imp_right .inr

/-- Storing a value keeps the key order. -/
theorem ordered_put {d : Dict α} (h : Ordered d) (key : String) (value : α) :
    Ordered (put d key value) := by
  induction d with
  | nil => simp [put, Ordered]
  | cons first rest ih =>
    obtain ⟨k, v⟩ := first
    obtain ⟨hfirst, hrest⟩ := List.pairwise_cons.1 h
    by_cases hk : k = key
    · subst hk
      simpa [put, Ordered] using And.intro hfirst hrest
    · by_cases hlt : key < k
      · simp only [put, hk, hlt, if_false, if_true]
        refine List.pairwise_cons.2 ⟨fun e he => ?_, h⟩
        rcases List.mem_cons.1 he with rfl | he
        · exact hlt
        · exact String.lt_trans hlt (hfirst e he)
      · simp only [put, hk, hlt, if_false]
        refine List.pairwise_cons.2 ⟨fun e he => ?_, ih hrest⟩
        rcases eq_or_mem_of_mem_put he with rfl | he
        · exact Std.lt_of_le_of_ne (String.not_lt.1 hlt) hk
        · exact hfirst e he

/-- The dictionary of any list of entries is in key order. -/
theorem ordered_ofEntries (entries : List (String × α)) : Ordered (ofEntries entries) := by
  suffices ∀ d : Dict α, Ordered d → Ordered (entries.foldl (fun d e => put d e.1 e.2) d) from
    this [] List.Pairwise.nil
  induction entries with
  | nil => exact fun d h => h
  | cons e rest ih => exact fun d h => ih _ (ordered_put h e.1 e.2)

/-- A dictionary of a list of entries has no others. -/
theorem mem_of_mem_ofEntries {entries : List (String × α)} {e : String × α}
    (h : e ∈ ofEntries entries) : e ∈ entries := by
  suffices ∀ d : Dict α, e ∈ entries.foldl (fun d e => put d e.1 e.2) d → e ∈ d ∨ e ∈ entries from
    (this [] h).resolve_left List.not_mem_nil
  clear h
  induction entries with
  | nil => exact fun d h => .inl h
  | cons first rest ih =>
    intro d h
    rcases ih _ h with h | h
    · exact (eq_or_mem_of_mem_put h).elim (fun h => .inr (h ▸ List.mem_cons_self)) .inl
    · exact .inr (List.mem_cons_of_mem _ h)

/-- Erasing a key only leaves an entry out. -/
theorem erase_sublist (d : Dict α) (key : String) : List.Sublist (erase d key) d := by
  induction d with
  | nil => exact .slnil
  | cons first rest ih =>
    obtain ⟨k, v⟩ := first
    by_cases hk : k = key
    · simp [erase, hk]
    · simpa [erase, hk] using ih

theorem ordered_erase {d : Dict α} (h : Ordered d) (key : String) : Ordered (erase d key) :=
  List.Pairwise.sublist (erase_sublist d key) h

theorem get?_erase_of_ne (d : Dict α) {key other : String} (h : other ≠ key) :
    get? (erase d key) other = get? d other := by
  induction d with
  | nil => rfl
  | cons first rest ih =>
    obtain ⟨k, v⟩ := first
    by_cases hk : k = key
    · subst hk; simp [erase, get?, Ne.symm h]
    · simp [erase, get?, hk, ih]

/-- A key below all others has no value. -/
theorem get?_eq_none_of_lt {d : Dict α} {key : String} (h : ∀ e ∈ d, key < e.1) :
    get? d key = none := by
  induction d with
  | nil => rfl
  | cons first rest ih =>
    obtain ⟨k, v⟩ := first
    have hk : k ≠ key := fun he => String.lt_irrefl key (he ▸ h (k, v) List.mem_cons_self)
    simpa [get?, hk] using ih fun e he => h e (List.mem_cons_of_mem _ he)

/-- In key order a key occurs once, so nothing is left of it. -/
theorem get?_erase_self {d : Dict α} (h : Ordered d) (key : String) :
    get? (erase d key) key = none := by
  induction d with
  | nil => rfl
  | cons first rest ih =>
    obtain ⟨k, v⟩ := first
    obtain ⟨hfirst, hrest⟩ := List.pairwise_cons.1 h
    by_cases hk : k = key
    · subst hk
      simpa [erase] using get?_eq_none_of_lt hfirst
    · simpa [erase, get?, hk] using ih hrest

/-- Of two values stored for one key the later one stays. -/
theorem put_put_self (d : Dict α) (key : String) (value value' : α) :
    put (put d key value) key value' = put d key value' := by
  induction d with
  | nil => simp [put]
  | cons first rest ih =>
    obtain ⟨k, v⟩ := first
    by_cases hk : k = key
    · simp [put, hk]
    · by_cases hlt : key < k <;> simp [put, hk, hlt, ih]

/-- The greater one of two keys is stored behind the lesser one, whichever comes
    first. -/
theorem put_comm_of_lt (d : Dict α) {key key' : String} (h : key < key') (value value' : α) :
    put (put d key value) key' value' = put (put d key' value') key value := by
  have hne : key ≠ key' := String.ne_of_lt h
  have hnot : ¬key' < key := String.lt_asymm h
  induction d with
  | nil => simp [put, h, hne, hne.symm, hnot]
  | cons first rest ih =>
    obtain ⟨k, v⟩ := first
    by_cases hk : k = key
    · subst hk
      simp [put, hne, hnot]
    · by_cases hlt : key < k
      · -- The lesser key comes in front of this entry, the greater one at or around it.
        by_cases hk' : k = key'
        · simp [put, hk', h, hne, hne.symm, hnot]
        · by_cases hlt' : key' < k <;> simp [put, hk, hk', hlt, hlt', h, hne, hne.symm, hnot]
      · have hk' : k ≠ key' := fun he => hlt (he ▸ h)
        have hlt' : ¬key' < k := fun hl => hlt (String.lt_trans h hl)
        simp [put, hk, hk', hlt, hlt', ih]

/-- Values for different keys may be stored in either order. -/
theorem put_comm (d : Dict α) {key key' : String} (h : key ≠ key') (value value' : α) :
    put (put d key value) key' value' = put (put d key' value') key value := by
  by_cases hlt : key < key'
  · exact put_comm_of_lt d hlt value value'
  · have hlt' : key' < key := Std.lt_of_le_of_ne (String.not_lt.1 hlt) h.symm
    exact (put_comm_of_lt d hlt' value' value).symm

/-- The key of an entry behind the first one is greater than its key. -/
theorem Ordered.lt_of_get? {k key : String} {v value : α} {rest : Dict α}
    (h : Ordered ((k, v) :: rest)) (hget : get? rest key = some value) : k < key :=
  (List.pairwise_cons.1 h).1 _ (mem_of_get?_eq_some hget)

/-- A key with a value is the first one or greater. -/
theorem Ordered.le_of_get? {k key : String} {v value : α} {rest : Dict α}
    (h : Ordered ((k, v) :: rest)) (hget : get? ((k, v) :: rest) key = some value) :
    k = key ∨ k < key := by
  rw [get?] at hget
  split at hget
  · exact .inl ‹_›
  · exact .inr (h.lt_of_get? hget)

/-- Equal contents have one form. -/
theorem ext_get? {d d' : Dict α} (h : Ordered d) (h' : Ordered d')
    (hget : ∀ key, get? d key = get? d' key) : d = d' := by
  induction d generalizing d' with
  | nil =>
    cases d' with
    | nil => rfl
    | cons first rest => simpa [get?] using hget first.1
  | cons first rest ih =>
    obtain ⟨k, v⟩ := first
    cases d' with
    | nil => simpa [get?] using hget k
    | cons first' rest' =>
      obtain ⟨k', v'⟩ := first'
      have hself : get? ((k, v) :: rest) k = some v := by simp [get?]
      have hself' : get? ((k', v') :: rest') k' = some v' := by simp [get?]
      -- Neither first key can be less than the other one, as each is found on both sides.
      obtain rfl : k = k' := by
        rcases h.le_of_get? ((hget k').trans hself') with hk | hlt
        · exact hk
        · rcases h'.le_of_get? ((hget k).symm.trans hself) with hk | hlt'
          · exact hk.symm
          · exact absurd hlt' (String.lt_asymm hlt)
      obtain rfl : v = v' := Option.some.inj (hself.symm.trans ((hget k).trans hself'))
      obtain ⟨hfirst, hrest⟩ := List.pairwise_cons.1 h
      obtain ⟨hfirst', hrest'⟩ := List.pairwise_cons.1 h'
      refine congrArg _ (ih hrest hrest' fun key => ?_)
      by_cases hk : k = key
      · subst hk
        rw [get?_eq_none_of_lt hfirst, get?_eq_none_of_lt hfirst']
      · simpa [get?, hk] using hget key

/-- The keys of a dictionary are those that have a value. -/
theorem mem_keys_iff {d : Dict α} {key : String} : key ∈ keys d ↔ contains d key = true := by
  induction d with
  | nil => simp [keys, contains, get?]
  | cons first rest ih =>
    obtain ⟨k, v⟩ := first
    rw [keys, List.map_cons, List.mem_cons, ← keys, ih, contains, contains, get?]
    by_cases hk : k = key
    · simp [hk]
    · simp [hk, Ne.symm hk]

/-- Storing the value that a key has changes nothing. -/
theorem put_eq_self {d : Dict α} (h : Ordered d) {key : String} {value : α}
    (hget : get? d key = some value) : put d key value = d := by
  induction d with
  | nil => cases hget
  | cons first rest ih =>
    obtain ⟨k, v⟩ := first
    by_cases hk : k = key
    · simp only [get?, hk, if_true, Option.some.injEq] at hget
      simp [put, hk, hget]
    · simp only [get?, hk, if_false] at hget
      have hnot : ¬key < k := String.lt_asymm (h.lt_of_get? hget)
      simp [put, hk, hnot, ih (List.pairwise_cons.1 h).2 hget]

/-- A key below all others is stored in front. -/
theorem put_eq_cons_of_lt {d : Dict α} {key : String} (h : ∀ e ∈ d, key < e.1) (value : α) :
    put d key value = (key, value) :: d := by
  cases d with
  | nil => rfl
  | cons first rest =>
    obtain ⟨k, v⟩ := first
    have hlt : key < k := h (k, v) List.mem_cons_self
    simp [put, (String.ne_of_lt hlt).symm, hlt]

/-- Storing what has been erased restores the dictionary. -/
theorem put_erase {d : Dict α} (h : Ordered d) {key : String} {value : α}
    (hget : get? d key = some value) : put (erase d key) key value = d := by
  induction d with
  | nil => cases hget
  | cons first rest ih =>
    obtain ⟨k, v⟩ := first
    obtain ⟨hfirst, hrest⟩ := List.pairwise_cons.1 h
    by_cases hk : k = key
    · subst hk
      simp only [get?, if_true, Option.some.injEq] at hget
      simp [erase, put_eq_cons_of_lt hfirst, hget]
    · simp only [get?, hk, if_false] at hget
      have hnot : ¬key < k := String.lt_asymm (h.lt_of_get? hget)
      simp [erase, put, hk, hnot, ih hrest hget]

end Dict

end ScopedStyle
