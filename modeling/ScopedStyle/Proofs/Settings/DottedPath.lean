import ScopedStyle.Settings.Path

/-!
# Paths as dotted texts

A path is written with dots between its segments, and reading drops empty
segments. So no path that is read has an empty segment or one with a dot in it
(`Path.plain_ofText`), and such paths are read back from their texts
(`Path.ofText_toText`). The keys of tabs, groups and fields are segments of this
kind, so the paths made of them survive as texts (`Path.OfKeys.ofText_toText`).

As no segment goes on across a dot, texts that are joined by one are read as the
joined paths (`Path.ofText_append_dot`). Dots at the ends of a text and several in
a row need no care: they only make segments that are dropped. Together with reading
back this is `Path.dotted_text_laws`.
-/

namespace ScopedStyle.Path

/-- A key is not empty, and has neither dots nor blanks. -/
theorem isKey_iff {s : String} :
    isKey s = true ↔ s ≠ "" ∧ ∀ c ∈ s.toList, c ≠ '.' ∧ Text.isBlank c = false := by
  simp [isKey]

/-- Every segment of the path can stand between dots: it is not empty and has no
    dot in it. -/
def Plain (p : Path) : Prop :=
  ∀ k ∈ p.segments, k ≠ "" ∧ '.' ∉ k.toList

/-- The pieces between separators have none of them. -/
theorem forall_of_mem_splitOnP {separates : Char → Bool} {cs piece : List Char}
    (h : piece ∈ cs.splitOnP separates) : ∀ c ∈ piece, separates c = false := by
  induction cs generalizing piece with
  | nil =>
    rw [List.splitOnP_nil, List.mem_singleton] at h
    subst h
    exact fun _ hc => absurd hc List.not_mem_nil
  | cons c cs ih =>
    rw [List.splitOnP_cons_eq_if_modifyHead] at h
    split at h
    · rcases List.mem_cons.1 h with rfl | h
      · exact fun _ hc => absurd hc List.not_mem_nil
      · exact ih h
    · rename_i hc
      obtain ⟨first, rest, hsplit⟩ := List.exists_cons_of_ne_nil (List.splitOnP_ne_nil separates cs)
      rw [hsplit] at h ih
      rcases List.mem_cons.1 h with rfl | h
      · exact List.forall_mem_cons.2 ⟨Bool.of_not_eq_true hc, ih List.mem_cons_self⟩
      · exact ih (List.mem_cons_of_mem _ h)

/-- Every path that is read is plain. -/
theorem plain_ofText (text : String) : (ofText text).Plain := by
  intro k hk
  obtain ⟨piece, hpiece, rfl⟩ := List.mem_map.1 hk
  obtain ⟨hsplit, hne⟩ := List.mem_filter.1 hpiece
  refine ⟨?_, fun hdot => ?_⟩
  · rw [ne_eq, ← String.toList_eq_nil_iff, String.toList_ofList]
    simpa using hne
  · rw [String.toList_ofList] at hdot
    exact absurd (forall_of_mem_splitOnP hsplit _ hdot) (by decide)

/-- The dotted text of a path is read as the path. -/
theorem ofText_toText {p : Path} (h : p.Plain) : ofText p.toText = p := by
  obtain ⟨segments⟩ := p
  cases segments with
  | nil => rfl
  | cons k ks =>
    have hsplit : (toText ⟨k :: ks⟩).toList.splitOn '.' = (k :: ks).map String.toList := by
      rw [toText, String.toList_intercalate]
      refine List.splitOn_intercalate '.' (fun cs hcs => ?_) (List.cons_ne_nil _ _)
      obtain ⟨l, hl, rfl⟩ := List.mem_map.1 hcs
      exact (h l hl).2
    have hkeep : ((k :: ks).map String.toList).filter (!·.isEmpty) =
        (k :: ks).map String.toList := by
      refine List.filter_eq_self.2 fun cs hcs => ?_
      obtain ⟨l, hl, rfl⟩ := List.mem_map.1 hcs
      simpa using (h l hl).1
    rw [List.splitOn_eq_splitOnP] at hsplit
    rw [ofText, hsplit, hkeep, List.map_map]
    simp [Function.comp_def]

/-- Texts with a dot between them are read as the two paths joined. -/
theorem ofText_append_dot (a b : String) : ofText (a ++ "." ++ b) = ofText a ++ ofText b := by
  have hsplit : (a ++ "." ++ b).toList.splitOnP (· == '.') =
      a.toList.splitOnP (· == '.') ++ b.toList.splitOnP (· == '.') := by
    rw [String.toList_append, String.toList_append, List.append_assoc]
    exact List.splitOnP_append_cons _ _ (by decide)
  rw [ofText, hsplit, List.filter_append, List.map_append]
  rfl

/-- Reading and writing fit together: joining texts by a dot joins the paths, what was
    read is read again from its text, and no paths but those without empty segments
    and without dots in their segments are ever read. -/
theorem dotted_text_laws (a b : String) :
    ofText (a ++ "." ++ b) = ofText a ++ ofText b ∧
    ofText (ofText a).toText = ofText a ∧
    (ofText a).Plain ∧
    ∀ p : Path, ofText p.toText = p ↔ p.Plain :=
  ⟨ofText_append_dot a b, ofText_toText (plain_ofText a), plain_ofText a,
    fun p => ⟨fun h => h ▸ plain_ofText p.toText, ofText_toText⟩⟩

example : ofText ".a..b." = ⟨["a", "b"]⟩ := by decide +kernel

/-- Every segment of the path is a key. -/
def OfKeys (p : Path) : Prop :=
  ∀ k ∈ p.segments, isKey k = true

namespace OfKeys

variable {p : Path}

theorem child (h : p.OfKeys) {key : String} (hkey : isKey key = true) : (p.child key).OfKeys := by
  intro k hk
  rcases List.mem_append.1 hk with hk | hk
  · exact h k hk
  · rwa [List.mem_singleton.1 hk]

theorem singleton {key : String} (hkey : isKey key = true) : OfKeys ⟨[key]⟩ := by
  intro k hk
  rwa [List.mem_singleton.1 hk]

theorem ofText_toText (h : p.OfKeys) : ofText p.toText = p :=
  Path.ofText_toText fun k hk =>
    have hkey := isKey_iff.1 (h k hk)
    ⟨hkey.1, fun hdot => (hkey.2 _ hdot).1 rfl⟩

end OfKeys

end ScopedStyle.Path
