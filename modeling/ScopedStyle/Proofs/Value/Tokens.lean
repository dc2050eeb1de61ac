import ScopedStyle.Proofs.Template.Filling
import ScopedStyle.Value.Resolution

/-!
# The tokens of resolved values

A kind names the placeholders that the declarations of its fields may use. The
values of every kind are resolved by a procedure of their own, which puts the
tokens in one by one: those of the value and its unit, one for each side of a
box, or one for each part of a font. Whatever has been stored, the tokens of a
resolved value are the ones that the kind names (`Field.knows_of_resolve`). This
holds of a missing value as well.
-/

namespace ScopedStyle

variable {name : String}

namespace Tokens

variable {t : Tokens}

/-- Whether a set has a text for the placeholder of a name. -/
def Knows (t : Tokens) (name : String) : Prop :=
  (t.get? name).isSome = true

theorem not_knows_empty (name : String) : ¬empty.Knows name := nofun

theorem knows_insert_iff {inserted text : String} :
    (t.insert inserted text).Knows name ↔ t.Knows name ∨ name = inserted := by
  rw [Knows, Knows, get?, get?, insert]
  by_cases h : name = inserted
  · subst h
    simp [Dict.get?_put_self]
  · simp [Dict.get?_put_of_ne _ h, h]

/-- A unit that goes without saying is no token. -/
theorem knows_withSuffix_iff {unit : Option String} :
    (t.withSuffix unit).Knows name ↔ t.Knows name := .rfl

/-- With or without a unit, every token of the set is found. -/
theorem isSome_lookup_iff {template : Template} :
    (t.lookup template name).isSome = true ↔ t.Knows name := by
  rw [lookup, Option.isSome_map, Knows]

/-- A template with the tokens put in, unless one of its placeholders has none. -/
def fill? (t : Tokens) (template : Template) : Option String :=
  template.fill? (t.lookup template)

/-- A template whose placeholders are all known is filled as it is rendered. -/
theorem fill?_eq_some_iff {template : Template} {text : String} : t.fill? template = some text ↔
    (∀ name ∈ template.placeholders, t.Knows name) ∧ t.render template = text := by
  simp only [fill?, Template.fill?_eq_some_iff, isSome_lookup_iff, render]

end Tokens

/-! ### The tokens of each kind -/

namespace Scalar

/-- The token of the value is the text, with a unit beside it or without. -/
theorem get?_value_tokens (f : Field) (text : String) :
    (tokens f text).get? Placeholder.value = some text := by
  rw [tokens]
  split
  · -- The unit is stored under another name.
    change ((Tokens.empty.texts.put Placeholder.value text).put Placeholder.unit _).get? _ = _
    rw [Dict.get?_put_of_ne _ (by decide), Dict.get?_put_self]
  · exact Dict.get?_put_self ..

/-- The token of the value, and that of the unit where the kind names it. -/
theorem knows_tokens_iff {f : Field} (hk : f.kind.takesAttributes = true) (text : String) :
    (tokens f text).Knows name ↔ name ∈ f.kind.tokenNames := by
  rw [tokens]
  cases hkind : f.kind with
  | dimension | backgroundGroup | typographyGroup | icon | image | repeater | linkGroup =>
    rw [hkind] at hk
    cases hk
  | color | alignment =>
    -- These have no unit.
    rw [if_neg (by decide), Tokens.knows_insert_iff]
    simp [Tokens.not_knows_empty, Kind.tokenNames, Placeholder.value]
  | _ =>
    rw [if_pos (by decide), Tokens.knows_withSuffix_iff, Tokens.knows_insert_iff,
      Tokens.knows_insert_iff]
    simp [Tokens.not_knows_empty, Kind.tokenNames, Placeholder.value, Placeholder.unit]

theorem knows_of_resolve? {f : Field} (hk : f.kind.takesAttributes = true) {v : Json}
    {r : Resolved} (h : resolve? f v = some r) :
    r.tokens.Knows name ↔ name ∈ f.kind.tokenNames := by
  obtain ⟨text, _, rfl⟩ := Option.map_eq_some_iff.1 h
  exact knows_tokens_iff hk text

end Scalar

namespace Box

/-- Every side adds its token to those that are there. -/
theorem knows_of_addSides? {v : Json} {t t' : Tokens} {sides : List Side}
    (h : addSides? v t sides = some t') :
    t'.Knows name ↔ t.Knows name ∨ name ∈ sides.map Side.token := by
  induction sides generalizing t with
  | nil =>
    cases h
    simp
  | cons side sides ih =>
    rw [addSides?, List.foldlM_cons, Option.bind_eq_bind, Option.bind_eq_some_iff] at h
    obtain ⟨next, hnext, hrest⟩ := h
    obtain ⟨text, _, hnext⟩ := Option.bind_eq_some_iff.1 hnext
    cases hnext
    rw [ih hrest, Tokens.knows_insert_iff, List.map_cons, List.mem_cons, or_assoc]

theorem knows_of_resolve? {f : Field} {v : Json} {r : Resolved} (h : resolve? f v = some r) :
    r.tokens.Knows name ↔ name ∈ Kind.dimension.tokenNames := by
  obtain ⟨t, hsides, rfl⟩ := resolve?_eq_some h
  have hnames : Kind.dimension.tokenNames = Side.all.map Side.token ++ [Placeholder.unit] := rfl
  have hknows : (t.insert Placeholder.unit (unitOf f v)).Knows name ↔
      name ∈ Kind.dimension.tokenNames := by
    rw [Tokens.knows_insert_iff, knows_of_addSides? hsides, hnames, List.mem_append,
      List.mem_singleton]
    simp [Tokens.not_knows_empty]
  -- A unit of the field is a suffix besides.
  cases f.unit <;> exact hknows

end Box

/-- Elements that are taken together with their results are still the same. -/
theorem map_fst_of_mapM {α β : Type} {f : α → Option β} {l : List α} {results : List (α × β)}
    (h : l.mapM (fun a => (f a).map (a, ·)) = some results) : results.map (·.1) = l := by
  induction l generalizing results with
  | nil =>
    cases h
    rfl
  | cons a l ih =>
    rw [List.mapM_cons, Option.bind_eq_bind, Option.bind_eq_some_iff] at h
    obtain ⟨_, ha, h⟩ := h
    obtain ⟨b, _, rfl⟩ := Option.map_eq_some_iff.1 ha
    obtain ⟨rest, hrest, h⟩ := Option.bind_eq_some_iff.1 h
    cases h
    rw [List.map_cons, ih hrest]

namespace Typography

/-- Every part adds its token to those that are there. -/
theorem knows_foldl_insert_iff {texts : List (Part × String)} {t : Tokens} :
    (texts.foldl (fun t (part, text) => t.insert part.token text) t).Knows name ↔
      t.Knows name ∨ name ∈ (texts.map (·.1)).map Part.token := by
  induction texts generalizing t with
  | nil => simp
  | cons part texts ih =>
    rw [List.foldl_cons, ih, Tokens.knows_insert_iff, List.map_cons, List.map_cons, List.mem_cons,
      or_assoc]

theorem knows_of_resolve? {v : Json} {r : Resolved} (h : resolve? v = some r) :
    r.tokens.Knows name ↔ name ∈ Kind.typographyGroup.tokenNames := by
  obtain ⟨texts, htexts, rfl⟩ := resolve?_eq_some h
  have hnames : Kind.typographyGroup.tokenNames = parts.map Part.token := rfl
  dsimp only
  rw [tokens, knows_foldl_insert_iff, map_fst_of_mapM htexts, hnames]
  simp [Tokens.not_knows_empty]

end Typography

namespace Field

variable {f : Field} {v : Json} {r : Resolved}

theorem knows_of_resolveShaped? (h : f.resolveShaped? v = some r) :
    r.tokens.Knows name ↔ name ∈ f.kind.tokenNames := by
  rw [resolveShaped?] at h
  cases hkind : f.kind with
  | dimension =>
    rw [hkind] at h
    exact Box.knows_of_resolve? h
  | typographyGroup =>
    rw [hkind] at h
    exact Typography.knows_of_resolve? h
  | backgroundGroup =>
    rw [hkind] at h
    obtain ⟨_, _, rfl⟩ := Background.resolve?_eq_some h
    simp [Tokens.not_knows_empty, Kind.tokenNames]
  | icon | image | repeater | linkGroup =>
    rw [hkind] at h
    cases h
    simp [Tokens.not_knows_empty, Resolved.nothing, Kind.tokenNames]
  | _ =>
    rw [hkind] at h
    rw [← hkind]
    exact Scalar.knows_of_resolve? (by rw [hkind]; rfl) h

/-- What is resolved comes of a value that the field can use, or of none at all. -/
theorem resolve_eq_ok_cases {stored fallback : Option Json}
    (h : f.resolve stored fallback = .ok r) :
    (∃ v, f.resolveShaped? v = some r) ∨ f.kind.takesAttributes = true ∧ r = Scalar.unset f := by
  have hused {v : Json} (hv : f.resolve? v = some r) : ∃ v, f.resolveShaped? v = some r := by
    rw [resolve?] at hv
    split at hv
    · exact ⟨v, hv⟩
    · cases hv
  rcases resolve_eq_ok_iff.1 h with ⟨v, -, hv⟩ | ⟨-, d, -, hd⟩ | ⟨-, -, hunset⟩
  · exact .inl (hused hv)
  · exact .inl (hused hd)
  · exact .inr (resolveUnset_eq_ok hunset)

/-- The tokens of a resolved value are those that the kind of the field names. -/
theorem knows_of_resolve {stored fallback : Option Json} (h : f.resolve stored fallback = .ok r) :
    r.tokens.Knows name ↔ name ∈ f.kind.tokenNames := by
  rcases resolve_eq_ok_cases h with ⟨v, hv⟩ | ⟨hk, rfl⟩
  · exact knows_of_resolveShaped? hv
  · exact Scalar.knows_tokens_iff hk ""

end Field

end ScopedStyle
