import Mathlib.Data.Option.Basic
import ScopedStyle.Value.Resolution

/-!
# Which values a field can use

A field can use a value when three things fit (`Field.isSome_resolve?`): the
shape that its kind asks for, the choice where it allows only some, and the
parts of the value where its kind looks into an object:

* a side of a dimension is a number or a text, or is left out;
* the type of a background is one of three names, or is left out;
* a part of a typography value is anything but a list.

The shape alone decides for all other kinds: whatever has the shape of a number
can be read as one, and whatever has the shape of a text has a text.
-/

namespace ScopedStyle

/-! ### Parts of an object -/

/-- What may stand for a side of a box: a number or a text, or nothing. -/
def Box.sideFits : Option Json → Bool
  | none | some .null | some (.num _) | some (.str _) => true
  | some (.bool _) | some (.arr _) | some (.obj _) => false

/-- What may stand for the type of a background: one of its names or the empty
    text, or what is no text, as then there is no type. -/
def Background.typeFits : Option Json → Bool
  | some (.str type) => ["", "none", "classic", "gradient"].contains type
  | _ => true

/-- What may stand for a part of a typography value. -/
def Typography.partFits : Option Json → Bool
  | some (.arr _) => false
  | _ => true

/-- Whether a kind can use the parts of an object. -/
def Kind.partsFit : Kind → Json → Bool
  | .dimension, v => Side.all.all fun side => Box.sideFits (v.field? side.key)
  | .backgroundGroup, v => Background.typeFits (v.field? "type")
  | .typographyGroup, v => Typography.parts.all fun part => Typography.partFits (v.field? part.key)
  | _, _ => true

/-- A value with the entries of an object is one. -/
theorem Json.eq_obj_of_isSome {v : Json} (h : v.obj?.isSome = true) : ∃ es, v = obj es := by
  cases v with
  | obj es => exact ⟨es, rfl⟩
  | _ => cases h

/-- Whether a field allows the text of a value as a choice. The empty text
    chooses nothing. -/
def Field.choiceFits (f : Field) (v : Json) : Bool :=
  v.scalarText?.all fun text => text.isEmpty || f.allowsChoice text

/-! ### Dimensions -/

namespace Box

theorem isSome_sideText? (v? : Option Json) : (sideText? v?).isSome = sideFits v? := by
  cases v? with
  | none => rfl
  | some v => cases v <;> rfl

theorem isSome_addSides? (v : Json) (t : Tokens) (sides : List Side) :
    (addSides? v t sides).isSome = sides.all fun side => sideFits (v.field? side.key) := by
  induction sides generalizing t with
  | nil => rfl
  | cons side sides ih =>
    rw [List.all_cons, ← isSome_sideText?, addSides?, List.foldlM_cons]
    cases sideText? (v.field? side.key) with
    | none => rfl
    | some text => exact ih (t.insert side.token text)

theorem isSome_resolve? (f : Field) {v : Json} (h : v.obj?.isSome = true) :
    (resolve? f v).isSome = Kind.partsFit .dimension v := by
  obtain ⟨es, rfl⟩ := Json.eq_obj_of_isSome h
  rw [Kind.partsFit, ← isSome_addSides? (.obj es) .empty, resolve?]
  cases addSides? (.obj es) .empty Side.all <;> rfl

end Box

/-! ### Backgrounds -/

namespace Background

/-- Without a type a background shows its gradient, or else an image. -/
theorem isSome_shows?_untyped (v : Json) :
    (if ((v.field? "gradient").bind Json.nonNull?).isSome then some Show.gradient
      else some Show.image).isSome = true := by
  split <;> rfl

theorem isSome_shows? (v : Json) : (shows? v).isSome = typeFits (v.field? "type") := by
  rw [shows?]
  cases v.field? "type" with
  | none => exact isSome_shows?_untyped v
  | some j =>
    cases j with
    | str type =>
      -- The names that count one by one, and then whatever is none of them.
      by_cases hempty : type = ""
      · subst hempty
        exact isSome_shows?_untyped v
      by_cases hnone : type = "none"
      · subst hnone
        rfl
      by_cases hclassic : type = "classic"
      · subst hclassic
        rfl
      by_cases hgradient : type = "gradient"
      · subst hgradient
        rfl
      simp [typeFits, Json.str?, Option.filter, hempty, hnone, hclassic, hgradient]
    | _ => exact isSome_shows?_untyped v

theorem isSome_resolve? {v : Json} (h : v.obj?.isSome = true) :
    (resolve? v).isSome = Kind.partsFit .backgroundGroup v := by
  obtain ⟨es, rfl⟩ := Json.eq_obj_of_isSome h
  rw [Kind.partsFit, ← isSome_shows?, resolve?, Option.isSome_map, declarations?, Option.isSome_map]

end Background

/-! ### Typography -/

/-- The results for a list are there when each of them is. -/
theorem isSome_mapM {α β : Type} (f : α → Option β) (l : List α) :
    (l.mapM f).isSome = l.all fun a => (f a).isSome := by
  induction l with
  | nil => rfl
  | cons a l ih =>
    rw [List.all_cons, List.mapM_cons, ← ih]
    cases f a with
    | none => rfl
    | some b => cases l.mapM f <;> rfl

namespace Typography

theorem isSome_partText? (unit : String) (v? : Option Json) :
    (partText? unit v?).isSome = partFits v? := by
  cases v? with
  | none => rfl
  | some v =>
    cases v with
    | bool b => cases b <;> rfl
    | _ => rfl

theorem isSome_resolve? {v : Json} (h : v.obj?.isSome = true) :
    (resolve? v).isSome = Kind.partsFit .typographyGroup v := by
  obtain ⟨es, rfl⟩ := Json.eq_obj_of_isSome h
  rw [Kind.partsFit, resolve?, Option.isSome_map, texts?, isSome_mapM]
  congr 1
  funext part
  rw [Option.isSome_map, isSome_partText?]

end Typography

/-! ### Scalars -/

/-- What has the shape of a kind with one text has a text. -/
theorem isSome_scalarText? {k : Kind} (hk : k.takesAttributes = true) {v : Json}
    (h : k.accepts v = true) : v.scalarText?.isSome = true := by
  cases v with
  | str s => rfl
  | num n => rfl
  | bool b => cases b <;> rfl
  | null => cases k <;> cases h
  | arr items =>
    cases k with
    | repeater => exact absurd hk (by decide)
    | _ => cases h
  | obj entries =>
    -- The kinds that take objects are just those without attributes.
    cases k with
    | dimension | backgroundGroup | typographyGroup | icon | image | linkGroup =>
      exact absurd hk (by decide)
    | _ => cases h

namespace Scalar

theorem isSome_numberText? (f : Field) {v : Json} (h : Kind.accepts .number v = true) :
    (numberText? f v).isSome = true := by
  cases v with
  | num n => rfl
  | str s =>
    by_cases hempty : (Text.trim s).isEmpty = true
    · simp [numberText?, hempty]
    · -- The empty text is a number text without being read as a number.
      have hs : s ≠ "" := by
        rintro rfl
        exact hempty rfl
      simpa [numberText?, hempty, Kind.accepts, Kind.isNumberText, hs] using h
  | _ => simp [Kind.accepts] at h

theorem isSome_choiceText? (f : Field) {v : Json} (h : v.scalarText?.isSome = true) :
    (choiceText? f v).isSome = f.choiceFits v := by
  obtain ⟨text, htext⟩ := Option.isSome_iff_exists.1 h
  rw [choiceText?, Field.choiceFits, htext, Option.filter_some, Option.all_some]
  cases text.isEmpty || f.allowsChoice text <;> rfl

theorem isSome_resolve? (f : Field) {v : Json} (hk : f.kind.takesAttributes = true)
    (h : f.kind.accepts v = true) :
    (resolve? f v).isSome = (!f.kind.isChoice || f.choiceFits v) := by
  have htext := isSome_scalarText? hk h
  rw [resolve?, Option.isSome_map, text?]
  cases hkind : f.kind with
  | number => exact isSome_numberText? f (hkind ▸ h)
  | select => exact isSome_choiceText? f htext
  | alignment =>
    dsimp only
    rw [Option.isSome_map]
    exact isSome_choiceText? f htext
  | _ => exact htext

end Scalar

/-! ### Fields -/

namespace Field

/-- A field can use a value when its shape, its choice and its parts fit. -/
theorem isSome_resolve? (f : Field) (v : Json) : (f.resolve? v).isSome =
    (f.kind.accepts v && (!f.kind.isChoice || f.choiceFits v) && f.kind.partsFit v) := by
  rw [resolve?]
  cases h : f.kind.accepts v with
  | false => rfl
  | true =>
    rw [if_pos rfl, Bool.true_and, resolveShaped?]
    cases hkind : f.kind with
    | dimension => exact Box.isSome_resolve? f (by rwa [hkind] at h)
    | backgroundGroup => exact Background.isSome_resolve? (by rwa [hkind] at h)
    | typographyGroup => exact Typography.isSome_resolve? (by rwa [hkind] at h)
    | icon | image | repeater | linkGroup => rfl
    | _ =>
      have hk : f.kind.takesAttributes = true := by rw [hkind]; rfl
      have := Scalar.isSome_resolve? f hk h
      rw [hkind] at this
      simpa [Kind.partsFit] using this

variable {f : Field} {v : Json}

/-- With a stored value alone, only one that the field can use resolves. -/
theorem resolve_stored_iff (hv : v.nonNull? = some v) :
    (∃ r, f.resolve (some v) none = .ok r) ↔ (f.resolve? v).isSome = true := by
  rw [resolve, Option.bind_some, hv, Option.bind_some]
  cases f.resolve? v <;> simp

/-- The same holds of a fallback. -/
theorem resolve_fallback_iff (hv : v.nonNull? = some v) :
    (∃ r, f.resolve none (some v) = .ok r) ↔ (f.resolve? v).isSome = true := by
  rw [resolve, Option.bind_none, Option.bind_none, Option.bind_some, hv]
  cases hr : f.resolve? v <;> simp [hr]

/-- A fallback that the field can use leaves no stored value malformed. -/
theorem exists_resolve_of_isSome (hv : v.nonNull? = some v) (h : (f.resolve? v).isSome = true)
    (stored : Option Json) : ∃ r, f.resolve stored (some v) = .ok r := by
  obtain ⟨r, hr⟩ := Option.isSome_iff_exists.1 h
  rw [resolve, Option.bind_some, hv]
  cases (stored.bind Json.nonNull?).bind f.resolve? with
  | some used => exact ⟨used, rfl⟩
  | none => exact ⟨r, by simp [hr]⟩

end Field

end ScopedStyle
