import ScopedStyle.Proofs.Value.NumberText

/-!
# Blanks around a stored text

The blanks around a text are taken away wherever its characters count: where it is
compared with the options of a choice, where a number is read, and where it is put
into the style sheet. So a text may be stored with them or without
(`Field.resolve_trim_iff`).

One check looks at the text as it is stored. A number field takes the empty text
for no number at all, and blanks alone are neither empty nor a number. Without them
the field is empty, with them it falls back to its default (`Text.OnlyBlanks`).
-/

namespace ScopedStyle

/-- A text of blanks, and at least one of them. -/
def Text.OnlyBlanks (s : String) : Prop :=
  s ≠ "" ∧ trim s = ""

/-- Two ways to end: with the same contribution, or with an error of one kind for one
    field, whatever value it names. -/
inductive Resolution.Agree : Except Resolution.Error Resolved →
    Except Resolution.Error Resolved → Prop
  /-- The same contribution. -/
  | ok (r : Resolved) : Agree (.ok r) (.ok r)
  /-- No value on both sides. -/
  | missing (key : String) : Agree (.error (.missing key)) (.error (.missing key))
  /-- Unusable values on both sides, each named in its error. -/
  | malformed (key : String) (kind : Kind) (found found' : Json) :
      Agree (.error (.malformed key kind found)) (.error (.malformed key kind found'))

theorem Binary64.ofText?_empty : ofText? "" = none := by
  decide

/-! ### Checks and readings -/

variable {s : String}

/-- The check for a number sees the blanks around a text only where there is nothing
    else. -/
theorem Kind.isNumberText_trim (h : ¬Text.OnlyBlanks s) :
    isNumberText (Text.trim s) = isNumberText s := by
  by_cases hs : s = ""
  · subst hs
    rfl
  · have htrim : (Text.trim s).isEmpty = false := by
      simpa using fun htrim : Text.trim s = "" => h ⟨hs, htrim⟩
    have hs : s.isEmpty = false := by simpa using hs
    rw [isNumberText, isNumberText, Text.trim_trim, hs, htrim]

/-- Blanks alone are neither empty nor a number. -/
theorem Kind.isNumberText_of_onlyBlanks (h : Text.OnlyBlanks s) : isNumberText s = false := by
  simp [isNumberText, h.1, h.2, Binary64.ofText?_empty]

theorem Kind.accepts_trim {k : Kind} (h : ¬(k = .number ∧ Text.OnlyBlanks s)) :
    k.accepts (.str (Text.trim s)) = k.accepts (.str s) := by
  cases k with
  | number => exact isNumberText_trim fun hs => h ⟨rfl, hs⟩
  | _ => rfl

/-- The text in the style sheet is without the blanks. -/
theorem Scalar.text?_trim (f : Field) (s : String) :
    text? f (.str (Text.trim s)) = text? f (.str s) := by
  simp only [text?, numberText?, choiceText?, Json.scalarText?, Text.trim_trim]

/-- The tokens of a text tell the text. -/
theorem Scalar.tokens_injective (f : Field) : Function.Injective (tokens f) := by
  intro text text' h
  have hvalue := get?_value_tokens f text
  rw [h, get?_value_tokens] at hvalue
  exact (Option.some.inj hvalue).symm

/-- Where the text of a number field is empty there is no number, as no number has an
    empty text. -/
theorem Scalar.typedNumber?_eq_none {f : Field} {v : Json} (h : numberText? f v = some "") :
    v.typedNumber? = none := by
  have hempty := numberText?_eq_some h
  cases hv : v.typedNumber? with
  | none => rfl
  | some x =>
    rw [hv] at hempty
    exact absurd hempty.symm (Binary64.toCss_ne_empty _)

namespace Field

variable {f : Field} {fallback : Option Json}

theorem resolveShaped?_eq_scalar (hk : f.kind.takesAttributes = true) (v : Json) :
    f.resolveShaped? v = Scalar.resolve? f v := by
  rw [resolveShaped?]
  cases hkind : f.kind with
  | dimension | backgroundGroup | typographyGroup | icon | image | repeater | linkGroup =>
    rw [hkind] at hk
    cases hk
  | _ => rfl

/-- What a text contributes, it contributes without its blanks. -/
theorem resolve?_trim (hk : f.kind.takesAttributes = true)
    (h : ¬(f.kind = .number ∧ Text.OnlyBlanks s)) :
    f.resolve? (.str (Text.trim s)) = f.resolve? (.str s) := by
  rw [resolve?, resolve?, Kind.accepts_trim h, resolveShaped?_eq_scalar hk,
    resolveShaped?_eq_scalar hk, Scalar.resolve?, Scalar.resolve?, Scalar.text?_trim]

/-- In a number field the empty text contributes what a missing value does, and
    nothing else does. -/
theorem resolve?_eq_unset_iff (hk : f.kind = .number) {v : Json} :
    f.resolve? v = some (Scalar.unset f) ↔ v = .str "" := by
  rw [resolve?_number_iff hk]
  constructor
  · rintro ⟨haccepts, text, htext, hunset⟩
    have hempty : text = "" := Scalar.tokens_injective f (congrArg Resolved.tokens hunset)
    have hnone := Scalar.typedNumber?_eq_none (hempty ▸ htext)
    cases v with
    | str s =>
      rw [Json.typedNumber?] at hnone
      simpa [Kind.accepts, Kind.isNumberText, hnone] using haccepts
    | num n => cases hnone
    | _ => cases haccepts
  · rintro rfl
    exact ⟨rfl, "", rfl, rfl⟩

/-- Two texts that contribute the same agree in front of every fallback. -/
theorem agree_of_resolve?_eq {s' : String} (h : f.resolve? (.str s) = f.resolve? (.str s')) :
    Resolution.Agree (f.resolve (some (.str s)) fallback) (f.resolve (some (.str s')) fallback) := by
  simp only [resolve, Option.bind_some, Json.nonNull?, h]
  cases f.resolve? (.str s') with
  | some r => exact .ok r
  | none =>
    cases fallback.bind Json.nonNull? with
    | none => exact .malformed ..
    | some d =>
      cases hd : f.resolve? d with
      | some r => simpa [hd] using .ok r
      | none => simpa [hd] using .malformed ..

/-- Blanks alone are in a number field what the empty text is when the fallback is the
    empty text. -/
theorem agree_onlyBlanks_iff (hk : f.kind = .number) (hs : Text.OnlyBlanks s) :
    Resolution.Agree (f.resolve (some (.str s)) fallback) (f.resolve (some (.str "")) fallback) ↔
      fallback = some (.str "") := by
  have hempty : f.resolve (some (.str "")) fallback = .ok (Scalar.unset f) :=
    resolve_eq_ok_iff.2 (.inl ⟨_, rfl, (resolve?_eq_unset_iff hk).2 rfl⟩)
  have hblank : f.resolve? (.str s) = none := by
    rw [resolve?, hk, Kind.accepts, Kind.isNumberText_of_onlyBlanks hs]
    rfl
  have hstored : ∀ v, (some (Json.str s)).bind Json.nonNull? = some v → f.resolve? v = none := by
    rintro _ ⟨⟩
    exact hblank
  rw [hempty]
  constructor
  · intro hagree
    have hok : f.resolve (some (.str s)) fallback = .ok (Scalar.unset f) := by
      generalize f.resolve (some (.str s)) fallback = result at hagree
      cases hagree
      rfl
    rcases resolve_eq_ok_iff.1 hok with ⟨v, hv, hr⟩ | ⟨-, d, hd, hr⟩ | ⟨hnone, -, -⟩
    · rw [hstored v hv] at hr
      cases hr
    · obtain ⟨j, rfl, hj⟩ := Option.bind_eq_some_iff.1 hd
      rw [(Json.nonNull?_eq_some hj).1, (resolve?_eq_unset_iff hk).1 hr]
    · cases hnone
  · rintro rfl
    rw [(resolve_eq_ok_iff_of_fallback hstored rfl).2 ((resolve?_eq_unset_iff hk).2 rfl)]
    exact .ok _

/-- In a field of one text, a text and the text without its blanks come to the same,
    with one exception: blanks alone in a number field. They agree with the empty text
    only where that is the fallback too. -/
theorem resolve_trim_iff (hk : f.kind.takesAttributes = true) (s : String)
    (fallback : Option Json) :
    Resolution.Agree (f.resolve (some (.str s)) fallback)
        (f.resolve (some (.str (Text.trim s))) fallback) ↔
      ¬(f.kind = .number ∧ s ≠ "" ∧ Text.trim s = "" ∧ fallback ≠ some (.str "")) := by
  by_cases h : f.kind = .number ∧ Text.OnlyBlanks s
  · obtain ⟨hnumber, hs⟩ := h
    rw [hs.2, agree_onlyBlanks_iff hnumber hs]
    simp [hnumber, hs.1]
  · refine iff_of_true (agree_of_resolve?_eq (resolve?_trim hk h).symm) ?_
    exact fun ⟨hnumber, hs, htrim, _⟩ => h ⟨hnumber, hs, htrim⟩

/-- A number without a default. -/
def widthAttributes : List Attribute :=
  [.key "width", .label "Width"]

/-- Blanks in a number field are an error, and without the blanks the field is empty. -/
theorem blank_width_malformed : ∃ f, ofAttributes "number" widthAttributes = .ok f ∧
    f.kind = .number ∧ Text.trim "  " = "" ∧
    f.resolve (some (.str "  ")) none = .error (.malformed "width" .number (.str "  ")) ∧
    ∃ r, f.resolve (some (.str (Text.trim "  "))) none = .ok r ∧
      r.tokens.get? Placeholder.value = some "" ∧
      ¬Resolution.Agree (f.resolve (some (.str "  ")) none)
        (f.resolve (some (.str (Text.trim "  "))) none) := by
  obtain ⟨f, hmade, herror, r, hresolve, hk, htrim, hvalue⟩ : ∃ f,
      ofAttributes "number" widthAttributes = .ok f ∧
        f.resolve (some (.str "  ")) none = .error (.malformed "width" .number (.str "  ")) ∧
        ∃ r, f.resolve (some (.str (Text.trim "  "))) none = .ok r ∧
          f.kind = .number ∧ Text.trim "  " = "" ∧
          r.tokens.get? Placeholder.value = some "" :=
    ⟨_, rfl, rfl, _, rfl, by decide +kernel⟩
  refine ⟨f, hmade, hk, htrim, herror, r, hresolve, hvalue, ?_⟩
  rw [herror, hresolve]
  exact nofun

/-- A choice of two sizes. -/
def sizeAttributes : List Attribute :=
  [.key "size", .label "Size", .options [⟨"small", "Small"⟩, ⟨"large", "Large"⟩]]

/-- A choice is one of the options with the blanks around it or without. -/
theorem blank_size_agrees : ∃ f, ofAttributes "select" sizeAttributes = .ok f ∧
    f.kind.takesAttributes = true ∧ Text.trim " large\n" = "large" ∧
    Resolution.Agree (f.resolve (some (.str " large\n")) none)
      (f.resolve (some (.str (Text.trim " large\n"))) none) ∧
    ∃ r, f.resolve (some (.str " large\n")) none = .ok r ∧
      r.tokens.get? Placeholder.value = some "large" := by
  obtain ⟨f, hmade, r, hresolve, hk, hkind, htrim, hvalue⟩ : ∃ f,
      ofAttributes "select" sizeAttributes = .ok f ∧ ∃ r,
        f.resolve (some (.str " large\n")) none = .ok r ∧
          f.kind.takesAttributes = true ∧ f.kind ≠ .number ∧
          Text.trim " large\n" = "large" ∧
          r.tokens.get? Placeholder.value = some "large" :=
    ⟨_, rfl, _, rfl, by decide +kernel⟩
  refine ⟨f, hmade, hk, htrim, ?_, r, hresolve, hvalue⟩
  exact (resolve_trim_iff hk " large\n" none).2 fun hblank => hkind hblank.1

end Field

end ScopedStyle
