import ScopedStyle.Proofs.Field.WellFormed
import ScopedStyle.Proofs.Template.Substitution
import ScopedStyle.Proofs.Value.Tokens

/-!
# Units that go without saying

A field with a unit has it behind each number of its value, although its
declarations need not place it. So such a declaration can be written in two ways:
with the placeholder for the unit behind each placeholder of the value, or without
any. They come to the same (`Field.unit_said_or_unsaid`), for three reasons.

* The unit that goes without saying is the token of the unit, whether a dimension
  stores one of its own or the field declares it (`Tokens.SaysUnit`).
* Writing the unit out changes no other placeholder of a template and adds none
  but those for the unit (`Template.render_rendered`).
* The unit is put behind numbers of the value alone, which in a resolved value are
  the token of the value and those of the sides (`Field.isValueName_iff`).
-/

namespace ScopedStyle

/-! ### Writing the unit out -/

/-- The names of the placeholders for a value and for the sides of one. -/
def Placeholder.ofValue : List String :=
  value :: Side.all.map Side.token

/-- What a placeholder of the value becomes when the unit is written out. -/
def Placeholder.withUnit? (name : String) : Option String :=
  if name ∈ ofValue then some (writtenText name ++ writtenText unit) else none

/-- A template is another one with the placeholder for the unit written directly
    behind each placeholder of the value. -/
def Template.UnitWritten (t t' : Template) : Prop :=
  Placeholder.Replaced Placeholder.withUnit? t.source.toList t'.source.toList

open Placeholder

theorem Placeholder.isName_unit : isName Placeholder.unit.toList = true := by
  decide +kernel

theorem Placeholder.withUnit?_of_mem {name : String} (h : name ∈ ofValue) :
    ∃ text, withUnit? name = some text ∧
      text.toList = written name.toList ++ written Placeholder.unit.toList :=
  ⟨_, if_pos h, by simp [writtenText]⟩

theorem Placeholder.withUnit?_of_not_mem {name : String} (h : name ∉ ofValue) :
    withUnit? name = none :=
  if_neg h

theorem Placeholder.braced_withUnit? : Braced withUnit? := by
  intro name text htext
  by_cases h : name ∈ ofValue
  · obtain ⟨_, hsome, hlist⟩ := withUnit?_of_mem h
    cases hsome.symm.trans htext
    exact ⟨_, hlist⟩
  · rw [withUnit?_of_not_mem h] at htext
    cases htext

namespace Template

variable {t t' : Template} {name : String}

theorem unitWritten_iff : t.UnitWritten t' ↔ t.render withUnit? = t'.source :=
  render_eq_iff.symm

/-- The unit can be written out in one way. -/
theorem existsUnique_unitWritten (t : Template) : ∃! t', t.UnitWritten t' := by
  refine ⟨⟨t.render withUnit?⟩, unitWritten_iff.2 rfl, fun t' h => ?_⟩
  rw [unitWritten_iff.1 h]

namespace UnitWritten

variable (h : t.UnitWritten t')

include h

/-- Behind a placeholder of the value there is now one for the unit. -/
theorem unit_mem (hname : name ∈ t.placeholders) (hvalue : name ∈ ofValue) :
    Placeholder.unit ∈ t'.placeholders := by
  obtain ⟨text, htext, hlist⟩ := withUnit?_of_mem hvalue
  have hin := infix_render hname htext
  rw [unitWritten_iff.1 h, hlist] at hin
  exact mem_placeholders_iff.2 ⟨isName_unit, (List.suffix_append _ _).isInfix.trans hin⟩

end UnitWritten

end Template

/-! ### The unit of a resolved value -/

namespace Tokens

variable {t : Tokens} {template : Template} {unit name text : String}

/-- The unit that goes without saying is the token of the unit. -/
structure SaysUnit (t : Tokens) (unit : String) : Prop where
  token : t.get? Placeholder.unit = some unit
  suffix : t.suffix = some unit

/-- A set of tokens with a unit, which is not empty. -/
theorem saysUnit_withSuffix (t : Tokens) (h : unit ≠ "") :
    ((t.insert Placeholder.unit unit).withSuffix (some unit)).SaysUnit unit where
  token := Dict.get?_put_self ..
  suffix := by simp [withSuffix, h]

/-- Where the template places the unit, the tokens are put in as they are. -/
theorem lookup_of_mem (h : Placeholder.unit ∈ template.placeholders) (name : String) :
    t.lookup template name = t.get? name := by
  rw [lookup]
  cases t.get? name with
  | none => rfl
  | some text =>
    cases t.suffix <;> simp [Template.contains, h]

/-- Elsewhere the unit is put behind the numbers of the value. -/
theorem SaysUnit.lookup_of_not_mem (hunit : t.SaysUnit unit)
    (h : Placeholder.unit ∉ template.placeholders) (name : String) :
    t.lookup template name = (t.get? name).map (withUnit unit name) := by
  rw [lookup, hunit.suffix]
  simp [Template.contains, h]

end Tokens

/-- A number has the unit that its field declares. -/
theorem Scalar.saysUnit_tokens {f : Field} {unit : String} (hk : f.kind = .number)
    (hunit : f.unit = some unit) (hne : unit ≠ "") (text : String) :
    (tokens f text).SaysUnit unit := by
  rw [tokens, hk, if_pos (by decide), hunit]
  exact Tokens.saysUnit_withSuffix _ hne

/-- A dimension has a unit of its own, or else that of its field. -/
theorem Box.saysUnit_of_resolve? {f : Field} {unit : String} {v : Json} {r : Resolved}
    (hunit : f.unit = some unit) (hne : unit ≠ "") (h : resolve? f v = some r) :
    unitOf f v ≠ "" ∧ r.tokens.SaysUnit (unitOf f v) := by
  have hown : unitOf f v ≠ "" := by
    rw [unitOf, hunit]
    cases hfilter : ((v.field? "unit").bind Json.str?).filter (!·.isEmpty) with
    | none => exact hne
    | some own => simpa using (Option.filter_eq_some_iff.1 hfilter).2
  obtain ⟨t, -, rfl⟩ := resolve?_eq_some h
  rw [hunit]
  exact ⟨hown, Tokens.saysUnit_withSuffix _ hown⟩

namespace Field

variable {f : Field} {stored fallback : Option Json} {r : Resolved} {name : String}

/-- Whatever is resolved in a field with a unit says a unit. -/
theorem exists_saysUnit {declared : String} (hk : f.kind = .number ∨ f.kind = .dimension)
    (hunit : f.unit = some declared) (hne : declared ≠ "")
    (h : f.resolve stored fallback = .ok r) : ∃ unit, unit ≠ "" ∧ r.tokens.SaysUnit unit := by
  rcases resolve_eq_ok_cases h with ⟨v, hv⟩ | ⟨hattributes, rfl⟩
  · rw [resolveShaped?] at hv
    rcases hk with hk | hk
    · rw [hk] at hv
      obtain ⟨text, -, rfl⟩ := Option.map_eq_some_iff.1 hv
      exact ⟨declared, hne, Scalar.saysUnit_tokens hk hunit hne text⟩
    · rw [hk] at hv
      exact ⟨_, Box.saysUnit_of_resolve? hunit hne hv⟩
  · rcases hk with hk | hk
    · exact ⟨declared, hne, Scalar.saysUnit_tokens hk hunit hne ""⟩
    · -- A dimension that is missing has no tokens.
      rw [hk] at hattributes
      cases hattributes

/-- Of the tokens of a resolved value, those of the value and of its sides count as
    such. -/
theorem isValueName_iff (hk : f.kind = .number ∨ f.kind = .dimension)
    (h : f.resolve stored fallback = .ok r) (hknows : r.tokens.Knows name) :
    Tokens.isValueName name = true ↔ name ∈ ofValue := by
  have hname := (knows_of_resolve h).1 hknows
  have hnames : ∀ k ∈ [Kind.number, .dimension], ∀ name ∈ k.tokenNames,
      (Tokens.isValueName name = true ↔ name ∈ ofValue) := by decide +kernel
  exact hnames f.kind (by simpa using hk) name hname

/-- In a resolved value, what a template gets for a token is the token, with the
    unit behind it where the template does not place the unit and the token is a
    number of the value. -/
theorem lookup_eq (hk : f.kind = .number ∨ f.kind = .dimension)
    (h : f.resolve stored fallback = .ok r) {unit : String} (hunit : r.tokens.SaysUnit unit)
    (t : Template) (name : String) :
    r.tokens.lookup t name = (r.tokens.get? name).map fun text =>
      if name ∈ ofValue ∧ Tokens.isNumber text = true ∧ Placeholder.unit ∉ t.placeholders then
        text ++ unit
      else text := by
  by_cases hmem : Placeholder.unit ∈ t.placeholders
  · rw [Tokens.lookup_of_mem hmem]
    simp [hmem]
  · rw [hunit.lookup_of_not_mem hmem]
    cases htext : r.tokens.get? name with
    | none => rfl
    | some text =>
      have hknows : r.tokens.Knows name := by simp [Tokens.Knows, htext]
      simp [Tokens.withUnit, isValueName_iff hk h hknows, hmem]

/-- A placeholder of the value with that for the unit behind it becomes the number
    with its unit, and any other placeholder stays the same. -/
theorem composes_withUnit? (hk : f.kind = .number ∨ f.kind = .dimension)
    (h : f.resolve stored fallback = .ok r) {unit : String} (hunit : r.tokens.SaysUnit unit)
    {t t' : Template} (hwritten : t.UnitWritten t') (hnot : Placeholder.unit ∉ t.placeholders)
    (hname : name ∈ t.placeholders)
    (hnumber : name ∈ ofValue →
      ∃ text, r.tokens.get? name = some text ∧ Tokens.isNumber text = true) :
    Composes withUnit? (r.tokens.lookup t') (r.tokens.lookup t) name := by
  by_cases hvalue : name ∈ ofValue
  · obtain ⟨text, htext, hnumber⟩ := hnumber hvalue
    obtain ⟨edited, hedited, hlist⟩ := withUnit?_of_mem hvalue
    have hlookup := Tokens.lookup_of_mem (t := r.tokens) (hwritten.unit_mem hname hvalue)
    rw [Composes, hedited]
    refine ⟨text ++ unit, ?_, fun cs out hout => ?_⟩
    · rw [lookup_eq hk h hunit, htext, Option.map_some, if_pos ⟨hvalue, hnumber, hnot⟩]
    · rw [hlist, String.toList_append, List.append_assoc, List.append_assoc]
      exact .known (Template.mem_placeholders_iff.1 hname).1 ((hlookup name).trans htext)
        (.known isName_unit ((hlookup _).trans hunit.token) hout)
  · rw [Composes, withUnit?_of_not_mem hvalue]
    simp [lookup_eq hk h hunit, hvalue]

/-- In a field with a unit, a template that does not place the unit has it behind
    the numbers of the value and nowhere else, and a template that places it has it
    nowhere besides. Where all placeholders of the value stand for numbers, this is
    the same as writing the placeholder for the unit directly behind each of them,
    which can be done in one way. -/
theorem unit_said_or_unsaid (haccepted : f.Accepted) {declared : String}
    (hunit : f.unit = some declared) (hne : declared ≠ "")
    (h : f.resolve stored fallback = .ok r) :
    (∀ t : Template, ∃! t', t.UnitWritten t') ∧
    ∃ unit, unit ≠ "" ∧ r.tokens.get? Placeholder.unit = some unit ∧
      (∀ t t' : Template, t.UnitWritten t' → Placeholder.unit ∉ t.placeholders →
        (∀ name ∈ t.placeholders, name ∈ ofValue →
          ∃ text, r.tokens.get? name = some text ∧ Tokens.isNumber text = true) →
        r.tokens.render t = r.tokens.render t') ∧
      ∀ t : Template, r.tokens.render t = t.render fun name => (r.tokens.get? name).map fun text =>
        if name ∈ ofValue ∧ Tokens.isNumber text = true ∧ Placeholder.unit ∉ t.placeholders then
          text ++ unit
        else text := by
  have hk : f.kind = .number ∨ f.kind = .dimension := haccepted.wellFormed.unit (by simp [hunit])
  obtain ⟨unit, hunitNe, hsays⟩ := exists_saysUnit hk hunit hne h
  refine ⟨Template.existsUnique_unitWritten, unit, hunitNe, hsays.token, ?_, fun t => ?_⟩
  · intro t t' hwritten hnot hnumbers
    refine (Template.render_rendered braced_withUnit? hwritten fun name hname => ?_).symm
    exact composes_withUnit? hk h hsays hwritten hnot hname (hnumbers name hname)
  · rw [Tokens.render]
    congr 1
    funext name
    exact lookup_eq hk h hsays t name

/-- A box with a unit. -/
def insetAttributes : List Attribute :=
  [.key "inset", .label "Inset", .unit "px"]

/-- A stored box with another unit. Two of its sides are numbers, and one is left out. -/
def insetValue : Json :=
  .obj [("right", .str "auto"), ("top", .str " 1.5 "), ("unit", .str "em")]

/-- A declaration for the sides that are numbers. -/
def insetTemplate : Template :=
  ⟨"inset: \x7b\x7bVALUE.TOP\x7d\x7d \x7b\x7bVALUE.LEFT\x7d\x7d;"⟩

/-- The same with the unit written out. -/
def insetTemplateWritten : Template :=
  ⟨"inset: \x7b\x7bVALUE.TOP\x7d\x7d\x7b\x7bUNIT\x7d\x7d " ++
    "\x7b\x7bVALUE.LEFT\x7d\x7d\x7b\x7bUNIT\x7d\x7d;"⟩

/-- The stored unit stands behind the two sides in both ways, and not behind the
    side that is a word. -/
theorem inset_said_or_unsaid : ∃ f r, ofAttributes "dimension" insetAttributes = .ok f ∧
    f.unit = some "px" ∧ f.resolve (some insetValue) none = .ok r ∧
    insetTemplate.UnitWritten insetTemplateWritten ∧
    Placeholder.unit ∉ insetTemplate.placeholders ∧
    (∀ name ∈ insetTemplate.placeholders, name ∈ ofValue →
      ∃ text, r.tokens.get? name = some text ∧ Tokens.isNumber text = true) ∧
    r.tokens.render insetTemplate = r.tokens.render insetTemplateWritten ∧
    r.tokens.render insetTemplateWritten = "inset: 1.5em 0em;" ∧
    r.tokens.render ⟨"right: \x7b\x7bVALUE.RIGHT\x7d\x7d;"⟩ = "right: auto;" := by
  obtain ⟨f, hmade, r, hresolve, hunit, htop, hleft, hwritten, hright⟩ : ∃ f,
      ofAttributes "dimension" insetAttributes = .ok f ∧ ∃ r,
        f.resolve (some insetValue) none = .ok r ∧ f.unit = some "px" ∧
          r.tokens.get? "VALUE.TOP" = some "1.5" ∧ r.tokens.get? "VALUE.LEFT" = some "0" ∧
          r.tokens.render insetTemplateWritten = "inset: 1.5em 0em;" ∧
          r.tokens.render ⟨"right: \x7b\x7bVALUE.RIGHT\x7d\x7d;"⟩ = "right: auto;" :=
    ⟨_, rfl, _, rfl, by decide +kernel⟩
  have hplaceholders : insetTemplate.placeholders = ["VALUE.TOP", "VALUE.LEFT"] := by
    decide +kernel
  have hnumbers : ∀ name ∈ insetTemplate.placeholders, name ∈ ofValue →
      ∃ text, r.tokens.get? name = some text ∧ Tokens.isNumber text = true := by
    intro name hname _
    simp only [hplaceholders, List.mem_cons, List.not_mem_nil, or_false] at hname
    rcases hname with rfl | rfl
    · exact ⟨_, htop, by decide +kernel⟩
    · exact ⟨_, hleft, by decide +kernel⟩
  have hout : insetTemplate.UnitWritten insetTemplateWritten :=
    Template.unitWritten_iff.2 (by decide +kernel)
  have hnot : Placeholder.unit ∉ insetTemplate.placeholders := by decide +kernel
  obtain ⟨-, _, -, -, hsame, -⟩ := unit_said_or_unsaid ⟨_, _, hmade⟩ hunit (by decide) hresolve
  exact ⟨f, r, hmade, hunit, hresolve, hout, hnot, hnumbers, hsame _ _ hout hnot hnumbers, hwritten,
    hright⟩

end Field

end ScopedStyle
