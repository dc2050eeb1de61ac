import ScopedStyle.Field.Basic
import ScopedStyle.Settings.Responsive

/-!
# Attributes of fields

A field is declared by its kind and a list of attributes. Of an attribute that
is given more than once the last one counts, but for rules, which add up.

Every attribute is checked against the kind by itself (`Attribute.problem?`),
also one that a later attribute replaces; of several problems the first one is
reported. What involves more than one attribute is checked on the whole: the
order of the bounds, and the default against the kind, the options and whether
the field is responsive.
-/

namespace ScopedStyle

/-- One attribute of a field. -/
inductive Field.Attribute where
  /-- The key. -/
  | key (s : String)
  /-- The label. -/
  | label (s : String)
  /-- The help text. -/
  | description (s : String)
  /-- The default, `null` for none. -/
  | default (value : Json)
  /-- The unit. -/
  | unit (s : String)
  /-- The least number. -/
  | min (x : Binary64)
  /-- The greatest number. -/
  | max (x : Binary64)
  /-- The step of the control. -/
  | step (x : Binary64)
  /-- The options. -/
  | options (choices : List Choice)
  /-- Whether the value may vary by breakpoint. -/
  | responsive (b : Bool)
  /-- The condition. -/
  | condition (c : Condition)
  /-- One more rule. -/
  | rule (r : Rule)
  /-- All rules, in place of those before. -/
  | rules (rs : List Rule)
  /-- The axis. -/
  | axis (a : Axis)
  /-- The class for the markup. -/
  | classTemplate (t : Template)
  /-- The declaration for the markup. -/
  | styleTemplate (t : Template)

namespace Field

/-- What is wrong with a field. -/
inductive Problem where
  /-- There is no kind with the name. -/
  | unknownKind (name : String)
  /-- The key is not one segment of a path. -/
  | malformedKey
  /-- The kind has no unit. -/
  | noUnit (k : Kind)
  /-- The kind has no bound of this name. -/
  | noBound (k : Kind) (bound : String)
  /-- The kind has no options. -/
  | noOptions (k : Kind)
  /-- The kind cannot vary by breakpoint. -/
  | notResponsive (k : Kind)
  /-- The kind styles nothing. -/
  | noRules (k : Kind)
  /-- A selector has a placeholder other than that of the wrapper. -/
  | strangeSelector (selector : Template) (name : String)
  /-- The kind writes no declarations of its own. -/
  | needsBody (k : Kind)
  /-- The kind writes its own declarations. -/
  | needsNoBody (k : Kind)
  /-- The kind has no token of this name. -/
  | unknownToken (k : Kind) (name : String)
  /-- The kind has no axis. -/
  | noAxis (k : Kind)
  /-- The kind does not contribute to the attribute of this name. -/
  | noMarkup (k : Kind) (markup : String)
  /-- The least number is above the greatest. -/
  | crossedBounds (min max : Binary64)
  /-- The step is zero or negative. -/
  | badStep (x : Binary64)
  /-- A default has the wrong shape. -/
  | badDefault (k : Kind) (value : Json)
  /-- A default is none of the options. -/
  | badChoice (choice : String)

/-- The wording of a problem. -/
def Problem.message : Problem → String
  | .unknownKind name => s!"unknown field type `{name}`"
  | .malformedKey => "keys may not contain `.` or whitespace"
  | .noUnit k => "`" ++ k.name ++ "` fields do not take a unit"
  | .noBound k bound => "`" ++ k.name ++ s!"` fields do not take `{bound}`"
  | .noOptions k => "`" ++ k.name ++ "` fields are not choice fields and take no options"
  | .notResponsive k => "`" ++ k.name ++ "` fields cannot be responsive"
  | .noRules k => "`" ++ k.name ++ "` fields are render-only and take no selectors"
  | .strangeSelector selector name =>
    "selector `" ++ selector.source ++ "` may only use " ++
      Placeholder.writtenText Placeholder.wrapper ++ ", found " ++ Placeholder.writtenText name
  | .needsBody k => "`" ++ k.name ++ "` fields need a declaration template, not a composite rule"
  | .needsNoBody k =>
    "`" ++ k.name ++ "` fields write their own declarations; use a composite rule"
  | .unknownToken k name =>
    "`" ++ k.name ++ "` fields do not produce " ++ Placeholder.writtenText name
  | .noAxis k => "`" ++ k.name ++ "` fields have no alignment axis"
  | .noMarkup k markup => "`" ++ k.name ++ s!"` fields cannot map to the {markup} attribute"
  | .crossedBounds min max =>
    "min (" ++ min.toText ++ ") is greater than max (" ++ max.toText ++ ")"
  | .badStep x => "step must be positive, got " ++ x.toText
  | .badDefault k value =>
    "default " ++ value.toText ++ " does not fit a `" ++ k.name ++ "` field"
  | .badChoice choice => s!"default `{choice}` is not one of the options"

/-- An attribute that every field has. -/
inductive Required where
  /-- The key. -/
  | key
  /-- The label. -/
  | label
  deriving DecidableEq

/-- The name of a required attribute. -/
def Required.name : Required → String
  | .key => "key"
  | .label => "label"

/-- What stands for the key of a field without one. -/
def unnamed : String := "<unnamed>"

/-- Why a field cannot be made. -/
inductive Error where
  /-- The field with the key has a problem. -/
  | invalid (key : String) (problem : Problem)
  /-- A required attribute is missing or empty. -/
  | missing (what : Required) (key : Option String)

/-- The wording of an error. -/
def Error.message : Error → String
  | .invalid key problem => s!"invalid field definition `{key}`: " ++ problem.message
  | .missing what key =>
    "field `" ++ key.getD unnamed ++ "` is missing required attribute `" ++ what.name ++ "`"

/-- The first placeholder of a template that a kind has no token for. -/
def strangeToken? (k : Kind) (t : Template) : Option Problem :=
  (t.placeholders.find? (!k.tokenNames.contains ·)).map (.unknownToken k)

/-- The first placeholder of a selector that is not that of the wrapper. -/
def strangeSelector? (t : Template) : Option Problem :=
  (t.placeholders.find? (· ≠ Placeholder.wrapper)).map (.strangeSelector t)

/-- What is wrong with a rule of a field of a kind. -/
def ruleProblem? (k : Kind) (r : Rule) : Option Problem :=
  if k.isStructured then some (.noRules k)
  else r.selectors.findSome? strangeSelector? <|>
    match r with
    | .composed _ => if k.isComposite then none else some (.needsBody k)
    | .declared _ body =>
      if k.tokenNames.isEmpty then some (.needsNoBody k) else strangeToken? k body

/-- What is wrong with a template for an attribute of the markup. -/
def markupProblem? (k : Kind) (markup : String) (t : Template) : Option Problem :=
  if k.takesAttributes then strangeToken? k t else some (.noMarkup k markup)

/-- What is wrong with an attribute of a field of a kind. -/
def Attribute.problem? (k : Kind) : Attribute → Option Problem
  | .unit _ => if k.takesUnit then none else some (.noUnit k)
  | .min _ => if k.takesBounds then none else some (.noBound k "min")
  | .max _ => if k.takesBounds then none else some (.noBound k "max")
  | .step _ => if k.takesBounds then none else some (.noBound k "step")
  | .options _ => if k.isChoice then none else some (.noOptions k)
  | .responsive b => if b && k.isStructured then some (.notResponsive k) else none
  | .rule r => ruleProblem? k r
  | .rules rs => rs.findSome? (ruleProblem? k)
  | .axis _ => if k = .alignment then none else some (.noAxis k)
  | .classTemplate t => markupProblem? k "class" t
  | .styleTemplate t => markupProblem? k "style" t
  | .key _ | .label _ | .description _ | .default _ | .condition _ => none

/-- What a list of attributes declares. -/
structure Declared where
  /-- The key. -/
  key : Option String
  /-- The label. -/
  label : Option String
  /-- The help text. -/
  description : Option String
  /-- The default, `null` for none. -/
  default : Json
  /-- The unit. -/
  unit : Option String
  /-- The least number. -/
  min : Option Binary64
  /-- The greatest number. -/
  max : Option Binary64
  /-- The step of the control. -/
  step : Option Binary64
  /-- The options. -/
  options : List Choice
  /-- Whether the value may vary by breakpoint. -/
  responsive : Bool
  /-- The condition. -/
  condition : Option Condition
  /-- The rules. -/
  rules : List Rule
  /-- The axis, if the kind has one. -/
  axis : Axis
  /-- The class for the markup. -/
  classTemplate : Option Template
  /-- The declaration for the markup. -/
  styleTemplate : Option Template

namespace Declared

/-- What no attributes declare. -/
def nothing : Declared where
  key := none
  label := none
  description := none
  default := .null
  unit := none
  min := none
  max := none
  step := none
  options := []
  responsive := false
  condition := none
  rules := []
  axis := .text
  classTemplate := none
  styleTemplate := none

/-- What is declared with one more attribute. -/
def add (d : Declared) : Attribute → Declared
  | .key s => { d with key := some s }
  | .label s => { d with label := some s }
  | .description s => { d with description := some s }
  | .default value => { d with default := value }
  | .unit s => { d with unit := some s }
  | .min x => { d with min := some x }
  | .max x => { d with max := some x }
  | .step x => { d with step := some x }
  | .options choices => { d with options := choices }
  | .responsive b => { d with responsive := b }
  | .condition c => { d with condition := some c }
  | .rule r => { d with rules := d.rules ++ [r] }
  | .rules rs => { d with rules := rs }
  | .axis a => { d with axis := a }
  | .classTemplate t => { d with classTemplate := some t }
  | .styleTemplate t => { d with styleTemplate := some t }

/-- What a list of attributes declares. -/
def ofAttributes (attributes : List Attribute) : Declared :=
  attributes.foldl add nothing

/-- The default values: of a responsive field the entries of its default. -/
def defaults (d : Declared) : List Json :=
  if d.responsive && Responsive.isMap d.default then
    (d.default.entries.map (·.2)).filterMap Json.nonNull?
  else d.default.nonNull?.toList

/-- Bounds in the wrong order. -/
def boundsProblem? (d : Declared) : Option Problem :=
  match d.min, d.max with
  | some min, some max => if max.below min then some (.crossedBounds min max) else none
  | _, _ => none

/-- A step that leads nowhere. -/
def stepProblem? (d : Declared) : Option Problem :=
  match d.step with
  | some x => if x.below .zero || x.same .zero then some (.badStep x) else none
  | none => none

/-- A default that does not have the shape of the kind. -/
def shapeProblem? (d : Declared) (k : Kind) : Option Problem :=
  (d.defaults.find? (!k.accepts ·)).map (.badDefault k)

/-- The choice that a default is: its text, or that of the value. -/
def choiceOf (value : Json) : String :=
  value.str?.getD value.toText

/-- A default of a choice that is not one of the options. -/
def choiceProblem? (d : Declared) (k : Kind) : Option Problem :=
  if k.isChoice then
    ((d.defaults.map choiceOf).find? (!choiceAllowed k d.options ·)).map .badChoice
  else none

/-- What is wrong with the declarations of a field of a kind as a whole. -/
def problem? (d : Declared) (k : Kind) : Option Problem :=
  d.boundsProblem? <|> d.stepProblem? <|> d.shapeProblem? k <|> d.choiceProblem? k

/-- The field of a kind that is declared. -/
def toField (d : Declared) (k : Kind) (key label : String) : Field where
  key
  kind := k
  label
  description := d.description
  default := d.default
  unit := d.unit
  min := d.min
  max := d.max
  step := d.step
  options := d.options
  responsive := d.responsive
  condition := d.condition
  rules := d.rules
  axis := if k = .alignment then some d.axis else none
  classTemplate := d.classTemplate
  styleTemplate := d.styleTemplate

end Declared

/-- The text unless it is empty. -/
def nonEmpty? (s : Option String) : Option String :=
  s.filter (!·.isEmpty)

/-- The field of a kind with the given attributes. -/
def ofKind (k : Kind) (attributes : List Attribute) : Except Error Field :=
  let d := Declared.ofAttributes attributes
  match nonEmpty? d.key, nonEmpty? d.label with
  | none, _ => .error (.missing .key none)
  | some key, label? =>
    if !Path.isKey key then .error (.invalid key .malformedKey)
    else
      match label? with
      | none => .error (.missing .label (some key))
      | some label =>
        match attributes.findSome? (Attribute.problem? k) <|> d.problem? k with
        | some problem => .error (.invalid key problem)
        | none => .ok (d.toField k key label)

/-- The field of the kind with a name and with the given attributes. -/
def ofAttributes (kindName : String) (attributes : List Attribute) : Except Error Field :=
  match Kind.ofName? kindName with
  | some k => ofKind k attributes
  | none =>
    let key? := nonEmpty? (Declared.ofAttributes attributes).key
    .error (.invalid (key?.getD unnamed) (.unknownKind kindName))

end Field

end ScopedStyle
