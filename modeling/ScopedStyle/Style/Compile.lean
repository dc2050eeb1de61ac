import ScopedStyle.Schema.Effective
import ScopedStyle.Style.Config
import ScopedStyle.Style.Selector
import ScopedStyle.Value.Resolution

/-!
# Compilation

The style sheet of a widget instance has, in declaration order, the blocks of
every field that has rules and whose condition holds. A field is resolved at the
desktop and, if it is responsive, at each narrower breakpoint that its stored
value has an entry for; without a stored value the default decides. Desktop
rules stand by themselves, the others in a media block of their breakpoint.

A field that cannot be resolved at a breakpoint has no rules there, and the
others are not affected.
-/

namespace ScopedStyle

namespace Field

/-- The breakpoints at which a field is resolved. -/
def breakpoints (f : Field) (stored : Option Responsive) : List Breakpoint :=
  if f.responsive then
    let decisive := stored.getD (.ofStored f.default)
    Breakpoint.all.filter fun b => b = .desktop || (decisive.get? b).isSome
  else [.desktop]

/-- The contribution of a field at a breakpoint. -/
def resolveAt (f : Field) (stored : Option Responsive) (b : Breakpoint) :
    Except Resolution.Error Resolved :=
  f.resolve (stored.bind (·.get? b)) ((Responsive.ofStored f.default).get? b)

end Field

/-- A selector with that of the widget instance put in. -/
def Template.within (t : Template) (wrapper : String) : String :=
  t.render fun name => if name = Placeholder.wrapper then some wrapper else none

/-- Declarations for every one of a list of selectors, if there are any. -/
def StyleRule.composed (ds : List Declaration) (selectors : List String) : List StyleRule :=
  if ds.isEmpty then [] else selectors.map (⟨·, Declaration.joined ds⟩)

/-- The rules that a value makes of a rule of its field. -/
def Rule.styleRules (r : Rule) (v : Resolved) (wrapper : String) : List StyleRule :=
  match r with
  | .declared selector body => [⟨selector.within wrapper, v.tokens.render body⟩]
  | .composed selectors =>
    let plain := selectors.map (·.within wrapper)
    StyleRule.composed v.declarations plain ++
      StyleRule.composed v.hover (plain.map Selector.hover)

namespace Field

/-- The rules of a field for one of its values. -/
def styleRules (f : Field) (v : Resolved) (wrapper : String) : List StyleRule :=
  f.rules.flatMap (·.styleRules v wrapper)

/-- The blocks of a field at a breakpoint. -/
def blocksAt (f : Field) (stored : Option Responsive) (w : Widths) (wrapper : String)
    (b : Breakpoint) : List Block :=
  match f.resolveAt stored b with
  | .error _ => []
  | .ok v =>
    let rules := f.styleRules v wrapper
    match w.maxWidth? b with
    | none => rules.map .rule
    | some maxWidth => if rules.isEmpty then [] else [.media maxWidth rules]

/-- The blocks of a field with the given stored value. -/
def blocks (f : Field) (stored : Option Json) (w : Widths) (wrapper : String) : List Block :=
  let stored := stored.map Responsive.ofStored
  (f.breakpoints stored).flatMap (f.blocksAt stored w wrapper)

end Field

namespace Entry

/-- The comment in front of blocks, if there are any and comments are on. -/
def comment (e : Entry) (c : Config) (blocks : List Block) : List Block :=
  if c.comments && !blocks.isEmpty then [.comment e.path.toText] else []

/-- The blocks that a field adds to a sheet. -/
def blocks (e : Entry) (s : Schema) (t : Tree) (c : Config) (wrapper : String) : List Block :=
  if !e.field.rules.isEmpty && e.active s t then
    let blocks := e.field.blocks (t.get? e.path) c.breakpoints wrapper
    e.comment c blocks ++ blocks
  else []

end Entry

/-- The style sheet of a widget instance for one schema. -/
def Schema.compile (s : Schema) (t : Tree) (c : Config) (id : String)
    (sectionId : Option String) : Sheet :=
  s.entries.flatMap (·.blocks s t c (Selector.wrapper id sectionId))

end ScopedStyle
