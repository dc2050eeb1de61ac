import ScopedStyle.Text.Blank
import ScopedStyle.Text.Lines
import ScopedStyle.Dict
import ScopedStyle.Number.Binary64
import ScopedStyle.Number.Shortest
import ScopedStyle.Number.Numeral
import ScopedStyle.Number.Reading
import ScopedStyle.Json.Basic
import ScopedStyle.Json.Printer
import ScopedStyle.Json.Literal
import ScopedStyle.Json.Lexeme
import ScopedStyle.Json.Raw
import ScopedStyle.Settings.Path
import ScopedStyle.Settings.Tree
import ScopedStyle.Settings.Responsive
import ScopedStyle.Settings.Document
import ScopedStyle.Template.Token
import ScopedStyle.Template.Basic
import ScopedStyle.Template.Strict
import ScopedStyle.Condition.Basic
import ScopedStyle.Condition.Evaluation
import ScopedStyle.Field.Kind
import ScopedStyle.Field.Rule
import ScopedStyle.Field.RuleList
import ScopedStyle.Field.Basic
import ScopedStyle.Field.Attribute
import ScopedStyle.Schema.Basic
import ScopedStyle.Schema.Draft
import ScopedStyle.Schema.Manifest
import ScopedStyle.Schema.Panel
import ScopedStyle.Schema.Effective
import ScopedStyle.Value.Tokens
import ScopedStyle.Value.Resolved
import ScopedStyle.Value.Scalar
import ScopedStyle.Value.Box
import ScopedStyle.Value.Background
import ScopedStyle.Value.Typography
import ScopedStyle.Value.Resolution
import ScopedStyle.Style.Sheet
import ScopedStyle.Style.Config
import ScopedStyle.Style.Selector
import ScopedStyle.Style.Compile
import ScopedStyle.Markup.Escape
import ScopedStyle.Markup.Attributes
import ScopedStyle.Widget.Instance
import ScopedStyle.Widget.Basic
import ScopedStyle.Widget.Heading
import ScopedStyle.Widget.Button
import ScopedStyle.Widget.Spacer
import ScopedStyle.Widget.Catalog
import ScopedStyle.Proofs.Settings.Storage
import ScopedStyle.Proofs.Settings.KeyOrder
import ScopedStyle.Proofs.Field.Accepted
import ScopedStyle.Proofs.Schema.Construction
import ScopedStyle.Proofs.Schema.Addressing
import ScopedStyle.Proofs.Style.Reads
import ScopedStyle.Proofs.Style.StoredDefault
import ScopedStyle.Proofs.Value.Acceptance
import ScopedStyle.Proofs.Schema.Gating
import ScopedStyle.Proofs.Field.Default
import ScopedStyle.Proofs.Markup.Entity
import ScopedStyle.Proofs.Markup.StyleAttribute
import ScopedStyle.Proofs.Style.Locality
import ScopedStyle.Proofs.Style.Cascade
import ScopedStyle.Proofs.Template.Filling
import ScopedStyle.Proofs.Value.Tokens
import ScopedStyle.Proofs.Style.Placeholders
import ScopedStyle.Proofs.Settings.Edits
import ScopedStyle.Proofs.Field.WellFormed
import ScopedStyle.Proofs.Schema.PanelReading
import ScopedStyle.Proofs.Widget.EffectiveTree
import ScopedStyle.Proofs.Template.BracePairs
import ScopedStyle.Proofs.Template.StrictText
import ScopedStyle.Proofs.Field.WrittenRules
import ScopedStyle.Proofs.Style.SheetReading
import ScopedStyle.Proofs.Style.RefusedValue
import ScopedStyle.Proofs.Style.Scoping
import ScopedStyle.Proofs.Widget.DesktopValue
import ScopedStyle.Proofs.Template.Occurrences
import ScopedStyle.Proofs.Template.Rendering
import ScopedStyle.Proofs.Markup.Skeleton
import ScopedStyle.Proofs.Markup.EscapedText
import ScopedStyle.Proofs.Widget.MarkupSkeleton
import ScopedStyle.Proofs.Widget.FilledSheet
import ScopedStyle.Proofs.Schema.Relocation
import ScopedStyle.Proofs.Style.RelocatedOutput
import ScopedStyle.Proofs.Widget.ToggleState
import ScopedStyle.Proofs.Widget.Registration
import ScopedStyle.Proofs.Condition.WrittenForm
import ScopedStyle.Proofs.Schema.PanelIsolation
import ScopedStyle.Proofs.Style.HoverParts
import ScopedStyle.Proofs.Template.Substitution
import ScopedStyle.Proofs.Value.UnsaidUnit
import ScopedStyle.Proofs.Number.CssNumeral
import ScopedStyle.Proofs.Value.NumberText
import ScopedStyle.Proofs.Value.Trimming
import ScopedStyle.Proofs.Value.Composite
import ScopedStyle.Proofs.Value.QuotedAddress
import ScopedStyle.Proofs.Value.Bounds
import ScopedStyle.Proofs.Number.Rounding
import ScopedStyle.Proofs.Number.ShortestDecimal
import ScopedStyle.Proofs.Value.IntegerText
import ScopedStyle.Proofs.Field.AttributeOrder
import ScopedStyle.Proofs.Style.ClosedComment
