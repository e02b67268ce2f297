import StyleObjects.Command.Answer
import StyleObjects.Command.Arguments
import StyleObjects.Command.Report
import StyleObjects.Command.Workspace
import StyleObjects.Compile.Compilation
import StyleObjects.Compile.Log
import StyleObjects.Compile.Lowering
import StyleObjects.Compile.Options
import StyleObjects.Compile.Output
import StyleObjects.Compile.Plan
import StyleObjects.Compile.Session
import StyleObjects.Compile.Step
import StyleObjects.Compile.Wire
import StyleObjects.Error
import StyleObjects.Json.Basic
import StyleObjects.Json.Printer
import StyleObjects.Json.Reader
import StyleObjects.Main
import StyleObjects.Media.Match
import StyleObjects.Media.Parser
import StyleObjects.Media.Query
import StyleObjects.Media.Validation
import StyleObjects.Number.Binary64
import StyleObjects.Number.Numeral
import StyleObjects.Number.Reading
import StyleObjects.Number.Shortest
import StyleObjects.Proofs.Compile.Account
import StyleObjects.Proofs.Compile.Agreement
import StyleObjects.Proofs.Compile.Cascade
import StyleObjects.Proofs.Compile.Collision
import StyleObjects.Proofs.Compile.Containment
import StyleObjects.Proofs.Compile.Content
import StyleObjects.Proofs.Compile.Entry
import StyleObjects.Proofs.Compile.Frames
import StyleObjects.Proofs.Compile.Growth
import StyleObjects.Proofs.Compile.Interruption
import StyleObjects.Proofs.Compile.Json
import StyleObjects.Proofs.Compile.LineHeight
import StyleObjects.Proofs.Compile.Lookup
import StyleObjects.Proofs.Compile.Media
import StyleObjects.Proofs.Compile.Occurrence
import StyleObjects.Proofs.Compile.Orthogonality
import StyleObjects.Proofs.Compile.Place
import StyleObjects.Proofs.Compile.Record
import StyleObjects.Proofs.Compile.References
import StyleObjects.Proofs.Compile.Refusal
import StyleObjects.Proofs.Compile.Replacement
import StyleObjects.Proofs.Compile.Run
import StyleObjects.Proofs.Compile.SelectorKeys
import StyleObjects.Proofs.Compile.Sides
import StyleObjects.Proofs.Compile.StyleKey
import StyleObjects.Proofs.Compile.Wire
import StyleObjects.Proofs.Lists
import StyleObjects.Proofs.Media.Counts
import StyleObjects.Proofs.Media.Dimensions
import StyleObjects.Proofs.Media.Expressions
import StyleObjects.Proofs.Media.Faults
import StyleObjects.Proofs.Media.Joints
import StyleObjects.Proofs.Media.Lists
import StyleObjects.Proofs.Media.RoundTrip
import StyleObjects.Proofs.Media.Types
import StyleObjects.Proofs.Media.Written
import StyleObjects.Proofs.Number.Decimal
import StyleObjects.Proofs.Number.Integers
import StyleObjects.Proofs.Number.RoundTrip
import StyleObjects.Proofs.Number.Rounding
import StyleObjects.Proofs.Number.Scanning
import StyleObjects.Proofs.Number.Whole
import StyleObjects.Proofs.Style.Aligned
import StyleObjects.Proofs.Style.Borders
import StyleObjects.Proofs.Style.Causes
import StyleObjects.Proofs.Style.Commas
import StyleObjects.Proofs.Style.Conversion
import StyleObjects.Proofs.Style.Filled
import StyleObjects.Proofs.Style.Integers
import StyleObjects.Proofs.Style.Keys
import StyleObjects.Proofs.Style.Measures
import StyleObjects.Proofs.Style.Names
import StyleObjects.Proofs.Style.Numbers
import StyleObjects.Proofs.Style.Outcome
import StyleObjects.Proofs.Style.Pixels
import StyleObjects.Proofs.Style.Rem
import StyleObjects.Proofs.Style.Separators
import StyleObjects.Proofs.Style.Slots
import StyleObjects.Proofs.Style.Transforms
import StyleObjects.Proofs.Style.Translated
import StyleObjects.Proofs.Style.Units
import StyleObjects.Proofs.Style.Values
import StyleObjects.Proofs.Style.Viewport
import StyleObjects.Proofs.Style.Words
import StyleObjects.Proofs.Stylesheet.Accepted
import StyleObjects.Proofs.Stylesheet.Built
import StyleObjects.Proofs.Stylesheet.Canonical
import StyleObjects.Proofs.Stylesheet.CommentedKeyframes
import StyleObjects.Proofs.Stylesheet.Comments
import StyleObjects.Proofs.Stylesheet.Composition
import StyleObjects.Proofs.Stylesheet.Cutting
import StyleObjects.Proofs.Stylesheet.Declared
import StyleObjects.Proofs.Stylesheet.Groups
import StyleObjects.Proofs.Stylesheet.Keyframes
import StyleObjects.Proofs.Stylesheet.Leaving
import StyleObjects.Proofs.Stylesheet.Lexing
import StyleObjects.Proofs.Stylesheet.Positions
import StyleObjects.Proofs.Stylesheet.Properties
import StyleObjects.Proofs.Stylesheet.Queries
import StyleObjects.Proofs.Stylesheet.Quoted
import StyleObjects.Proofs.Stylesheet.Reading
import StyleObjects.Proofs.Stylesheet.Relabelling
import StyleObjects.Proofs.Stylesheet.RoundTrip
import StyleObjects.Proofs.Stylesheet.Seams
import StyleObjects.Proofs.Stylesheet.SelectorLists
import StyleObjects.Proofs.Stylesheet.Selectors
import StyleObjects.Proofs.Stylesheet.Settled
import StyleObjects.Proofs.Stylesheet.Uncommented
import StyleObjects.Proofs.Stylesheet.Values
import StyleObjects.Proofs.Stylesheet.Written
import StyleObjects.Proofs.Table
import StyleObjects.Proofs.Text.Blanks
import StyleObjects.Proofs.Text.Globs
import StyleObjects.Proofs.Text.Splitting
import StyleObjects.Style.Animation
import StyleObjects.Style.Key
import StyleObjects.Style.Measure
import StyleObjects.Style.Rem
import StyleObjects.Style.Scalar
import StyleObjects.Style.Shorthand.Border
import StyleObjects.Style.Shorthand.Box
import StyleObjects.Style.Shorthand.Decoration
import StyleObjects.Style.Shorthand.Flex
import StyleObjects.Style.Shorthand.Shadow
import StyleObjects.Style.Shorthand.Single
import StyleObjects.Style.Transform
import StyleObjects.Style.Translation
import StyleObjects.Style.Value
import StyleObjects.Style.Words
import StyleObjects.Stylesheet.Basic
import StyleObjects.Stylesheet.Comment
import StyleObjects.Stylesheet.Keyframes
import StyleObjects.Stylesheet.Order
import StyleObjects.Stylesheet.Parser
import StyleObjects.Stylesheet.Selector
import StyleObjects.Stylesheet.Token
import StyleObjects.Table
import StyleObjects.Text.Blank
import StyleObjects.Text.Case
import StyleObjects.Text.CaseTable
import StyleObjects.Text.ControlSequence
import StyleObjects.Text.DecimalDigit
import StyleObjects.Text.Glob
import StyleObjects.Text.Printable
import StyleObjects.Text.Quoted
import StyleObjects.Text.Range
import StyleObjects.Text.Split
import StyleObjects.Text.Word
import StyleObjects.Proofs.Json.Leaves
import StyleObjects.Proofs.Json.RoundTrip
import StyleObjects.Proofs.Json.Grammar
import StyleObjects.Proofs.Json.Validity
