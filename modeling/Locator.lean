import Locator.CommandLine.Arguments
import Locator.CommandLine.Command
import Locator.CommandLine.Run
import Locator.Convert.Error
import Locator.Convert.ToCss
import Locator.Convert.ToXPath
import Locator.Css.Compound
import Locator.Css.Literal
import Locator.Css.Query
import Locator.Css.Selector
import Locator.Css.Token
import Locator.Document.Basic
import Locator.Document.Markup
import Locator.Document.Node
import Locator.Document.Scope
import Locator.Document.Thing
import Locator.Failure
import Locator.Generator.Basic
import Locator.Generator.Heuristic
import Locator.Generator.Resolve
import Locator.Html.Element
import Locator.Html.Read
import Locator.Html.Reference
import Locator.Html.ReferenceTable
import Locator.Html.Token
import Locator.Html.Tree
import Locator.Journal
import Locator.Load.Address
import Locator.Load.Basic
import Locator.Load.Browser
import Locator.Load.File
import Locator.Lookup
import Locator.Main
import Locator.Options
import Locator.Printing
import Locator.Range.Basic
import Locator.Range.Selection
import Locator.Text.Basic
import Locator.Text.Class
import Locator.Text.PrintTable
import Locator.Text.Quoted
import Locator.Text.TopLevel
import Locator.Text.WordTable
import Locator.Uniqueness
import Locator.Value
import Locator.XPath.Axis
import Locator.XPath.Eval
import Locator.XPath.Expr
import Locator.XPath.Function
import Locator.XPath.Literal
import Locator.XPath.Normal
import Locator.XPath.Number
import Locator.XPath.Read
import Locator.XPath.Result
import Locator.XPath.Select
import Locator.Proofs.Generator.RoundTrip
import Locator.Proofs.Css.Meaning
import Locator.Proofs.Document.Regular
import Locator.Proofs.Generator.Below
import Locator.Proofs.Generator.Shortest
import Locator.Proofs.Range.Text
import Locator.Proofs.Uniqueness.Exact
import Locator.Proofs.Convert.Compound
import Locator.Proofs.Convert.Condition
import Locator.Proofs.Convert.Group
import Locator.Proofs.Convert.List
import Locator.Proofs.Convert.Path
import Locator.Proofs.Css.Condition
import Locator.Proofs.Css.Series
import Locator.Proofs.Convert.Branch
import Locator.Proofs.Convert.Level
import Locator.Proofs.Convert.Meaning
import Locator.Proofs.Convert.Ordinary
import Locator.Proofs.Convert.Spaced
import Locator.Proofs.XPath.Token
import Locator.Proofs.Convert.Rejected
import Locator.Proofs.Generator.Accepted
import Locator.Proofs.Generator.Hooks
import Locator.Proofs.Convert.WellFormed
import Locator.Proofs.Generator.Registry
import Locator.Proofs.Generator.Silent
import Locator.Proofs.XPath.Faithful
import Locator.Proofs.Convert.Selection
import Locator.Proofs.Convert.Sound
import Locator.Proofs.Convert.Union
import Locator.Proofs.Convert.Words
import Locator.Proofs.Html.Bare
import Locator.Proofs.Generator.Obstacle
import Locator.Proofs.CommandLine.Endings
import Locator.Proofs.CommandLine.Journal
import Locator.Proofs.Css.Test
import Locator.Proofs.Css.Loose
import Locator.Proofs.Css.Bracket
import Locator.Proofs.Css.Stop
import Locator.Proofs.Css.Broken
import Locator.Proofs.Convert.Placed
import Locator.Proofs.Convert.Loose
import Locator.Proofs.Convert.Untyped
import Locator.Proofs.Convert.Valid
import Locator.Proofs.Range.Containing
import Locator.Proofs.Generator.Common
import Locator.Proofs.XPath.NormalForm
import Locator.Proofs.Generator.Answers
import Locator.Proofs.Generator.Selected
import Locator.Proofs.Options
import Locator.Proofs.Generator.Blank
import Locator.Proofs.Uniqueness.Lookup
import Locator.Proofs.XPath.Named
import Locator.Proofs.Generator.Keyed
import Locator.Proofs.Lookup.Class
import Locator.Proofs.Text.Enclosed
import Locator.Proofs.Convert.Layout
import Locator.Proofs.Convert.Listed
import Locator.Proofs.Load.Failing
import Locator.Proofs.Convert.Slashes
import Locator.Proofs.Load.Secure
import Locator.Proofs.Uniqueness.Bearers
