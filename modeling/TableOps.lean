import TableOps.Text.Blank
import TableOps.Text.Case
import TableOps.Text.Cut
import TableOps.Text.Digits
import TableOps.Text.Printable
import TableOps.Number.Shortest
import TableOps.Value.Equality
import TableOps.Json.Reading
import TableOps.Json.Writing
import TableOps.Value.Written
import TableOps.Reference.Column
import TableOps.Reference.Table
import TableOps.Filter.Conditions
import TableOps.Filter.Reading
import TableOps.Filter.Restriction
import TableOps.Expression.Join
import TableOps.Page
import TableOps.Expression.Basic
import TableOps.Expression.CountCache
import TableOps.Statement.Where
import TableOps.Reference.Stored
import TableOps.Schema.Change
import TableOps.Schema.Table
import TableOps.NativeType
import TableOps.Command.Reading
import TableOps.Statement.Compose
import TableOps.Definition.Change
import TableOps.Definition.Table
import TableOps.Introspection
import TableOps.Settings
import TableOps.Stored.Expressions
import TableOps.Url.Location
import TableOps.Session.Definition
import TableOps.Session.Shorthand
import TableOps.Session.Transaction
import TableOps.Proofs.Entries
import TableOps.Proofs.Except
import TableOps.Proofs.Log
import TableOps.Proofs.Text.Blanks
import TableOps.Proofs.Text.Characters
import TableOps.Proofs.Text.Cuts
import TableOps.Proofs.Text.Doubled
import TableOps.Proofs.Text.Stretches
import TableOps.Proofs.Number.Decimal
import TableOps.Proofs.Text.QuotedPath
import TableOps.Proofs.Reference.Parts
import TableOps.Proofs.Text.Interpolation
import TableOps.Proofs.Command.Reading
import TableOps.Proofs.Command.TwoForms
import TableOps.Proofs.Url.Percent
import TableOps.Proofs.Url.Location
import TableOps.Proofs.NativeType.Parameter
import TableOps.Proofs.NativeType.Postgres
import TableOps.Proofs.NativeType.Mysql
import TableOps.Proofs.NativeType.Respelling
import TableOps.Proofs.Expression.PlainForm
import TableOps.Proofs.Expression.ColumnHistory
import TableOps.Proofs.Filter.Pieces
import TableOps.Proofs.Filter.Members
import TableOps.Proofs.Filter.Assembled
import TableOps.Proofs.Filter.Chosen
import TableOps.Proofs.Filter.Conditions
import TableOps.Proofs.Statement.Placeholders
import TableOps.Proofs.Statement.WriteTarget
import TableOps.Proofs.Statement.Composed
import TableOps.Proofs.Expression.JoinClauses
import TableOps.Proofs.Statement.BoundValues
import TableOps.Proofs.Statement.References
import TableOps.Proofs.Statement.Escaping
import TableOps.Proofs.Statement.Comparisons
import TableOps.Proofs.Statement.PercentFree
import TableOps.Proofs.Statement.Styles
import TableOps.Proofs.Statement.Operators
import TableOps.Proofs.Statement.WriteRestriction
import TableOps.Proofs.Statement.JoinedWrites
import TableOps.Proofs.Session.StatementErrors
import TableOps.Proofs.Session.Effect
import TableOps.Proofs.Session.RouteEffect
import TableOps.Proofs.Session.CommandEffect
import TableOps.Proofs.Session.StepEffect
import TableOps.Proofs.Session.Issued
import TableOps.Proofs.Session.Shorthand
import TableOps.Proofs.Session.Pool
import TableOps.Proofs.Session.Accounting
import TableOps.Proofs.Session.PoolEffect
import TableOps.Proofs.Session.WholeCalls
import TableOps.Proofs.Session.Client
import TableOps.Proofs.Session.Savepoints
import TableOps.Proofs.Session.HeldConnection
import TableOps.Proofs.Session.InsertedKey
import TableOps.Proofs.Session.Exchanges
import TableOps.Proofs.Session.Released
import TableOps.Proofs.Session.Blocks
import TableOps.Proofs.Filter.OwnValues
import TableOps.Proofs.Filter.Truth
import TableOps.Proofs.Filter.Groups
import TableOps.Proofs.Filter.Restricted
import TableOps.Proofs.Filter.Refusals
import TableOps.Proofs.Filter.Printed
import TableOps.Proofs.Statement.ValueShapes
import TableOps.Proofs.Statement.Totals
import TableOps.Proofs.Statement.EqualQueries
import TableOps.Proofs.Session.Plans
import TableOps.Proofs.Session.RememberedTotals
import TableOps.Proofs.Session.PageExchanges
import TableOps.Proofs.Session.ReusedTotals
import TableOps.Proofs.Session.Levels
import TableOps.Proofs.Reference.PlainNames
import TableOps.Proofs.Reference.Forms
import TableOps.Proofs.Statement.ResultNames
import TableOps.Proofs.Statement.FilledNames
import TableOps.Proofs.Session.SchemaCoherence
import TableOps.Proofs.Session.NameHistory
import TableOps.Proofs.Session.RegisteredNames
import TableOps.Proofs.Session.Configuration
import TableOps.Proofs.Result.Transformed
import TableOps.Proofs.Result.Reported
import TableOps.Proofs.Session.ShapedResults
import TableOps.Proofs.Session.LentConnection
import TableOps.Proofs.Session.CommandFrame
import TableOps.Proofs.NativeType.Capacity
import TableOps.Proofs.NativeType.TimeSpellings
import TableOps.Proofs.Definition.Literals
import TableOps.Proofs.Definition.Described
import TableOps.Proofs.Definition.Recreated
import TableOps.Proofs.Definition.Changes
import TableOps.Proofs.Reference.QuotedNames
