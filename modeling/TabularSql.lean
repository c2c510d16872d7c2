import TabularSql.Binding
import TabularSql.Column.Model
import TabularSql.Column.Size
import TabularSql.Column.Type
import TabularSql.Combined.Facet
import TabularSql.Combined.Filter
import TabularSql.Combined.Query
import TabularSql.Combined.Sort
import TabularSql.Context
import TabularSql.Description
import TabularSql.Error
import TabularSql.Lowering
import TabularSql.Number.Double
import TabularSql.Number.Shortest
import TabularSql.Number.Word
import TabularSql.Output
import TabularSql.Page
import TabularSql.Parameter
import TabularSql.Part
import TabularSql.Physical
import TabularSql.Proofs.Combined
import TabularSql.Proofs.Identifiers
import TabularSql.Proofs.Lowering.Aliases
import TabularSql.Proofs.Lowering.Alignment
import TabularSql.Proofs.Lowering.Benefactors
import TabularSql.Proofs.Lowering.Collisions
import TabularSql.Proofs.Lowering.Comparisons
import TabularSql.Proofs.Lowering.Contexts
import TabularSql.Proofs.Lowering.Expansion
import TabularSql.Proofs.Lowering.Facets
import TabularSql.Proofs.Lowering.Forms
import TabularSql.Proofs.Lowering.Framing
import TabularSql.Proofs.Lowering.Groups
import TabularSql.Proofs.Lowering.Literals
import TabularSql.Proofs.Lowering.Metadata
import TabularSql.Proofs.Lowering.Names
import TabularSql.Proofs.Lowering.Notes
import TabularSql.Proofs.Lowering.Pages
import TabularSql.Proofs.Lowering.Parameters
import TabularSql.Proofs.Lowering.Precedence
import TabularSql.Proofs.Lowering.Qualifiers
import TabularSql.Proofs.Lowering.References
import TabularSql.Proofs.Lowering.Searches
import TabularSql.Proofs.Lowering.Shadows
import TabularSql.Proofs.Lowering.Statements
import TabularSql.Proofs.Lowering.Tables
import TabularSql.Proofs.Lowering.Virtual
import TabularSql.Proofs.Lowering.Written
import TabularSql.Proofs.Narrowing
import TabularSql.Proofs.Overrides
import TabularSql.Proofs.Paging
import TabularSql.Proofs.Progress
import TabularSql.Proofs.Rereading
import TabularSql.Proofs.RoundTrip
import TabularSql.Proofs.RowCount
import TabularSql.Proofs.Selection
import TabularSql.Proofs.Settled
import TabularSql.Proofs.Sizing
import TabularSql.Proofs.Costs
import TabularSql.Proofs.Stability
import TabularSql.Proofs.Weighing
import TabularSql.Proofs.Wire.Formats
import TabularSql.Query.Basic
import TabularSql.Query.Equality
import TabularSql.Query.Grammar
import TabularSql.Query.Text
import TabularSql.Query.View
import TabularSql.Schema
import TabularSql.Statement.Compile
import TabularSql.Statement.Inspect
import TabularSql.Statement.Plan
import TabularSql.TableId
import TabularSql.Text.Alphabetic
import TabularSql.Text.Ascii
import TabularSql.Text.Blank
import TabularSql.Text.CodePoint
import TabularSql.Text.Numeric
import TabularSql.Text.Printable
import TabularSql.Text.Quoted
import TabularSql.Token.Basic
import TabularSql.Token.Fault
import TabularSql.Token.Scan
import TabularSql.Typing
import TabularSql.Wire.Format
import TabularSql.Wire.Json
import TabularSql.Wire.Options
import TabularSql.Wire.Read
import TabularSql.Wire.Tree
import TabularSql.Wire.Value
