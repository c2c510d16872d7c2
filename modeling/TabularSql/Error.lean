import TabularSql.Query.Text
import TabularSql.TableId
import TabularSql.Token.Fault

/-!
# Errors

Everything that can be wrong with a query or with what it is compiled against. An error holds its
cause; its wording is in one place, `ParseError.message` and `CompileError.message`.
-/

namespace TabularSql

set_option autoImplicit false

inductive ParseError where
  | lexical (problem : LexicalProblem) (place : Place)
  | emptyQuery
  | unexpectedToken (expected found : String)
  | unexpectedEnd (expected : String)
  | invalidColumnId (digits : String)
  | missingParameterName
  | invalidRowCount (text : String)
  | invalidTableName (found : String)
  deriving DecidableEq, Repr

namespace ParseError

def message : ParseError → String
  | lexical problem place => "SQL syntax error: " ++ problem.message ++ " at " ++ place.text
  | emptyQuery => "empty query"
  | unexpectedToken expected found =>
      "unexpected token: expected " ++ expected ++ ", found " ++ found
  | unexpectedEnd expected => "unexpected end of query: expected " ++ expected
  | invalidColumnId digits => "invalid literal: " ++ digits
  | missingParameterName => "invalid literal: bind parameter name"
  | invalidRowCount text => "invalid literal: '" ++ text ++ "' is not a valid row count"
  | invalidTableName found => "invalid table name: " ++ found

end ParseError

inductive RequiredInput where
  | schemas
  | description
  | user
  | filterColumn
  | filterValues
  | searchText
  deriving DecidableEq, Repr

namespace RequiredInput

def name : RequiredInput → String
  | schemas => "schemaProvider"
  | description => "indexDescription"
  | user => "userId"
  | filterColumn => "QueryFilter.columnName"
  | filterValues => "QueryFilter.values"
  | searchText => "TextMatchesQueryFilter.searchExpression"

end RequiredInput

inductive ConfigurationProblem where
  | columnWithoutId (column : String) (table : TableId)
  | outputWithoutId (column : String) (commonTable : Identifier)
  | noDescription (table : TableId)
  /-- A virtual table reached again while it is being expanded. -/
  | selfDependent (table : TableId) (chain : List TableId)
  deriving DecidableEq, Repr

namespace ConfigurationProblem

def message : ConfigurationProblem → String
  | columnWithoutId column table => "Column '" ++ column ++ "' of " ++ table.text ++ " has no id"
  | outputWithoutId column commonTable =>
      "Column '" ++ column ++ "' of the defining query of " ++ commonTable.text ++
        " has no column id"
  | noDescription table => "No index description found for " ++ table.text
  | selfDependent table chain =>
      "Virtual table " ++ table.text ++ " depends on itself: " ++
        joinTexts " -> " (chain.map TableId.text) ++ " -> " ++ table.text

end ConfigurationProblem

inductive FacetProblem where
  | noColumn (column : String)
  | notFaceted (column : String)
  | noSubColumn (column path : String)
  | unexpectedPath (requested : Option String) (offered : List String)
  deriving DecidableEq, Repr

namespace FacetProblem

def message : FacetProblem → String
  | noColumn column => "Facet column '" ++ column ++ "' does not exist in the schema"
  | notFaceted column => "Column '" ++ column ++ "' is not faceted"
  | noSubColumn column path => "Column '" ++ column ++ "' has no JSON sub-column at '" ++ path ++ "'"
  | unexpectedPath requested offered =>
      "Unexpected facet request jsonPath (Was '" ++ requested.getD "null" ++ "', Expected '" ++
        joinTexts "', '" offered ++ "')"

end FacetProblem

inductive UnsupportedConstruct where
  | union
  | join
  | commonTables
  | definingFilterOnGroups
  | groupsOverView
  | definingFilter
  deriving DecidableEq, Repr

namespace UnsupportedConstruct

def message : UnsupportedConstruct → String
  | union => "The UNION keyword is not supported in this context"
  | join => "The JOIN keyword is not supported in this context"
  | commonTables => "A CTE must have one and only one inner query."
  | definingFilterOnGroups =>
      "The DEFINING_WHERE cannot be used with a defining SQL that includes a GROUP BY"
  | groupsOverView =>
      "The defining SQL cannot include a GROUP BY or aggregation when it depends on a view"
  | definingFilter => "The DEFINING_WHERE is only supported for virtual tables"

end UnsupportedConstruct

inductive ListForm where
  | has
  | hasLike
  | unnest
  deriving DecidableEq, Repr

namespace ListForm

def text : ListForm → String
  | has => "The HAS keyword"
  | hasLike => "The HAS_LIKE keyword"
  | unnest => "UNNEST()"

end ListForm

inductive OperandProblem where
  | subquery
  | notInSchema (form : ListForm)
  | notList (form : ListForm)
  | noValues (form : ListForm)
  | notDouble (test : DoubleTest)
  | facetKind (column : String) (kind : FacetKind)
  deriving DecidableEq, Repr

namespace OperandProblem

def message : OperandProblem → String
  | subquery => "Subqueries are not supported"
  | notInSchema form => form.text ++ " may only be used on columns defined in the schema"
  | notList form => form.text ++ " only works for columns that hold list values"
  | noValues form => form.text ++ " requires at least one value"
  | notDouble test =>
      "Function: " ++ test.text ++ " can only be used with a column of type DOUBLE."
  | facetKind column kind =>
      "Facet '" ++ column ++ "' is of type " ++ kind.name ++ " and does not accept this request"

end OperandProblem

inductive CompileError where
  | missing (input : RequiredInput)
  | configuration (problem : ConfigurationProblem)
  | columnDoesNotExist (column : String)
  | ambiguousColumn (column : String)
  | unknownTable (table : TableId)
  | unresolvedFacet (problem : FacetProblem)
  | unsupported (construct : UnsupportedConstruct)
  | invalidOperand (problem : OperandProblem)
  | malformed (error : ParseError)
  | invalidTableId (text : String)
  | unknownColumnType (text : String)
  deriving DecidableEq, Repr

inductive ErrorKind where
  | configuration
  | unresolvedIdentifier
  | unsupported
  | malformed
  deriving DecidableEq, Repr

namespace CompileError

def message : CompileError → String
  | missing input => input.name ++ " is required."
  | configuration problem => problem.message
  | columnDoesNotExist column => "Column does not exist: " ++ column
  | ambiguousColumn column => "Column name is ambiguous: " ++ column
  | unknownTable table => "Schema for " ++ table.text ++ " does not exist"
  | unresolvedFacet problem => problem.message
  | unsupported construct => construct.message
  | invalidOperand problem => problem.message
  | malformed error => error.message
  | invalidTableId text => "invalid table identifier: '" ++ text ++ "'"
  | unknownColumnType text => "unknown column type: '" ++ text ++ "'"

def kind : CompileError → ErrorKind
  | missing _ | configuration _ | invalidTableId _ | unknownColumnType _ => .configuration
  | columnDoesNotExist _ | ambiguousColumn _ | unknownTable _ | unresolvedFacet _
  | invalidOperand _ => .unresolvedIdentifier
  | unsupported _ => .unsupported
  | malformed _ => .malformed

end CompileError

def TableId.parse (text : String) : Except CompileError TableId :=
  match TableId.ofText? text with
  | some table => .ok table
  | none => .error (.invalidTableId text)

def ColumnType.parse (text : String) : Except CompileError ColumnType :=
  match ColumnType.ofText? text with
  | some type => .ok type
  | none => .error (.unknownColumnType text)

end TabularSql
