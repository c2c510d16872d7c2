import TabularSql.Column.Model
import TabularSql.Number.Word
import TabularSql.Text.Ascii

/-!
# Queries

A query is an optional list of common tables, a first select and further selects joined by UNION. The
same types hold a query over logical names and the lowered statement over physical names; lowering
replaces some forms of expression by others.
-/

namespace TabularSql

set_option autoImplicit false

/-- A name, and the quote it was written in. -/
structure Identifier where
  name : String
  quote : Option Char := none
  deriving DecidableEq, Repr, Inhabited

namespace Identifier

def backQuoted (name : String) : Identifier := ⟨name, some '`'⟩

def doubleQuoted (name : String) : Identifier := ⟨name, some '"'⟩

def isDelimited (identifier : Identifier) : Bool := identifier.quote.isSome

end Identifier

/-- A column name, behind the name or alias of a table if it is qualified. -/
structure ColumnRef where
  qualifier : Option Identifier := none
  name : Identifier
  deriving DecidableEq, Repr, Inhabited

namespace ColumnRef

def plain (qualifier : Option String) (name : String) : ColumnRef :=
  ⟨qualifier.map fun table => ⟨table, none⟩, ⟨name, none⟩⟩

def unquoted (column : ColumnRef) : String :=
  match column.qualifier with
  | some qualifier => qualifier.name ++ "." ++ column.name.name
  | none => column.name.name

end ColumnRef

/-- A literal value; a number is kept as written. -/
inductive Literal where
  | null
  | boolean (value : Bool)
  | number (digits : String)
  | string (value : String)
  deriving DecidableEq, Repr, Inhabited

inductive BinaryOperator where
  | add
  | subtract
  | multiply
  | divide
  | modulo
  | wholeDivide
  | remainder
  | equal
  | notEqual
  | less
  | lessEqual
  | greater
  | greaterEqual
  | and
  | or
  deriving DecidableEq, Repr, Inhabited

namespace BinaryOperator

def all : List BinaryOperator :=
  [add, subtract, multiply, divide, modulo, wholeDivide, remainder,
   equal, notEqual, less, lessEqual, greater, greaterEqual, and, or]

/-- Arithmetic operators that are written by a sign, without spaces around it. -/
def isSign : BinaryOperator → Bool
  | add | subtract | multiply | divide | modulo => true
  | _ => false

def isArithmetic : BinaryOperator → Bool
  | add | subtract | multiply | divide | modulo | wholeDivide | remainder => true
  | _ => false

def isComparison : BinaryOperator → Bool
  | equal | notEqual | less | lessEqual | greater | greaterEqual => true
  | _ => false

def isLogical : BinaryOperator → Bool
  | and | or => true
  | _ => false

end BinaryOperator

inductive UnaryOperator where
  | not
  | negate
  | plus
  deriving DecidableEq, Repr, Inhabited

/-- Tests for the values of a DOUBLE column that are no finite numbers. -/
inductive DoubleTest where
  | isNaN
  | isInfinity
  deriving DecidableEq, Repr, Inhabited

inductive CastTarget where
  | type (type : ColumnType)
  /-- The type of the column with this id. -/
  | column (id : ColumnId)
  | physical (name : String)
  deriving DecidableEq, Repr, Inhabited

/-- A table of a FROM clause, with its alias. -/
structure TableName where
  name : String
  alias? : Option Identifier := none
  deriving DecidableEq, Repr, Inhabited

inductive JoinKind where
  | join
  | inner
  | left
  | leftOuter
  | right
  | rightOuter
  deriving DecidableEq, Repr, Inhabited

inductive SortDirection where
  | ascending
  | descending
  deriving DecidableEq, Repr, Inhabited

mutual

inductive Expr where
  | literal (value : Literal)
  | column (reference : ColumnRef)
  | parameter (name : String)
  | currentUser
  /-- The star of `COUNT(*)`. -/
  | wildcard
  | call (name : String) (distinct : Bool) (arguments : List Expr)
  | cast (operand : Expr) (target : CastTarget)
  | caseWhen (operand : Option Expr) (branches : List (Expr × Expr)) (otherwise : Option Expr)
  | binary (operator : BinaryOperator) (left right : Expr)
  | unary (operator : UnaryOperator) (operand : Expr)
  | nested (inner : Expr)
  | isNull (tested : Expr) (negated : Bool)
  | isTruth (tested : Expr) (value negated : Bool)
  | between (tested low high : Expr) (negated : Bool)
  | inList (tested : Expr) (candidates : List Expr) (negated : Bool)
  | inQuery (tested : Expr) (candidates : Query) (negated : Bool)
  | like (tested pattern : Expr) (escape : Option Expr) (negated : Bool)
  /-- `HAS`, or `HAS_LIKE` when `pattern` is set. -/
  | has (tested : Expr) (values : List Expr) (pattern negated : Bool)
  | doubleTest (test : DoubleTest) (column : ColumnRef)
  /-- A full-text search of a logical query. -/
  | textMatches (text : Expr)
  /-- A full-text search of the physical store. -/
  | matchAgainst (text : Expr)
  | unnest (column : ColumnRef)

inductive Source where
  | table (table : TableName)
  | join (left : Source) (kind : JoinKind) (right : TableName) (condition : Expr)

structure SelectItem where
  expr : Expr
  alias? : Option Identifier

inductive Projection where
  | all
  | items (items : List SelectItem)

structure SortKey where
  expr : Expr
  direction : Option SortDirection

structure Page where
  limit : Expr
  offset : Option Expr

structure Select where
  distinct : Bool
  projection : Projection
  source : Source
  /-- A condition on the defining query of a virtual table. -/
  definingFilter : Option Expr
  filter : Option Expr
  groupBy : List Expr
  orderBy : List SortKey
  page : Option Page

structure UnionBranch where
  all : Bool
  select : Select

structure CommonTable where
  name : Identifier
  columns : List Identifier
  query : Query

structure Query where
  commonTables : Option (List CommonTable)
  first : Select
  unions : List UnionBranch

end

instance : Inhabited Expr := ⟨.wildcard⟩

namespace Expr

def null : Expr := literal .null

def natural (value : Nat) : Expr := literal (.number (Number.decimal value))

def integer (value : Int) : Expr := literal (.number (Number.signedDecimal value))

def string (value : String) : Expr := literal (.string value)

def named (name : String) : Expr := column ⟨none, ⟨name, none⟩⟩

def quoted (name : String) : Expr := column ⟨none, .doubleQuoted name⟩

/-- A call without DISTINCT; function names are in upper case. -/
def apply (name : String) (arguments : List Expr) : Expr :=
  call (Text.upper name) false arguments

def and (left right : Expr) : Expr := binary .and left right

def or (left right : Expr) : Expr := binary .or left right

def equals (left right : Expr) : Expr := binary .equal left right

def negation (operand : Expr) : Expr := unary .not operand

def parenthesized : Expr → Expr
  | nested inner => nested inner
  | other => nested other

/-- The disjunction of expressions from left to right; none if there are none. -/
def anyOf : List Expr → Option Expr
  | [] => none
  | first :: rest => some (rest.foldl or first)

/-- The conjunction of expressions from left to right; none if there are none. -/
def allOf : List Expr → Option Expr
  | [] => none
  | first :: rest => some (rest.foldl and first)

end Expr

namespace Page

def ofCounts (limit : UInt64) (offset : Option UInt64) : Page :=
  ⟨.natural limit.toNat, offset.map fun count => .natural count.toNat⟩

end Page

namespace Source

def named (name : String) : Source := table ⟨name, none⟩

def tables : Source → List TableName
  | table only => [only]
  | join left _ right _ => left.tables ++ [right]

def isJoin : Source → Bool
  | table _ => false
  | join .. => true

end Source

namespace Select

def simple (projection : Projection) (source : Source) : Select :=
  { distinct := false, projection, source, definingFilter := none, filter := none, groupBy := [],
    orderBy := [], page := none }

end Select

namespace Projection

/-- The items; a star has none of its own. -/
def itemList : Projection → List SelectItem
  | all => []
  | items list => list

end Projection

namespace Query

def single (select : Select) : Query := ⟨none, select, []⟩

/-- The selects from first to last, common tables apart. -/
def parts (query : Query) : List Select :=
  query.first :: query.unions.map UnionBranch.select

def withParts (query : Query) : List Select → Query
  | [] => query
  | first :: rest =>
      { query with
        first
        unions := List.zipWith (fun branch select => { branch with select }) query.unions rest }

def isUnion (query : Query) : Bool := !query.unions.isEmpty

end Query

end TabularSql
