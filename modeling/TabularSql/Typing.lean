import TabularSql.Binding
import TabularSql.Query.View

/-!
# Types of expressions

The type of an expression over logical names, where it can be known: a NULL, a bind parameter or an
unlisted function has none.
-/

namespace TabularSql

set_option autoImplicit false

/-- Result types with the test for the functions that have them, in the order in which they are looked up.
Names are known in any case, AVG in capitals only. -/
def functionTypes : List (ColumnType × (String → Bool)) :=
  [(.string, Text.listed ["CONCAT", "GROUP_CONCAT", "JSON_EXTRACT", "JSON_UNQUOTE", "LOWER", "UPPER", "TRIM",
      "REPLACE", "SUBSTRING", "LEFT", "RIGHT", "DATE_FORMAT"]),
   (.integer, Text.listed ["COUNT", "UNIX_TIMESTAMP", "LENGTH", "CHAR_LENGTH", "DAYOFMONTH", "DAYOFWEEK",
      "DAYOFYEAR", "MONTH", "YEAR"]),
   (.double, fun name => name == "AVG"),
   (.date, Text.listed ["NOW", "CURRENT_TIMESTAMP", "FROM_UNIXTIME"]),
   (.json, Text.listed ["JSON_OBJECT", "JSON_ARRAY", "JSON_ARRAYAGG"]),
   (.boolean, Text.listed ["JSON_OVERLAPS", "JSON_CONTAINS"])]

def preservingFunctions : List String := ["SUM", "MIN", "MAX", "ROUND", "ABS", "FLOOR", "CEIL"]

def unifyingFunctions : List String := ["NULLIF", "IFNULL", "COALESCE"]

def callType (name : String) (arguments : List (Option ColumnType)) : Option ColumnType :=
  match functionTypes.find? fun (_, known) => known name with
  | some (type, _) => some type
  | none =>
      if Text.listed preservingFunctions name then arguments.head?.join
      else if Text.listed unifyingFunctions name then ColumnType.unify arguments
      else none

/-- The type of a sum or a product: that of both operands, DOUBLE if one of them is, else the known
one. -/
def arithmeticType (left right : Option ColumnType) : Option ColumnType :=
  if left.isSome && left = right then left
  else if left = some .double || right = some .double then some .double
  else left <|> right

def Literal.type : Literal → Option ColumnType
  | .null => none
  | .boolean _ => some .boolean
  | .number digits => if (Number.readSigned digits).isSome then some .integer else some .double
  | .string _ => some .string

def CastTarget.resultType (schemas : Schemas) : CastTarget → Option ColumnType
  | .type logical => some logical
  | .column id => (schemas.column? id).map ColumnModel.type
  | .physical name =>
      if name = "CHAR" then some .string
      else if name = "SIGNED" then some .integer
      else if name = "DOUBLE" then some .double
      else if name = "UNSIGNED" then some .boolean
      else if name = "JSON" then some .json
      else none

mutual

def Expr.infer (schemas : Schemas) (binding : Binding) : Expr → Option ColumnType
  | .literal value => value.type
  | .column reference => (binding.resolve? reference).map ResolvedColumn.type
  | .parameter _ | .wildcard => none
  | .currentUser => some .integer
  | .call name _ arguments => callType name (Expr.inferAll schemas binding arguments)
  | .cast _ target => target.resultType schemas
  | .caseWhen _ branches otherwise =>
      ColumnType.unify
        (Expr.inferBranches schemas binding branches ++ Expr.inferOption schemas binding otherwise)
  | .binary operator left right =>
      if operator.isArithmetic then
        arithmeticType (left.infer schemas binding) (right.infer schemas binding)
      else some .boolean
  | .unary operator operand =>
      if operator = .not then some .boolean else operand.infer schemas binding
  | .nested inner => inner.infer schemas binding
  | .isNull .. | .isTruth .. | .between .. | .inList .. | .inQuery .. | .like .. | .has ..
  | .doubleTest .. | .textMatches _ | .matchAgainst _ => some .boolean
  | .unnest reference => (binding.resolve? reference).map fun resolved => resolved.type.element

def Expr.inferAll (schemas : Schemas) (binding : Binding) : List Expr → List (Option ColumnType)
  | [] => []
  | expr :: rest => expr.infer schemas binding :: Expr.inferAll schemas binding rest

def Expr.inferBranches (schemas : Schemas) (binding : Binding) :
    List (Expr × Expr) → List (Option ColumnType)
  | [] => []
  | (_, result) :: rest => result.infer schemas binding :: Expr.inferBranches schemas binding rest

def Expr.inferOption (schemas : Schemas) (binding : Binding) :
    Option Expr → List (Option ColumnType)
  | none => []
  | some expr => [expr.infer schemas binding]

end

end TabularSql
