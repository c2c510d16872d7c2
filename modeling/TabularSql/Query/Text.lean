import TabularSql.Query.Basic
import TabularSql.Text.Quoted

/-!
# Canonical text

Every query has one canonical text. Keywords are in upper case, function names too; a sign of
arithmetic stands without spaces, every other operator between spaces; lists and nested expressions
have spaces inside their parentheses, argument lists have none. Set functions separate their
arguments by a comma and a space, the other functions by a comma.
-/

namespace TabularSql

set_option autoImplicit false

def setFunctions : List String :=
  ["COUNT", "SUM", "AVG", "MIN", "MAX", "GROUP_CONCAT", "JSON_ARRAYAGG"]

def isSetFunctionName (name : String) : Bool :=
  Text.listed setFunctions name

def joinTexts (separator : String) : List String → String
  | [] => ""
  | [text] => text
  | text :: rest => text ++ separator ++ joinTexts separator rest

namespace Identifier

def text (identifier : Identifier) : String :=
  match identifier.quote with
  | none => identifier.name
  | some quote => Text.enclosed quote identifier.name

end Identifier

namespace ColumnRef

def text (column : ColumnRef) : String :=
  match column.qualifier with
  | none => column.name.text
  | some qualifier => qualifier.text ++ "." ++ column.name.text

end ColumnRef

namespace Literal

def text : Literal → String
  | null => "NULL"
  | boolean true => "TRUE"
  | boolean false => "FALSE"
  | number digits => digits
  | string value => Text.enclosed '\'' value

/-- The literal without quotes, truth values in lower case. -/
def bareText : Literal → String
  | null => "NULL"
  | boolean true => "true"
  | boolean false => "false"
  | number digits => digits
  | string value => value

end Literal

namespace BinaryOperator

def text : BinaryOperator → String
  | add => "+"
  | subtract => "-"
  | multiply => "*"
  | divide => "/"
  | modulo => "%"
  | wholeDivide => "DIV"
  | remainder => "MOD"
  | equal => "="
  | notEqual => "<>"
  | less => "<"
  | lessEqual => "<="
  | greater => ">"
  | greaterEqual => ">="
  | and => "AND"
  | or => "OR"

def spacedText (operator : BinaryOperator) : String :=
  if operator.isSign then operator.text else " " ++ operator.text ++ " "

end BinaryOperator

namespace UnaryOperator

def text : UnaryOperator → String
  | not => "NOT "
  | negate => "-"
  | plus => "+"

end UnaryOperator

namespace DoubleTest

def text : DoubleTest → String
  | isNaN => "isNaN"
  | isInfinity => "isInfinity"

end DoubleTest

namespace CastTarget

def text : CastTarget → String
  | type logical => logical.name
  | column id => Number.decimal id.toNat
  | physical name => name

end CastTarget

namespace JoinKind

def text : JoinKind → String
  | join => "JOIN"
  | inner => "INNER JOIN"
  | left => "LEFT JOIN"
  | leftOuter => "LEFT OUTER JOIN"
  | right => "RIGHT JOIN"
  | rightOuter => "RIGHT OUTER JOIN"

end JoinKind

namespace SortDirection

def text : SortDirection → String
  | ascending => "ASC"
  | descending => "DESC"

end SortDirection

namespace TableName

def text (table : TableName) : String :=
  match table.alias? with
  | none => table.name
  | some name => table.name ++ " " ++ name.text

end TableName

def notText (negated : Bool) : String :=
  if negated then "NOT " else ""

mutual

def Expr.text : Expr → String
  | .literal value => value.text
  | .column reference => reference.text
  | .parameter name => ":" ++ name
  | .currentUser => "CURRENT_USER()"
  | .wildcard => "*"
  | .call name distinct arguments =>
      name ++ "(" ++ (if distinct then "DISTINCT " else "") ++
        joinTexts (if isSetFunctionName name then ", " else ",") (Expr.texts arguments) ++ ")"
  | .cast operand target => "CAST(" ++ operand.text ++ " AS " ++ target.text ++ ")"
  | .caseWhen operand branches otherwise =>
      "CASE" ++ Expr.textAfter " " operand ++ Expr.branchTexts branches ++
        Expr.textAfter " ELSE " otherwise ++ " END"
  | .binary operator left right => left.text ++ operator.spacedText ++ right.text
  | .unary operator operand => operator.text ++ operand.text
  | .nested inner => "( " ++ inner.text ++ " )"
  | .isNull tested negated => tested.text ++ " IS " ++ notText negated ++ "NULL"
  | .isTruth tested value negated =>
      tested.text ++ " IS " ++ notText negated ++ (if value then "TRUE" else "FALSE")
  | .between tested low high negated =>
      tested.text ++ " " ++ notText negated ++ "BETWEEN " ++ low.text ++ " AND " ++ high.text
  | .inList tested candidates negated =>
      tested.text ++ " " ++ notText negated ++ "IN ( " ++ joinTexts ", " (Expr.texts candidates) ++
        " )"
  | .inQuery tested candidates negated =>
      tested.text ++ " " ++ notText negated ++ "IN ( " ++ candidates.text ++ " )"
  | .like tested pattern escape negated =>
      tested.text ++ " " ++ notText negated ++ "LIKE " ++ pattern.text ++
        Expr.textAfter " ESCAPE " escape
  | .has tested values pattern negated =>
      tested.text ++ " " ++ notText negated ++ (if pattern then "HAS_LIKE" else "HAS") ++ " ( " ++
        joinTexts ", " (Expr.texts values) ++ " )"
  | .doubleTest test column => test.text ++ "(" ++ column.text ++ ")"
  | .textMatches text => "TEXT_MATCHES(" ++ text.text ++ ")"
  | .matchAgainst text => "MATCH(ROW_SEARCH_CONTENT) AGAINST(" ++ text.text ++ ")"
  | .unnest column => "UNNEST(" ++ column.text ++ ")"

def Expr.texts : List Expr → List String
  | [] => []
  | expr :: rest => expr.text :: Expr.texts rest

def Expr.textAfter (keyword : String) : Option Expr → String
  | none => ""
  | some expr => keyword ++ expr.text

def Expr.branchTexts : List (Expr × Expr) → String
  | [] => ""
  | (condition, result) :: rest =>
      " WHEN " ++ condition.text ++ " THEN " ++ result.text ++ Expr.branchTexts rest

def Source.text : Source → String
  | .table only => only.text
  | .join left kind right condition =>
      left.text ++ " " ++ kind.text ++ " " ++ right.text ++ " ON " ++ condition.text

def SelectItem.text : SelectItem → String
  | ⟨expr, none⟩ => expr.text
  | ⟨expr, some name⟩ => expr.text ++ " AS " ++ name.text

def SelectItem.texts : List SelectItem → List String
  | [] => []
  | item :: rest => item.text :: SelectItem.texts rest

def Projection.text : Projection → String
  | .all => "*"
  | .items list => joinTexts ", " (SelectItem.texts list)

def SortKey.text : SortKey → String
  | ⟨expr, none⟩ => expr.text
  | ⟨expr, some direction⟩ => expr.text ++ " " ++ direction.text

def SortKey.texts : List SortKey → List String
  | [] => []
  | key :: rest => key.text :: SortKey.texts rest

def Page.text : Page → String
  | ⟨limit, offset⟩ => "LIMIT " ++ limit.text ++ Expr.textAfter " OFFSET " offset

def Page.textAfter : Option Page → String
  | none => ""
  | some page => " " ++ page.text

def Select.text : Select → String
  | ⟨distinct, projection, source, definingFilter, filter, groupBy, orderBy, page⟩ =>
      "SELECT " ++ (if distinct then "DISTINCT " else "") ++ projection.text ++ " FROM " ++
        source.text ++ Expr.textAfter " DEFINING_WHERE " definingFilter ++
        Expr.textAfter " WHERE " filter ++
        (if groupBy.isEmpty then "" else " GROUP BY " ++ joinTexts ", " (Expr.texts groupBy)) ++
        (if orderBy.isEmpty then "" else " ORDER BY " ++ joinTexts ", " (SortKey.texts orderBy)) ++
        Page.textAfter page

def UnionBranch.texts : List UnionBranch → String
  | [] => ""
  | ⟨all, select⟩ :: rest =>
      " UNION " ++ (if all then "ALL " else "") ++ select.text ++ UnionBranch.texts rest

def CommonTable.text : CommonTable → String
  | ⟨name, columns, query⟩ =>
      name.text ++
        (if columns.isEmpty then ""
         else " (" ++ joinTexts ", " (columns.map Identifier.text) ++ ")") ++
        " AS (" ++ query.text ++ ")"

def CommonTable.texts : List CommonTable → List String
  | [] => []
  | element :: rest => element.text :: CommonTable.texts rest

def CommonTable.clause : Option (List CommonTable) → String
  | none => ""
  | some elements => "WITH " ++ joinTexts ", " (CommonTable.texts elements) ++ " "

def Query.text : Query → String
  | ⟨commonTables, first, unions⟩ =>
      CommonTable.clause commonTables ++ first.text ++ UnionBranch.texts unions

end

end TabularSql
