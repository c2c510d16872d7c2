import TabularSql.Query.Text
import TabularSql.Wire.Read

/-!
# Query trees

Expressions and queries as wire values. An expression is an array that starts with the word of its
form; a select and a query are objects. Elements and fields that are missing read as null.
-/

namespace TabularSql

set_option autoImplicit false

open WireValue

/-! ## Writing -/

namespace Identifier

def toWire (identifier : Identifier) : WireValue :=
  .array [.string identifier.name,
    .option (fun quote => .string (String.singleton quote)) identifier.quote]

end Identifier

namespace ColumnRef

def toWire (column : ColumnRef) : WireValue :=
  .array [.option Identifier.toWire column.qualifier, column.name.toWire]

end ColumnRef

namespace Literal

def toWire : Literal → WireValue
  | null => .array [.string "lit", .string "null"]
  | boolean value => .array [.string "lit", .string "bool", .boolean value]
  | number digits => .array [.string "lit", .string "num", .string digits]
  | string value => .array [.string "lit", .string "str", .string value]

end Literal

namespace CastTarget

def toWire : CastTarget → WireValue
  | type logical => .array [.string "type", logical.toWire]
  | column id => .array [.string "id", .word id]
  | physical name => .array [.string "physical", .string name]

end CastTarget

namespace UnaryOperator

def all : List UnaryOperator := [not, negate, plus]

def wireName : UnaryOperator → String
  | not => "NOT"
  | negate => "-"
  | plus => "+"

end UnaryOperator

namespace JoinKind

def all : List JoinKind := [join, inner, left, leftOuter, right, rightOuter]

end JoinKind

namespace TableName

def toWire (table : TableName) : WireValue :=
  .array [.string "table", .string table.name, .option Identifier.toWire table.alias?]

end TableName

mutual

def Expr.toWire : Expr → WireValue
  | .literal value => value.toWire
  | .column reference => .array [.string "col", reference.toWire]
  | .parameter name => .array [.string "param", .string name]
  | .currentUser => .array [.string "user"]
  | .wildcard => .array [.string "star"]
  | .call name distinct arguments =>
      .array [.string "fn", .string name, .boolean distinct, .array (Expr.toWires arguments)]
  | .cast operand target => .array [.string "cast", operand.toWire, target.toWire]
  | .caseWhen operand branches otherwise =>
      .array [.string "case", Expr.optionToWire operand, .array (Expr.branchesToWire branches),
        Expr.optionToWire otherwise]
  | .binary operator left right =>
      .array [.string "bin", .string operator.text, left.toWire, right.toWire]
  | .unary operator operand => .array [.string "un", .string operator.wireName, operand.toWire]
  | .nested inner => .array [.string "nested", inner.toWire]
  | .isNull tested negated => .array [.string "is_null", tested.toWire, .boolean negated]
  | .isTruth tested value negated =>
      .array [.string "is_bool", tested.toWire, .boolean value, .boolean negated]
  | .between tested low high negated =>
      .array [.string "between", tested.toWire, low.toWire, high.toWire, .boolean negated]
  | .inList tested candidates negated =>
      .array [.string "in", tested.toWire, .array (Expr.toWires candidates), .boolean negated]
  | .inQuery tested candidates negated =>
      .array [.string "in_query", tested.toWire, candidates.toWire, .boolean negated]
  | .like tested pattern escape negated =>
      .array [.string "like", tested.toWire, pattern.toWire, Expr.optionToWire escape,
        .boolean negated]
  | .has tested values pattern negated =>
      .array [.string "has", tested.toWire, .array (Expr.toWires values), .boolean pattern,
        .boolean negated]
  | .doubleTest test reference =>
      .array [.string "bool_fn", .string test.text, reference.toWire]
  | .textMatches text => .array [.string "text_matches", text.toWire]
  | .matchAgainst text => .array [.string "match_against", text.toWire]
  | .unnest reference => .array [.string "unnest", reference.toWire]

def Expr.toWires : List Expr → List WireValue
  | [] => []
  | expr :: rest => expr.toWire :: Expr.toWires rest

def Expr.optionToWire : Option Expr → WireValue
  | none => .null
  | some expr => expr.toWire

def Expr.branchesToWire : List (Expr × Expr) → List WireValue
  | [] => []
  | (condition, result) :: rest =>
      .array [condition.toWire, result.toWire] :: Expr.branchesToWire rest

def Source.toWire : Source → WireValue
  | .table only => only.toWire
  | .join left kind right condition =>
      .array [.string "join", left.toWire, .string kind.text, right.toWire, condition.toWire]

def SelectItem.toWires : List SelectItem → List WireValue
  | [] => []
  | ⟨expr, name⟩ :: rest =>
      .array [expr.toWire, .option Identifier.toWire name] :: SelectItem.toWires rest

def Projection.toWire : Projection → WireValue
  | .all => .string "*"
  | .items list => .array (SelectItem.toWires list)

def SortKey.toWires : List SortKey → List WireValue
  | [] => []
  | ⟨expr, direction⟩ :: rest =>
      .array [expr.toWire, .option SortDirection.toWire direction] :: SortKey.toWires rest

def Page.optionToWire : Option Page → WireValue
  | none => .null
  | some ⟨limit, offset⟩ => .array [limit.toWire, Expr.optionToWire offset]

def Select.toWire : Select → WireValue
  | ⟨distinct, projection, source, definingFilter, filter, groupBy, orderBy, page⟩ =>
      .object [("distinct", .boolean distinct), ("select", projection.toWire),
        ("from", source.toWire), ("defining_where", Expr.optionToWire definingFilter),
        ("where", Expr.optionToWire filter), ("group_by", .array (Expr.toWires groupBy)),
        ("order_by", .array (SortKey.toWires orderBy)), ("pagination", Page.optionToWire page)]

def UnionBranch.toWires : List UnionBranch → List WireValue
  | [] => []
  | ⟨all, select⟩ :: rest => .array [.boolean all, select.toWire] :: UnionBranch.toWires rest

def CommonTable.toWires : List CommonTable → List WireValue
  | [] => []
  | ⟨name, columns, query⟩ :: rest =>
      .array [name.toWire, .array (columns.map Identifier.toWire), query.toWire] ::
        CommonTable.toWires rest

def CommonTable.clauseToWire : Option (List CommonTable) → WireValue
  | none => .null
  | some elements => .array (CommonTable.toWires elements)

def Query.toWire : Query → WireValue
  | ⟨commonTables, first, unions⟩ =>
      .object [("with", CommonTable.clauseToWire commonTables), ("body", first.toWire),
        ("unions", .array (UnionBranch.toWires unions))]

end

/-! ## Reading -/

namespace WireValue

def readMember {α : Type} (members : List α) (name : α → String) (value : WireValue) : Reading α :=
  .ofOption (value.asMember? members name)

def readIdentifier (value : WireValue) : Reading Identifier := do
  let name ← (value.item 0).readText
  match ← (value.item 1).readOption readText with
  | none => return ⟨name, none⟩
  | some text =>
      match text.toList with
      | [quote] => return ⟨name, some quote⟩
      | _ => .unreadable

def readColumnRef (value : WireValue) : Reading ColumnRef := do
  return ⟨← (value.item 0).readOption readIdentifier, ← (value.item 1).readIdentifier⟩

def readLiteral (value : WireValue) : Reading Literal := do
  match ← (value.item 1).readText with
  | "null" => return .null
  | "bool" => return .boolean (← (value.item 2).readBoolean)
  | "num" => return .number (← (value.item 2).readText)
  | "str" => return .string (← (value.item 2).readText)
  | _ => .unreadable

/-- What names no column type is no tree, so the whole tree is unreadable. -/
def readCastTarget (value : WireValue) : Reading CastTarget := do
  match ← (value.item 0).readText with
  | "type" =>
      let name ← (value.item 1).readText
      return .type (← .ofOption (ColumnType.parse name).toOption)
  | "id" => return .column (← (value.item 1).readWord)
  | "physical" => return .physical (← (value.item 1).readText)
  | _ => .unreadable

def readTable (value : WireValue) : Reading TableName := do
  match ← (value.item 0).readText with
  | "table" =>
      return ⟨← (value.item 1).readText, ← (value.item 2).readOption readIdentifier⟩
  | _ => .unreadable

/-- The readers of the trees inside a tree. -/
structure TreeReaders where
  expr : WireValue → Reading Expr
  source : WireValue → Reading Source
  query : WireValue → Reading Query

def readExprIn (inner : TreeReaders) (value : WireValue) : Reading Expr := do
  let operand (index : Nat) : Reading Expr := inner.expr (value.item index)
  let operands (index : Nat) : Reading (List Expr) := (value.item index).readArray inner.expr
  let option (index : Nat) : Reading (Option Expr) := (value.item index).readOption inner.expr
  let truth (index : Nat) : Reading Bool := (value.item index).readBoolean
  match ← (value.item 0).readText with
  | "lit" => return .literal (← value.readLiteral)
  | "col" => return .column (← (value.item 1).readColumnRef)
  | "param" => return .parameter (← (value.item 1).readText)
  | "user" => return .currentUser
  | "star" => return .wildcard
  | "fn" =>
      let name ← (value.item 1).readText
      return .call (Text.upper name) (← truth 2) (← operands 3)
  | "cast" => return .cast (← operand 1) (← (value.item 2).readCastTarget)
  | "case" =>
      let branches (branch : WireValue) : Reading (Expr × Expr) := do
        return (← inner.expr (branch.item 0), ← inner.expr (branch.item 1))
      return .caseWhen (← option 1) (← (value.item 2).readArray branches) (← option 3)
  | "bin" =>
      let operator ← (value.item 1).readMember BinaryOperator.all BinaryOperator.text
      return .binary operator (← operand 2) (← operand 3)
  | "un" =>
      let operator ← (value.item 1).readMember UnaryOperator.all UnaryOperator.wireName
      return .unary operator (← operand 2)
  | "nested" => return .nested (← operand 1)
  | "is_null" => return .isNull (← operand 1) (← truth 2)
  | "is_bool" => return .isTruth (← operand 1) (← truth 2) (← truth 3)
  | "between" => return .between (← operand 1) (← operand 2) (← operand 3) (← truth 4)
  | "in" => return .inList (← operand 1) (← operands 2) (← truth 3)
  | "in_query" => return .inQuery (← operand 1) (← inner.query (value.item 2)) (← truth 3)
  | "like" => return .like (← operand 1) (← operand 2) (← option 3) (← truth 4)
  | "has" => return .has (← operand 1) (← operands 2) (← truth 3) (← truth 4)
  | "bool_fn" =>
      let test ← (value.item 1).readMember [DoubleTest.isNaN, .isInfinity] DoubleTest.text
      return .doubleTest test (← (value.item 2).readColumnRef)
  | "text_matches" => return .textMatches (← operand 1)
  | "match_against" => return .matchAgainst (← operand 1)
  | "unnest" => return .unnest (← (value.item 1).readColumnRef)
  | _ => .unreadable

def readSourceIn (inner : TreeReaders) (value : WireValue) : Reading Source := do
  match ← (value.item 0).readText with
  | "join" =>
      let left ← inner.source (value.item 1)
      let kind ← (value.item 2).readMember JoinKind.all JoinKind.text
      let right ← (value.item 3).readTable
      return .join left kind right (← inner.expr (value.item 4))
  | _ => return .table (← value.readTable)

def readProjectionIn (inner : TreeReaders) : WireValue → Reading Projection
  | string "*" => .ok .all
  | value => do
      let entry (value : WireValue) : Reading SelectItem := do
        return ⟨← inner.expr (value.item 0), ← (value.item 1).readOption readIdentifier⟩
      return .items (← value.readArray entry)

def readSelectIn (inner : TreeReaders) (value : WireValue) : Reading Select := do
  let sortKey (key : WireValue) : Reading SortKey := do
    let expr ← inner.expr (key.item 0)
    let direction ← (key.item 1).readOption (readMember [.ascending, .descending]
      SortDirection.text)
    return ⟨expr, direction⟩
  let page (page : WireValue) : Reading Page := do
    return ⟨← inner.expr (page.item 0), ← (page.item 1).readOption inner.expr⟩
  return {
    distinct := (value.field "distinct").isTrue
    projection := ← readProjectionIn inner (value.field "select")
    source := ← inner.source (value.field "from")
    definingFilter := ← (value.field "defining_where").readOption inner.expr
    filter := ← (value.field "where").readOption inner.expr
    groupBy := ← (value.field "group_by").readList inner.expr
    orderBy := ← (value.field "order_by").readList sortKey
    page := ← (value.field "pagination").readOption page }

def readQueryIn (inner : TreeReaders) (value : WireValue) : Reading Query := do
  let commonTable (element : WireValue) : Reading CommonTable := do
    return ⟨← (element.item 0).readIdentifier, ← (element.item 1).readArray readIdentifier,
      ← inner.query (element.item 2)⟩
  let branch (branch : WireValue) : Reading UnionBranch := do
    return ⟨← (branch.item 0).readBoolean, ← readSelectIn inner (branch.item 1)⟩
  return {
    commonTables := ← (value.field "with").readOption (readArray commonTable)
    first := ← readSelectIn inner (value.field "body")
    unions := ← (value.field "unions").readList branch }

def treeReaders : Nat → TreeReaders
  | 0 => ⟨fun _ => .unreadable, fun _ => .unreadable, fun _ => .unreadable⟩
  | depth + 1 =>
      let inner := treeReaders depth
      ⟨readExprIn inner, readSourceIn inner, readQueryIn inner⟩

def readExpr (value : WireValue) : Reading Expr := (treeReaders (value.depth + 1)).expr value

def readQuery (value : WireValue) : Reading Query := (treeReaders (value.depth + 1)).query value

end WireValue

end TabularSql
