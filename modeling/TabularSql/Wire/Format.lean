import TabularSql.Combined.Query
import TabularSql.Description
import TabularSql.Parameter
import TabularSql.Wire.Value

/-!
# Wire formats

How the models of requests and answers are written as wire values and read back. Fields that are not
known are skipped; a field without a value is left out or null.
-/

namespace TabularSql

set_option autoImplicit false

open WireFields WireValue

def WireValue.asMember? {α : Type} (members : List α) (name : α → String) (value : WireValue) :
    Option α :=
  value.asString? >>= fun text => members.find? fun member => name member == text

namespace ColumnType

def toWire (type : ColumnType) : WireValue := .string type.name

def ofWire? : WireValue → Option ColumnType := asMember? all name

end ColumnType

namespace FacetKind

def toWire (kind : FacetKind) : WireValue := .string kind.name

def ofWire? : WireValue → Option FacetKind := asMember? [enumeration, range] name

end FacetKind

namespace SubColumn

def toWire (column : SubColumn) : WireValue :=
  .object [("name", .string column.name), ("jsonPath", .string column.path),
    ("columnType", column.type.toWire), ("facetType", column.facet.toWire)]

def ofWire? (value : WireValue) : Option SubColumn := do
  let fields ← value.asObject?
  let name ← required fields "name" asString?
  let path ← required fields "jsonPath" asString?
  let type ← required fields "columnType" ColumnType.ofWire?
  let facet ← required fields "facetType" FacetKind.ofWire?
  return ⟨name, path, type, facet⟩

end SubColumn

namespace ColumnModel

def wireFields (column : ColumnModel) : WireFields :=
  present "id" word column.id ++
    [("name", .string column.name), ("columnType", column.type.toWire)] ++
    present "maxSize" word column.maxSize ++
    present "maxListLength" word column.maxListLength ++
    present "facetType" FacetKind.toWire column.facet ++
    (if column.subColumns.isEmpty then []
     else [("jsonSubColumns", .array (column.subColumns.map SubColumn.toWire))])

def toWire (column : ColumnModel) : WireValue := .object column.wireFields

def ofWire? (value : WireValue) : Option ColumnModel := do
  let fields ← value.asObject?
  let id ← optional fields "id" asWord?
  let name ← required fields "name" asString?
  let type ← required fields "columnType" ColumnType.ofWire?
  let maxSize ← optional fields "maxSize" asWord?
  let maxListLength ← optional fields "maxListLength" asWord?
  let facet ← optional fields "facetType" FacetKind.ofWire?
  let subColumns ← defaulted fields "jsonSubColumns" [] (asList? SubColumn.ofWire?)
  return ⟨id, name, type, maxSize, maxListLength, facet, subColumns⟩

end ColumnModel

namespace SelectColumn

def toWire (column : SelectColumn) : WireValue :=
  .object ([("name", .string column.name), ("columnType", column.type.toWire)] ++
    present "id" word column.id)

def ofWire? (value : WireValue) : Option SelectColumn := do
  let fields ← value.asObject?
  let name ← required fields "name" asString?
  let type ← required fields "columnType" ColumnType.ofWire?
  let id ← optional fields "id" asWord?
  return ⟨name, type, id⟩

end SelectColumn

namespace TableId

def toWire (table : TableId) : WireValue :=
  .object [("id", word table.number), ("version", .option word table.version)]

def ofWire? (value : WireValue) : Option TableId := do
  let fields ← value.asObject?
  let number ← required fields "id" asWord?
  let version ← optional fields "version" asWord?
  return ⟨number, version⟩

end TableId

namespace TableKind

def wireName : TableKind → String
  | table => "table"
  | entityView => "entityview"
  | submissionView => "submissionview"
  | dataset => "dataset"
  | materializedView => "materializedview"
  | virtualTable => "virtualtable"

def toWire (kind : TableKind) : WireValue := .string kind.wireName

def ofWire? : WireValue → Option TableKind := asMember? all wireName

end TableKind

namespace SqlContext

def wireName : SqlContext → String
  | query => "query"
  | build => "build"

def toWire (context : SqlContext) : WireValue := .string context.wireName

def ofWire? : WireValue → Option SqlContext := asMember? [query, build] wireName

end SqlContext

namespace SortDirection

def toWire (direction : SortDirection) : WireValue := .string direction.text

def ofWire? : WireValue → Option SortDirection := asMember? [ascending, descending] text

end SortDirection

namespace SortItem

def toWire (item : SortItem) : WireValue :=
  .object (("column", .string item.column) ::
    present "direction" SortDirection.toWire item.direction)

def ofWire? (value : WireValue) : Option SortItem := do
  let fields ← value.asObject?
  let column ← required fields "column" asString?
  let direction ← optional fields "direction" SortDirection.ofWire?
  return ⟨column, direction⟩

end SortItem

namespace ParameterValue

def toWire : ParameterValue → WireValue
  | integer value => .integer value.toInt
  | double value => .real value
  | boolean value => .boolean value
  | string value => .string value

/-- An integer that is too large to be bound as one becomes a double. -/
def ofWire? : WireValue → Option ParameterValue
  | .integer value =>
      match Number.toSigned value with
      | some signed => some (integer signed)
      | none => some (double (Number.Double.ofInt value))
  | .real value => some (double value)
  | .boolean value => some (boolean value)
  | .string value => some (string value)
  | .null | .array _ | .object _ => none

end ParameterValue

namespace Parameters

def toWire (parameters : Parameters) : WireValue :=
  .object (parameters.entries.map fun (name, value) => (name, value.toWire))

end Parameters

def formField : String := "concreteType"

namespace FacetRequest

def toWire (request : FacetRequest) : WireValue :=
  let shared := ("columnName", .string request.column) :: present "jsonPath" .string request.path
  match request.selection with
  | .values values =>
      .object ((formField, .string "FacetColumnValuesRequest") :: shared ++
        [("facetValues", strings values)])
  | .range min max =>
      .object ((formField, .string "FacetColumnRangeRequest") :: shared ++
        present "min" .string min ++ present "max" .string max)

def selectionOfWire? (form : String) (fields : WireFields) : Option FacetSelection :=
  if form = "FacetColumnValuesRequest" then
    (defaulted fields "facetValues" [] (asList? asString?)).map .values
  else if form = "FacetColumnRangeRequest" then do
    return .range (← optional fields "min" asString?) (← optional fields "max" asString?)
  else none

def ofWire? (value : WireValue) : Option FacetRequest := do
  let fields ← value.asObject?
  let form ← required fields formField asString?
  let column ← required fields "columnName" asString?
  let path ← optional fields "jsonPath" asString?
  return ⟨column, path, ← selectionOfWire? form fields⟩

end FacetRequest

namespace ValueOperator

def wireName : ValueOperator → String
  | like => "LIKE"
  | equal => "EQUAL"
  | among => "IN"

def ofWire? : WireValue → Option ValueOperator := asMember? [like, equal, among] wireName

end ValueOperator

namespace ListFunction

def wireName : ListFunction → String
  | has => "HAS"
  | hasLike => "HAS_LIKE"

def ofWire? : WireValue → Option ListFunction := asMember? [has, hasLike] wireName

end ListFunction

namespace QueryFilter

def toWire : QueryFilter → WireValue
  | value column operator values defining =>
      .object [(formField, .string "ColumnSingleValueQueryFilter"), ("columnName", .string column),
        ("operator", .string operator.wireName), ("values", strings values),
        ("isDefiningCondition", .boolean defining)]
  | list column function values defining =>
      .object [(formField, .string "ColumnMultiValueFunctionQueryFilter"),
        ("columnName", .string column), ("function", .string function.wireName),
        ("values", strings values), ("isDefiningCondition", .boolean defining)]
  | textMatches search defining =>
      .object [(formField, .string "TextMatchesQueryFilter"), ("searchExpression", .string search),
        ("isDefiningCondition", .boolean defining)]

def ofWire? (wire : WireValue) : Option QueryFilter := do
  let fields ← wire.asObject?
  let form ← required fields formField asString?
  let defining ← defaulted fields "isDefiningCondition" false asBoolean?
  if form = "ColumnSingleValueQueryFilter" then
    let column ← required fields "columnName" asString?
    let operator ← required fields "operator" ValueOperator.ofWire?
    return value column operator (← required fields "values" (asList? asString?)) defining
  else if form = "ColumnMultiValueFunctionQueryFilter" then
    let column ← required fields "columnName" asString?
    let function ← required fields "function" ListFunction.ofWire?
    return list column function (← required fields "values" (asList? asString?)) defining
  else if form = "TextMatchesQueryFilter" then
    return textMatches (← required fields "searchExpression" asString?) defining
  else none

end QueryFilter

end TabularSql
