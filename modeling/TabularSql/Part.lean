import TabularSql.Description
import TabularSql.Lowering
import TabularSql.Page

/-!
# Lowering of selects

One part of a statement, lowered in the order in which it is written: select list, join conditions,
WHERE, GROUP BY, ORDER BY, LIMIT and OFFSET. Metadata columns follow the select list of the query, and
side tables of list columns follow the tables of the FROM clause.
-/

namespace TabularSql

set_option autoImplicit false

namespace Identifier

/-- An output alias; a delimited one is back-quoted. -/
def asOutput (name : Identifier) : Identifier :=
  if name.isDelimited then .backQuoted name.name else name

end Identifier

namespace SelectItem

def lower (scope : Scope) (item : SelectItem) : Lowering SelectItem :=
  return ⟨← item.expr.lower scope .select, item.alias?.map Identifier.asOutput⟩

end SelectItem

namespace RowMetadata

def ofFirst (binding : Binding) (name : MetadataName) : Expr :=
  .column (Physical.metadataRef (binding.tables.head?.bind BoundTable.correlation) name)

/-- A metadata column of a part. A part that does not read the view has no benefactor of it. -/
def expr (binding : Binding) : RowMetadata → Expr
  | id => ofFirst binding .rowId
  | version => ofFirst binding .rowVersion
  | etag => ofFirst binding .rowEtag
  | benefactor view =>
      match binding.first? view with
      | some table => Physical.benefactor table.correlation
      | none => .integer (-1)

end RowMetadata

namespace Source

/-- Join conditions, the innermost join first. -/
def lowerConditions (scope : Scope) : Source → Lowering Source
  | table only => return table only
  | join left kind right condition => do
      let left ← left.lowerConditions scope
      return join left kind right (← condition.lower scope (.condition none))

/-- A FROM clause with the side tables of list columns. -/
def withSideTables (source : Source) (columns : List ListColumn) : Source :=
  columns.foldl ListColumn.joinTo source

end Source

namespace SortKey

def lower (scope : Scope) (key : SortKey) : Lowering SortKey :=
  return { key with expr := ← key.expr.lower scope .sort }

end SortKey

namespace Page

def boundCount (count : UInt64) : ParameterValue :=
  .integer (Int64.ofNat (min count.toNat unbounded.toNat))

def lowerCount (expr : Expr) : Lowering Expr := do
  let count ← Lowering.lift (rowCount expr)
  Lowering.bind (boundCount count)

def lower (page : Page) : Lowering Page := do
  let limit ← lowerCount page.limit
  return ⟨limit, ← page.offset.mapM lowerCount⟩

end Page

namespace Select

def aliases (part : Select) : List String :=
  part.projection.itemList.filterMap fun item => item.alias?.map Identifier.name

def lower (schemas : Schemas) (guardsDoubles : Bool) (metadata : List RowMetadata)
    (binding : Binding) (part : Select) : Lowering (Select × Bool) := do
  let scope : Scope := { schemas, binding, guardsDoubles, aliases := part.aliases }
  modify fun state => { state with unnested := [], searches := false }
  let items ← part.projection.itemList.mapM (SelectItem.lower scope)
  let source ← (binding.lowerTables part.source).lowerConditions scope
  let filter ← Expr.lowerOption scope (.condition none) part.filter
  let groupBy ← Expr.lowerAll scope .sort part.groupBy
  let orderBy ← part.orderBy.mapM (SortKey.lower scope)
  let page ← part.page.mapM Page.lower
  let state ← get
  let lowered : Select :=
    { part with
      projection := .items (items ++ metadata.map fun column => ⟨column.expr binding, none⟩)
      source := source.withSideTables state.unnested
      filter
      groupBy
      orderBy
      page }
  return (lowered, state.searches)

end Select

end TabularSql
