import TabularSql.Combined.Facet
import TabularSql.Combined.Filter
import TabularSql.Combined.Sort
import TabularSql.Page

/-!
# Combined queries

A query together with what a caller sends beside it: facet requests, filters, sort items and a page.
Conditions narrow every part; sort items and the page go to the last part. From a combined query come
the query that counts its rows and the query for the ids of its rows.
-/

namespace TabularSql

set_option autoImplicit false

/-- What a caller sends beside a query. -/
structure Overrides where
  columns : List ColumnModel := []
  facets : List FacetRequest := []
  filters : List QueryFilter := []
  sort : List SortItem := []
  offset : Option UInt64 := none
  limit : Option UInt64 := none
  deriving DecidableEq, Repr, Inhabited

namespace Expr

def narrowed (condition : Option Expr) (added : Expr) : Expr :=
  match condition with
  | some own => .and own.parenthesized added.parenthesized
  | none => added

end Expr

namespace Select

def narrowed (defining search : Option Expr) (part : Select) : Select :=
  { part with
    definingFilter := match defining with
      | some condition => some (Expr.narrowed part.definingFilter condition)
      | none => part.definingFilter
    filter := match search with
      | some condition => some (Expr.narrowed part.filter condition)
      | none => part.filter }

def sortedAndPaged (overrides : Overrides) (part : Select) : Except CompileError Select := do
  let page ← Page.replaced part.page overrides.offset overrides.limit
  return { part with orderBy := overrides.sort.map SortItem.key ++ part.orderBy, page }

end Select

namespace Overrides

def search (facets : List ResolvedFacet) (filters : Option Expr) : Option Expr :=
  match ResolvedFacet.combine facets, filters with
  | some faceted, some filtered => some (.and faceted filtered)
  | faceted, filtered => faceted <|> filtered

def onLast (overrides : Overrides) : List Select → Except CompileError (List Select)
  | [] => .ok []
  | [last] => do return [← last.sortedAndPaged overrides]
  | part :: rest => do return part :: (← overrides.onLast rest)

def combine (overrides : Overrides) (query : Query) : Except CompileError Query := do
  let facets ← overrides.facets.mapM (ResolvedFacet.resolve overrides.columns)
  let (defining, own) := overrides.filters.partition QueryFilter.isDefining
  let defining ← QueryFilter.combine defining
  let search := search facets (← QueryFilter.combine own)
  let parts ← overrides.onLast (query.parts.map (Select.narrowed defining search))
  return query.withParts parts

def combineText (overrides : Overrides) (text : String) : Except CompileError Query := do
  overrides.combine (← (Query.parse text).mapError .malformed)

end Overrides

namespace Select

/-- A key of GROUP BY, with an alias of the select list replaced by what it stands for. -/
def groupKey (items : List SelectItem) : Expr → Expr
  | .column reference =>
      match items.find? fun item => item.alias?.any (·.name == reference.unquoted) with
      | some item => item.expr
      | none => .column reference
  | key => key

/-- The expression that counts the rows of a part, if it does not aggregate to one row. -/
def countExpr? (part : Select) : Option Expr :=
  if !part.isAggregate then some (.apply "COUNT" [.wildcard])
  else if !part.groupBy.isEmpty then
    some (.call "COUNT" true (part.groupBy.map (groupKey part.projection.itemList)))
  else if part.distinct && !part.projection.itemList.isEmpty then
    some (.call "COUNT" true (part.projection.itemList.map SelectItem.expr))
  else none

end Select

namespace Query

def count? (query : Query) : Option Query :=
  if query.isUnion then none
  else
    query.first.countExpr?.map fun count =>
      { query with
        first := { query.first with
          distinct := false, projection := .items [⟨count, none⟩], groupBy := [], orderBy := [],
          page := none } }

/-- The query for the ids and versions of at most `limit` rows, if rows have them. -/
def rowIds? (query : Query) (limit : UInt64) : Option Query :=
  if query.isUnion || query.first.isAggregate then none
  else
    some { query with
      first := { query.first with
        projection := .items
          [⟨.named MetadataName.rowId.text, none⟩, ⟨.named MetadataName.rowVersion.text, none⟩]
        orderBy := []
        page := some (.ofCounts limit none) } }

end Query

end TabularSql
