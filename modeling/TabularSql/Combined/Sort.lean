import TabularSql.Physical
import TabularSql.Query.Grammar
import TabularSql.Query.View

/-!
# Sort items

Sort keys that a caller adds to a query. A text that reads as an expression with a set function, or as
a metadata column, is taken as such; any other text is the name of a column.
-/

namespace TabularSql

set_option autoImplicit false

structure SortItem where
  column : String
  direction : Option SortDirection := none
  deriving DecidableEq, Repr, Inhabited

namespace SortItem

def isMetadata : Expr → Bool
  | .column ⟨none, ⟨name, none⟩⟩ => (MetadataName.ofWord? name).isSome
  | _ => false

def expr (item : SortItem) : Expr :=
  match Expr.parse item.column with
  | .ok expr =>
      if expr.containsSetFunction || isMetadata expr then expr else .quoted item.column
  | .error _ => .quoted item.column

/-- The key of ORDER BY; without a direction it is ascending. -/
def key (item : SortItem) : SortKey :=
  ⟨item.expr, some (item.direction.getD .ascending)⟩

end SortItem

end TabularSql
