import TabularSql.Column.Type

/-!
# Column models

The description of a column: its id when it is stored, its name and type, the sizes declared for it,
and how it can be faceted. A JSON column may offer facets on paths inside its documents.
-/

namespace TabularSql

set_option autoImplicit false

abbrev ColumnId := UInt64

structure SubColumn where
  name : String
  path : String
  type : ColumnType
  facet : FacetKind
  deriving DecidableEq, Repr, Inhabited

structure ColumnModel where
  /-- A computed column has none. -/
  id : Option ColumnId := none
  name : String
  type : ColumnType
  maxSize : Option UInt64 := none
  maxListLength : Option UInt64 := none
  facet : Option FacetKind := none
  subColumns : List SubColumn := []
  deriving DecidableEq, Repr, Inhabited

structure SelectColumn where
  name : String
  type : ColumnType
  id : Option ColumnId := none
  deriving DecidableEq, Repr, Inhabited

end TabularSql
