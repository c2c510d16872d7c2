import TabularSql.Column.Model
import TabularSql.TableId

/-!
# Schemas

What is known about the columns of tables, and about single columns by their ids. A table that is not
known has no columns. A catalog collects registrations; the latest one for a table or a column counts.
-/

namespace TabularSql

set_option autoImplicit false

structure Schemas where
  columnsOf : TableId → List ColumnModel
  column? : ColumnId → Option ColumnModel

namespace Schemas

def empty : Schemas := ⟨fun _ => [], fun _ => none⟩

end Schemas

/-- Registered tables and columns, newest first. -/
structure Catalog where
  tables : List (TableId × List ColumnModel) := []
  columns : List (ColumnId × ColumnModel) := []
  deriving Repr, Inhabited

namespace Catalog

/-- Registers a column under its id; a column without one cannot be looked up. -/
def addColumn (catalog : Catalog) (column : ColumnModel) : Catalog :=
  match column.id with
  | some id => { catalog with columns := (id, column) :: catalog.columns }
  | none => catalog

def addTable (catalog : Catalog) (table : TableId) (columns : List ColumnModel) : Catalog :=
  let registered := columns.foldl addColumn catalog
  { registered with tables := (table, columns) :: registered.tables }

def schemas (catalog : Catalog) : Schemas where
  columnsOf table := (catalog.tables.lookup table).getD []
  column? id := catalog.columns.lookup id

end Catalog

end TabularSql
