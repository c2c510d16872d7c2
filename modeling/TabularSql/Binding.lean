import TabularSql.Error
import TabularSql.Physical
import TabularSql.Schema

/-!
# Bound tables

The tables of a FROM clause with their columns. When there are several, each gets a correlation name
`_A0`, `_A1`, ... in the order of the clause. A column reference is resolved among the tables that its
qualifier selects, or among all of them; schema columns come before metadata columns.
-/

namespace TabularSql

set_option autoImplicit false

structure BoundColumn where
  id : ColumnId
  model : ColumnModel
  deriving DecidableEq, Repr, Inhabited

structure BoundTable where
  id : TableId
  written : String
  alias? : Option Identifier
  /-- The name that lowered references use, if they need one. -/
  correlation : Option String
  columns : List BoundColumn
  deriving DecidableEq, Repr, Inhabited

namespace BoundTable

/-- The columns of a table; each must have an id. -/
def bindColumns (table : TableId) (columns : List ColumnModel) :
    Except CompileError (List BoundColumn) :=
  columns.mapM fun model =>
    match model.id with
    | some id => .ok ⟨id, model⟩
    | none => .error (.configuration (.columnWithoutId model.name table))

/-- The name that a qualifier must have to select the table. -/
def qualifierName (table : BoundTable) : String :=
  match table.alias? with
  | some name => name.name
  | none => table.written

def find? (table : BoundTable) (name : String) : Option BoundColumn :=
  table.columns.find? fun column => column.model.name == name

def physicalName (table : BoundTable) : TableName :=
  ⟨Physical.table table.id, table.correlation.map fun name => ⟨name, none⟩⟩

end BoundTable

inductive ColumnTarget where
  | stored (column : BoundColumn)
  | metadata (name : MetadataName)
  deriving DecidableEq, Repr

structure ResolvedColumn where
  table : BoundTable
  target : ColumnTarget
  deriving DecidableEq, Repr

namespace ResolvedColumn

def type (resolved : ResolvedColumn) : ColumnType :=
  match resolved.target with
  | .stored column => column.model.type
  | .metadata name => name.type

def stored? (resolved : ResolvedColumn) : Option BoundColumn :=
  match resolved.target with
  | .stored column => some column
  | .metadata _ => none

/-- The qualifier that a lowered reference to the column needs. -/
def qualifier (resolved : ResolvedColumn) : Option String :=
  resolved.table.correlation

def physical (resolved : ResolvedColumn) : ColumnRef :=
  match resolved.target with
  | .stored column => Physical.columnRef resolved.qualifier column.id
  | .metadata name => Physical.metadataRef resolved.qualifier name

end ResolvedColumn

/-- The tables of a FROM clause, from left to right. -/
structure Binding where
  tables : List BoundTable
  deriving DecidableEq, Repr, Inhabited

namespace Binding

def bindTable (schemas : Schemas) (several : Bool) (table : TableName) (index : Nat) :
    Except CompileError BoundTable := do
  let id ← TableId.parse table.name
  let columns ← BoundTable.bindColumns id (schemas.columnsOf id)
  return {
    id
    written := table.name
    alias? := table.alias?
    correlation := if several then some (Physical.correlation index) else none
    columns }

def ofSource (schemas : Schemas) (source : Source) : Except CompileError Binding := do
  let tables ← source.tables.zipIdx.mapM fun (table, index) =>
    bindTable schemas source.isJoin table index
  return ⟨tables⟩

def isJoin (binding : Binding) : Bool := 1 < binding.tables.length

def tableIds (binding : Binding) : List TableId :=
  TableId.distinct (binding.tables.map BoundTable.id)

def first? (binding : Binding) (id : TableId) : Option BoundTable :=
  binding.tables.find? fun table => table.id == id

/-- Models without those whose id appeared before. -/
def distinctById (models : List ColumnModel) : List ColumnModel :=
  models.foldl
    (fun seen model => if seen.any fun other => other.id == model.id then seen else seen ++ [model]) []

def columns (binding : Binding) : List ColumnModel :=
  distinctById (binding.tables.flatMap fun table => table.columns.map BoundColumn.model)

def starQualifier (binding : Binding) (table : BoundTable) : Option Identifier :=
  match table.alias? with
  | some name => some name
  | none => if binding.isJoin then some ⟨table.written, none⟩ else none

/-- The items that a star stands for: one for each column, table by table. -/
def starItems (binding : Binding) : List SelectItem :=
  binding.tables.flatMap fun table =>
    table.columns.map fun column =>
      ⟨.column ⟨binding.starQualifier table, .doubleQuoted column.model.name⟩, none⟩

/-- The items of a star; at least one table must have columns. -/
def star (binding : Binding) : Except CompileError (List SelectItem) :=
  match binding.tables with
  | [] => .ok []
  | first :: rest =>
      if (first :: rest).all fun table => table.columns.isEmpty then .error (.unknownTable first.id)
      else .ok binding.starItems

def candidates (binding : Binding) (column : ColumnRef) : List BoundTable :=
  match column.qualifier with
  | some qualifier => binding.tables.filter fun table => table.qualifierName == qualifier.name
  | none => binding.tables

/-- What a reference stands for, if anything. A name in several tables must be qualified; a metadata
column is that of the first table. -/
def resolve (binding : Binding) (column : ColumnRef) : Except CompileError (Option ResolvedColumn) :=
  let candidates := binding.candidates column
  let hits := candidates.filterMap fun table =>
    (table.find? column.name.name).map fun found => ResolvedColumn.mk table (.stored found)
  match hits with
  | [found] => .ok (some found)
  | _ :: _ :: _ => .error (.ambiguousColumn column.unquoted)
  | [] => .ok do
      let name ← MetadataName.ofWord? column.name.name
      let table ← candidates.head?
      return ⟨table, .metadata name⟩

def resolveRequired (binding : Binding) (column : ColumnRef) : Except CompileError ResolvedColumn := do
  match ← binding.resolve column with
  | some found => return found
  | none => throw (.columnDoesNotExist column.unquoted)

def resolve? (binding : Binding) (column : ColumnRef) : Option ResolvedColumn :=
  match binding.resolve column with
  | .ok found => found
  | .error _ => none

end Binding

namespace Source

def mapTables (change : Nat → TableName → TableName) : Source → Source
  | table only => table (change 0 only)
  | join left kind right condition =>
      join (left.mapTables change) kind (change left.tables.length right) condition

end Source

namespace Binding

/-- The FROM clause over physical names; join conditions are left as they are. -/
def lowerTables (binding : Binding) (source : Source) : Source :=
  source.mapTables fun index table =>
    match binding.tables[index]? with
    | some bound => bound.physicalName
    | none => table

end Binding

end TabularSql
