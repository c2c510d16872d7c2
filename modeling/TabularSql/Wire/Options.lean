import TabularSql.Statement.Compile
import TabularSql.Wire.Read

/-!
# Compiler options

The schemas, descriptions and options of a request, and the statement that answers it.
-/

namespace TabularSql

set_option autoImplicit false

namespace WireValue

def readColumn (value : WireValue) : Reading ColumnModel := .ofOption (ColumnModel.ofWire? value)

/-- Tables with their columns, then further columns. -/
def readCatalog (value : WireValue) : Reading Catalog := do
  let table (table : WireValue) : Reading (TableId × List ColumnModel) := do
    return (← (table.field "id").readTableId, ← (table.field "columns").readArray readColumn)
  let tables ← (value.field "tables").readList table
  let columns ← (value.field "columns").readList readColumn
  let withTables := tables.foldl (fun catalog (id, columns) => catalog.addTable id columns) {}
  return columns.foldl Catalog.addColumn withTables

/-- Any string stands for schemas without a column. -/
def readSchemas : WireValue → Reading (Option Schemas)
  | null => .ok none
  | string _ => .ok (some Schemas.empty)
  | object fields => do return some (← (object fields).readCatalog).schemas
  | _ => .unreadable

/-- A description, its table id first; those it depends on are read by `inner`. -/
def readDescriptionIn (inner : WireValue → Reading IndexDescription) (value : WireValue) :
    Reading IndexDescription := do
  let id ← (value.field "id").readTableId
  match ← (value.field "type").readText with
  | "table" => return .table id
  | "view" => return .view id (← .ofOption (TableKind.ofWire? (value.field "table_type")))
  | "materialized_view" =>
      return .materializedView id (← (value.field "dependencies").readArray inner)
  | "virtual_table" => return .virtualTable id (← (value.field "sql").readText)
  | _ => .unreadable

def readDescriptionWithin : Nat → WireValue → Reading IndexDescription
  | 0 => fun _ => .unreadable
  | depth + 1 => readDescriptionIn (readDescriptionWithin depth)

def readDescription (value : WireValue) : Reading IndexDescription :=
  readDescriptionWithin (value.depth + 1) value

def readOptions (value : WireValue) : Reading CompilerOptions := do
  let schemas ← (value.field "schema").readSchemas
  let description ← (value.field "description").readOption readDescription
  let lookup ← (value.field "lookup").readList readDescription
  let userId ← (value.field "user_id").readOption readSigned
  let context ← (value.field "context").readOption fun value => .ofOption (SqlContext.ofWire? value)
  let etag := (value.field "etag").isTrue
  let maxBytes ← (value.field "max_bytes").readOption readWord
  let offset ← (value.field "override_offset").readOption readWord
  let limit ← (value.field "override_limit").readOption readWord
  return { schemas, description, lookup, userId, context := context.getD .query, etag, maxBytes,
           offset, limit }

end WireValue

end TabularSql
