import TabularSql.Output
import TabularSql.Part
import TabularSql.Statement.Plan

/-!
# Compilation of statements

A compiler turns a query over logical tables into a statement over the physical store with its literals
bound as parameters. It works from the innermost query of the plan outwards: the tables of every part
are bound and stars spelled out, the output columns and the page are worked out, and then every part is
lowered. Only the statement itself gets metadata columns, guarded doubles and the page of the caller;
the queries of common tables do not.
-/

namespace TabularSql

set_option autoImplicit false

structure CompilerOptions where
  schemas : Option Schemas := none
  description : Option IndexDescription := none
  /-- The objects that virtual tables can read. -/
  lookup : List IndexDescription := []
  userId : Option Int64 := none
  context : SqlContext := .query
  etag : Bool := false
  maxBytes : Option UInt64 := none
  offset : Option UInt64 := none
  limit : Option UInt64 := none

structure Compiler where
  schemas : Schemas
  description : IndexDescription
  lookup : List IndexDescription := []
  userId : Int64
  context : SqlContext := .query
  etag : Bool := false
  maxBytes : Option UInt64 := none
  offset : Option UInt64 := none
  limit : Option UInt64 := none

/-- Whether a query is the statement itself or defines a common table. -/
inductive Role where
  | statement
  | definition
  deriving DecidableEq, Repr

structure CompiledQuery where
  query : Query
  selectColumns : List SelectColumn
  /-- The output columns with their ids and sizes. -/
  outputColumns : List ColumnModel
  /-- The columns of the tables that the parts read. -/
  tableColumns : List ColumnModel
  tableIds : List TableId
  singleTable : Option TableId
  isAggregated : Bool
  hasRowIds : Bool
  hasEtag : Bool
  searches : Bool
  rowSize : UInt64
  rowsPerPage : Option UInt64

structure Statement where
  compiled : CompiledQuery
  parameters : Parameters

namespace Statement

def text (statement : Statement) : String := statement.compiled.query.text

end Statement

namespace Select

def bindTables (schemas : Schemas) (part : Select) : Except CompileError (Binding × Select) := do
  let binding ← Binding.ofSource schemas part.source
  match part.projection with
  | .items _ => return (binding, part)
  | .all => return (binding, { part with projection := .items (← binding.star) })

def describe (schemas : Schemas) (binding : Binding) (part : Select) : List ColumnModel :=
  part.projection.itemList.map (SelectItem.describe schemas binding)

end Select

namespace CompiledQuery

def commonColumns (name : Identifier) (inner : CompiledQuery) :
    Except CompileError (List Identifier) :=
  inner.outputColumns.mapM fun model =>
    match model.id with
    | some id => .ok ⟨Physical.column id, none⟩
    | none => .error (.configuration (.outputWithoutId model.name name))

/-- A compiled query as a common table. A name that is a table id becomes physical. -/
def toCommonTable (name : Identifier) (inner : CompiledQuery) : Except CompileError CommonTable := do
  let columns ← inner.commonColumns name
  let name := match TableId.ofText? name.name with
    | some id => ⟨Physical.table id, none⟩
    | none => name
  return ⟨name, columns, inner.query⟩

end CompiledQuery

namespace Compiler

def create (options : CompilerOptions) : Except CompileError Compiler := do
  let some schemas := options.schemas | throw (.missing .schemas)
  let some description := options.description | throw (.missing .description)
  let some userId := options.userId | throw (.missing .user)
  return {
    schemas
    description
    lookup := options.lookup
    userId
    context := options.context
    etag := options.etag
    maxBytes := options.maxBytes
    offset := options.offset
    limit := options.limit }

/-- The last part with the page that the caller asks for, within the page budget. -/
def pageLast (compiler : Compiler) (rowsPerPage : Option UInt64) :
    List (Binding × Select) → Except CompileError (List (Binding × Select))
  | [] => .ok []
  | [(binding, last)] => do
      let requested ← Page.within last.page compiler.offset compiler.limit
      return [(binding, { last with page := ← Page.capped requested rowsPerPage })]
  | part :: rest => do return part :: (← compiler.pageLast rowsPerPage rest)

def metadata (compiler : Compiler) (role : Role) (description : IndexDescription)
    (aggregated : Bool) (tables : List TableId) : Except CompileError (List RowMetadata) :=
  match role with
  | .statement => description.metadata compiler.context compiler.etag aggregated tables
  | .definition => .ok []

def rowsPerPage (compiler : Compiler) (role : Role) (rowSize : UInt64) : Option UInt64 :=
  match role with
  | .statement => compiler.maxBytes.map fun budget => Size.rowsPerPage budget rowSize
  | .definition => none

def page (compiler : Compiler) (role : Role) (rowsPerPage : Option UInt64)
    (parts : List (Binding × Select)) : Except CompileError (List (Binding × Select)) :=
  match role with
  | .statement => compiler.pageLast rowsPerPage parts
  | .definition => .ok parts

/-- Compiles a query whose common table, if it has one, is compiled already. -/
def compileParts (compiler : Compiler) (role : Role) (description : IndexDescription)
    (query : Query) (inner : Option CompiledQuery) : Lowering CompiledQuery := do
  let parts ← Lowering.lift (query.parts.mapM (Select.bindTables compiler.schemas))
  let bindings := parts.map Prod.fst
  let tableIds := TableId.distinct
    (bindings.flatMap Binding.tableIds ++ (inner.map CompiledQuery.tableIds).getD [])
  let isAggregated :=
    (inner.map CompiledQuery.isAggregated).getD false ||
      parts.any fun (_, part) => part.isAggregate
  let metadata ← Lowering.lift (compiler.metadata role description isAggregated tableIds)
  let outputColumns := Output.widen
    (parts.map fun (binding, part) => part.describe compiler.schemas binding)
  let rowSize := Size.ofRow outputColumns
  let rowsPerPage := compiler.rowsPerPage role rowSize
  let parts ← Lowering.lift (compiler.page role rowsPerPage parts)
  let guardsDoubles := role = .statement && compiler.context = .query
  let lowered ← parts.mapM fun (binding, part) =>
    part.lower compiler.schemas guardsDoubles metadata binding
  return {
    query := query.withParts (lowered.map Prod.fst)
    selectColumns := Output.selectColumns outputColumns isAggregated
    outputColumns
    tableColumns := Binding.distinctById (bindings.flatMap Binding.columns)
    tableIds
    singleTable := match bindings with
      | [⟨[only]⟩] => some only.id
      | _ => none
    isAggregated
    hasRowIds := metadata.contains .id
    hasEtag := metadata.contains .etag
    searches := lowered.any Prod.snd
    rowSize
    rowsPerPage }

def compilePlan (compiler : Compiler) (role : Role) : Plan → Lowering CompiledQuery
  | .plain description query => compiler.compileParts role description query none
  | .layered description query name inner => do
      let compiled ← compiler.compilePlan .definition inner
      let element ← Lowering.lift (compiled.toCommonTable name)
      compiler.compileParts role description { query with commonTables := some [element] }
        (some compiled)

def start (compiler : Compiler) : BindingContext := { userId := compiler.userId }

def compileQuery (compiler : Compiler) (query : Query) : Except CompileError Statement := do
  let plan ← Plan.ofStatement compiler.lookup compiler.context compiler.start compiler.description
    query
  let (compiled, state) :=
    (compiler.compilePlan .statement plan).run { context := compiler.start }
  return ⟨← compiled, state.context.parameters⟩

def compileText (compiler : Compiler) (text : String) : Except CompileError Statement := do
  compiler.compileQuery (← (Query.parse text).mapError .malformed)

end Compiler

end TabularSql
