import TabularSql.Physical
import TabularSql.Query.Grammar
import TabularSql.Query.View

/-!
# Index descriptions

What backs a queried object: a table, a view whose rows have benefactors, a materialized view built
from other objects, or a virtual table, which is a query evaluated whenever it is read. The
description decides which metadata columns a statement gets and how its query is prepared.
-/

namespace TabularSql

set_option autoImplicit false

/-- What a statement is compiled for: to answer a query, or to build a materialized view. -/
inductive SqlContext where
  | query
  | build
  deriving DecidableEq, Repr, Inhabited

inductive IndexDescription where
  | table (id : TableId)
  | view (id : TableId) (kind : TableKind)
  | materializedView (id : TableId) (dependencies : List IndexDescription)
  | virtualTable (id : TableId) (definingText : String)
  deriving Repr, Inhabited

inductive RowMetadata where
  | id
  | version
  | etag
  /-- The benefactor of the rows of a view. -/
  | benefactor (view : TableId)
  deriving DecidableEq, Repr, Inhabited

namespace IndexDescription

def id : IndexDescription → TableId
  | table id | view id _ | materializedView id _ | virtualTable id _ => id

def kind : IndexDescription → TableKind
  | table _ => .table
  | view _ kind => kind
  | materializedView .. => .materializedView
  | virtualTable .. => .virtualTable

def isVirtual : IndexDescription → Bool
  | virtualTable .. => true
  | _ => false

def hasBenefactor : IndexDescription → Bool
  | view .. => true
  | _ => false

def dependencies : IndexDescription → List IndexDescription
  | materializedView _ dependencies => dependencies
  | _ => []

def definingText? : IndexDescription → Option String
  | virtualTable _ text => some text
  | _ => none

/-- Whether a query may join tables or unite parts. -/
def supportsComposition : IndexDescription → SqlContext → Bool
  | materializedView .., .build => true
  | _, _ => false

/-- The views whose benefactors a built object must keep, among the tables of the statement. -/
def benefactorViews (description : IndexDescription) (tables : List TableId) : List TableId :=
  match description with
  | view id _ => [id]
  | materializedView _ dependencies =>
      tables.filter fun table =>
        dependencies.any fun dependency => dependency.id == table && dependency.hasBenefactor
  | table _ | virtualTable .. => []

/-- The metadata columns of every part of a statement over the given tables. -/
def metadata (description : IndexDescription) (context : SqlContext) (etag aggregated : Bool)
    (tables : List TableId) : Except CompileError (List RowMetadata) :=
  match context with
  | .query =>
      if aggregated || description.isVirtual then .ok []
      else if etag && description.kind.isEntityView then .ok [.id, .version, .etag]
      else .ok [.id, .version]
  | .build =>
      let views := description.benefactorViews tables
      if aggregated && !views.isEmpty then .error (.unsupported .groupsOverView)
      else .ok (views.map .benefactor)

/-- A defining query narrowed by a condition of the query that reads it. -/
def narrow (defining : Query) : Option Expr → Except CompileError Query
  | none => .ok defining
  | some condition =>
      if !defining.first.groupBy.isEmpty then .error (.unsupported .definingFilterOnGroups)
      else
        let filter := match defining.first.filter with
          | some own => Expr.and own.parenthesized condition.parenthesized
          | none => condition
        .ok { defining with first := { defining.first with filter := some filter } }

/-- A query over a virtual table, with the defining query as a common table. -/
def expandQuery (id : TableId) (definingText : String) (query : Query) :
    Except CompileError Query := do
  if query.isUnion then throw (.unsupported .union)
  if query.first.source.isJoin then throw (.unsupported .join)
  if query.commonTables.isSome then throw (.unsupported .commonTables)
  let defining ← (Query.parse definingText).mapError .malformed
  let narrowed ← narrow defining query.first.definingFilter
  return { query with
    commonTables := some [⟨⟨Physical.table id, none⟩, [], narrowed⟩]
    first := { query.first with definingFilter := none } }

/-- The query as it is compiled. A virtual table brings its defining query along; any other object
refuses a condition on a defining query. -/
def prepare (description : IndexDescription) (query : Query) : Except CompileError Query :=
  match description with
  | virtualTable id definingText => expandQuery id definingText query
  | _ =>
      if query.parts.any fun part => part.definingFilter.isSome then
        .error (.unsupported .definingFilter)
      else .ok query

/-- The description of a table that a common table reads. Only a virtual table looks it up; any other
object reads plain tables. -/
def dependency (description : IndexDescription) (lookup : List IndexDescription) (table : TableId) :
    Except CompileError IndexDescription :=
  if description.isVirtual then
    match lookup.find? fun known => known.id == table with
    | some known => .ok known
    | none => .error (.configuration (.noDescription table))
  else .ok (.table table)

end IndexDescription

end TabularSql
