import TabularSql.Proofs.Lowering.Notes
import TabularSql.Proofs.Lowering.Stars
import TabularSql.Proofs.Lowering.Virtual

/-!
# Row metadata

The statement that answers a query has the id and the version of each row behind the items of the query, as
long as a row of the result is a row of a stored table. That is not so for a virtual table, and not if a part
aggregates: a part of the query itself or of a query in its WITH clause. Whether a query aggregates is found
out for the innermost query first and handed outwards. The caller is told which of the columns were added, and
sees only the items of the first part.
-/

namespace TabularSql

set_option autoImplicit false

/-! ## Aggregation -/

/-- A row of the part can stand for several rows: equal rows are told apart no more, rows are grouped, or an
item has a set function at some depth. -/
def Select.Aggregates (part : Select) : Prop :=
  part.distinct = true ∨ part.groupBy ≠ [] ∨ ∃ item ∈ part.projection.itemList,
    Fragment.Holds (fun expr => expr.isSetFunction = true) (.expr item.expr)

/-- A part of the query aggregates, or a part of a query in its WITH clause at any depth. -/
inductive Query.Aggregates : Query → Prop where
  | part {query : Query} {part : Select} (member : part ∈ query.parts) (aggregates : part.Aggregates) :
      Query.Aggregates query
  | element {query : Query} {element : CommonTable} (member : element ∈ query.elements)
      (inner : Query.Aggregates element.query) : Query.Aggregates query

theorem Query.aggregates_iff {query : Query} : query.Aggregates ↔
    (∃ element ∈ query.elements, element.query.Aggregates) ∨ ∃ part ∈ query.parts, part.Aggregates := by
  constructor
  · rintro (⟨member, aggregates⟩ | ⟨member, inner⟩)
    · exact .inr ⟨_, member, aggregates⟩
    · exact .inl ⟨_, member, inner⟩
  · rintro (⟨element, member, inner⟩ | ⟨part, member, aggregates⟩)
    · exact .element member inner
    · exact .part member aggregates

namespace Expr

/-- A subquery, which no query may have. -/
def IsSubquery : Expr → Prop
  | inQuery .. => True
  | _ => False

/-- Outside of subqueries there is nothing else than in the list of subexpressions. -/
theorem containsSetFunction_iff {whole : Expr} (plain : ¬ Fragment.Holds IsSubquery (.expr whole)) :
    whole.containsSetFunction = true ↔
      Fragment.Holds (fun expr => expr.isSetFunction = true) (.expr whole) := by
  rw [containsSetFunction, List.any_eq_true]
  induction whole using Fragment.expr_induction with
  | step whole ih =>
    rw [Fragment.holds_expr] at plain ⊢
    push Not at plain
    have exprs : ∀ part ∈ whole.inside, ∃ expr, part = .expr expr := by
      apply exprs_inside
      rintro _ _ _ rfl
      exact plain.1 trivial
    constructor
    · rintro ⟨part, member, passes⟩
      rcases mem_subexpressions.mp member with rfl | ⟨inner, inside, deeper⟩
      · exact .inl passes
      · exact .inr ⟨_, inside, (ih _ inside (plain.2 _ inside)).mp ⟨part, deeper, passes⟩⟩
    · rintro (passes | ⟨fragment, inside, holds⟩)
      · exact ⟨whole, mem_subexpressions.mpr (.inl rfl), passes⟩
      · obtain ⟨inner, rfl⟩ := exprs fragment inside
        obtain ⟨part, deeper, passes⟩ := (ih _ inside (plain.2 _ inside)).mpr holds
        exact ⟨part, mem_subexpressions.mpr (.inr ⟨inner, inside, deeper⟩), passes⟩

end Expr

namespace Lowering

theorem plain_of_lower {schemas : Schemas} {guardsDoubles : Bool} {metadata : List RowMetadata}
    {binding : Binding} {part : Select} {result : Select × Bool} {state after : LoweringState}
    (ran : (part.lower schemas guardsDoubles metadata binding).run state = (.ok result, after)) :
    ∀ item ∈ part.projection.itemList, ¬ Fragment.Holds Expr.IsSubquery (.expr item.expr) := by
  have nothing {α : Type} {occurs : Prop} (step : Lowering α) (never : ¬ occurs) :
      Notes (fun _ => False) step occurs := notes_nothing never fun _ _ _ _ => Iff.rfl
  have tracks : Tracks { schemas, binding, guardsDoubles, aliases := part.aliases } (fun _ => False)
      Expr.IsSubquery := by
    refine ⟨fun _ _ => Iff.rfl, fun _ => nothing _ not_false, fun _ => nothing _ not_false,
      fun _ _ _ => nothing _ not_false, fun whole => ?_⟩
    cases whole <;> simp [Expr.IsSubquery, Expr.LeavesNote]
  intro item member holds
  exact (noted_of_lower tracks (fun _ => not_false) ran).mpr
    ⟨item.expr, Select.mem_clauses.mpr (.inl ⟨item, member, rfl⟩), holds⟩

end Lowering

namespace Select

theorem isAggregate_iff {part : Select}
    (plain : ∀ item ∈ part.projection.itemList, ¬ Fragment.Holds Expr.IsSubquery (.expr item.expr)) :
    part.isAggregate = true ↔ part.Aggregates := by
  have items : part.projection.containsSetFunction = true ↔ ∃ item ∈ part.projection.itemList,
      Fragment.Holds (fun expr => expr.isSetFunction = true) (.expr item.expr) := by
    rw [Projection.containsSetFunction, List.any_eq_true]
    exact exists_congr fun item => and_congr_right fun member =>
      Expr.containsSetFunction_iff (plain item member)
  rw [isAggregate, Bool.or_eq_true, Bool.or_eq_true, items, Aggregates, or_assoc]
  simp

theorem aggregates_bindTables {schemas : Schemas} {part : Select} {bound : Binding × Select}
    (ok : part.bindTables schemas = .ok bound) : bound.2.Aggregates ↔ part.Aggregates := by
  obtain ⟨_, ⟨same, _⟩ | ⟨items, star, all, spelled⟩⟩ := bindTables_of_ok ok
  · rw [same]
  · have none : ¬ ∃ item ∈ items,
        Fragment.Holds (fun expr => expr.isSetFunction = true) (.expr item.expr) := by
      rintro ⟨item, member, holds⟩
      obtain ⟨_, _, _, _, rfl⟩ := Binding.star_columns star item member
      exact Fragment.not_holds_leaf (by simp [Expr.isSetFunction]) rfl holds
    have nothing : part.projection.itemList = [] := by rw [all, Projection.itemList]
    rw [spelled, Aggregates, Aggregates, nothing]
    simp [Projection.itemList, none]

end Select

namespace Compiler

open Lowering

variable {compiler : Compiler} {compiled : CompiledQuery} {state after : LoweringState}

/-- What is reported of a query is about its parts and about its common table. -/
theorem aggregated_compileParts {role : Role} {description : IndexDescription} {query : Query}
    {inner : Option CompiledQuery}
    (ran : (compiler.compileParts role description query inner).run state = (.ok compiled, after)) :
    compiled.isAggregated = true ↔
      (∃ below ∈ inner, below.isAggregated = true) ∨ ∃ part ∈ query.parts, part.Aggregates := by
  obtain ⟨parts, paged, _, lowered, compiles, ran⟩ := run_compileParts ran
  -- The parts were lowered with their pages, which makes no difference to their items.
  have plain : ∀ bound ∈ parts, ∀ item ∈ bound.2.projection.itemList,
      ¬ Fragment.Holds Expr.IsSubquery (.expr item.expr) := by
    intro bound member
    obtain ⟨result, listed, _, page, same⟩ := forall₂_left (page_of_ok compiles.pages) bound member
    obtain ⟨_, _, start, stop, ran⟩ := forall₂_left (run_mapM ran) result listed
    have own := plain_of_lower ran
    rwa [same] at own
  have pairs := (List.forall₂_and_left _ _).mpr
    ⟨fun _ member => plain _ member, (Except.forall₂_of_mapM compiles.binds).flip⟩
  have own : (∃ bound ∈ parts, bound.2.isAggregate = true) ↔ ∃ part ∈ query.parts, part.Aggregates := by
    apply forall₂_exists
    apply pairs.imp
    rintro bound part ⟨plain, binds⟩
    rw [Select.isAggregate_iff plain, Select.aggregates_bindTables binds]
  rw [← own, compiles.isAggregated]
  cases inner <;> simp

theorem aggregated_compilePlan {lookup : List IndexDescription} {sqlContext : SqlContext}
    {context : BindingContext} {description : IndexDescription} {query : Query} {plan : Plan} {role : Role}
    (stored : description.isVirtual = false)
    (laid : Plan.layOut lookup sqlContext context description query = .ok plan)
    (ran : (compiler.compilePlan role plan).run state = (.ok compiled, after)) :
    compiled.isAggregated = true ↔ query.Aggregates := by
  replace laid := Plan.laidOut_of_ok laid
  induction laid generalizing role compiled state after with
  | plain checked clause =>
    obtain rfl := Plan.prepareChecked_stored stored checked
    rw [aggregated_compileParts ran, Query.aggregates_iff, Query.elements, clause]
    simp
  | layered checked clause _ found _ _ ih =>
    obtain rfl := Plan.prepareChecked_stored stored checked
    obtain rfl := Plan.dependency_of_stored stored found
    obtain ⟨below, _, ran_below, ran⟩ := run_bind ran
    obtain ⟨_, _, _, ran⟩ := run_bind ran
    rw [aggregated_compileParts ran, Query.aggregates_iff, Query.elements, clause]
    simp only [Option.mem_some, exists_eq_left', Option.getD_some, List.mem_singleton, exists_eq_left,
      ih rfl ran_below]
    rfl

end Compiler

/-! ## Added columns -/

/-- For a query that is answered, the columns of the row are added if its rows are stored ones, and nothing
else is. -/
theorem IndexDescription.metadata_query {description : IndexDescription} {etag aggregated : Bool}
    {tables : List TableId} {metadata : List RowMetadata}
    (ok : description.metadata .query etag aggregated tables = .ok metadata) :
    (metadata.contains .id = true ↔ description.isVirtual = false ∧ ¬ aggregated = true) ∧
    (metadata.contains .etag = true ↔
      metadata.contains .id = true ∧ etag = true ∧ description.kind.isEntityView = true) ∧
    metadata = (if metadata.contains .id then [.id, .version] else []) ++
      if metadata.contains .etag then [.etag] else [] := by
  simp only [IndexDescription.metadata] at ok
  split at ok
  · next none =>
      cases ok
      simp only [Bool.or_eq_true] at none
      grind
  · next stored =>
      simp only [Bool.or_eq_true, not_or, Bool.not_eq_true] at stored
      split at ok <;> cases ok
      · next both => simp_all
      · next either => simp_all

/-- The columns of the row that a statement says it has, behind its own items. -/
def CompiledQuery.rowItems (compiled : CompiledQuery) : List SelectItem :=
  let column (name : MetadataName) : SelectItem := ⟨.named name.text, none⟩
  (if compiled.hasRowIds then [column .rowId, column .rowVersion] else []) ++
    if compiled.hasEtag then [column .rowEtag] else []

/-- The lowered select list has the items of the part, each lowered in its place, and the given items behind
them. -/
def Select.FollowedBy (schemas : Schemas) (behind : List SelectItem) (part lowered : Select) : Prop :=
  ∃ binding items own, Binding.ofSource schemas part.source = .ok binding ∧ part.Spells binding items ∧
    List.Forall₂ (SelectItem.LowersTo
      ⟨schemas, binding, true, Select.aliases { part with projection := .items items }⟩) items own ∧
    lowered.projection = .items (own ++ behind)

/-- The caller is told the name and the type of each item, in the order of the items. -/
def Select.ReportedAs (schemas : Schemas) (part : Select) (columns : List SelectColumn) : Prop :=
  ∃ binding items, Binding.ofSource schemas part.source = .ok binding ∧ part.Spells binding items ∧
    columns.map (fun column => (column.name, column.type)) =
      items.map fun item =>
        ((item.describe schemas binding).name, (item.describe schemas binding).type)

theorem Binding.correlation_single {schemas : Schemas} {source : Source} {binding : Binding}
    (ok : ofSource schemas source = .ok binding) (single : source.isJoin = false) :
    ∀ table ∈ binding.tables, table.correlation = none := by
  refine forall₂_right (forall₂_of_ofSource ok) fun pair _ bound own => ?_
  rw [(bound_of_bindTable own).2.2.1, single]
  rfl

theorem RowMetadata.expr_single {schemas : Schemas} {source : Source} {binding : Binding}
    (ok : Binding.ofSource schemas source = .ok binding) (single : source.isJoin = false)
    (name : MetadataName) : RowMetadata.ofFirst binding name = .named name.text := by
  have none : binding.tables.head?.bind BoundTable.correlation = .none := by
    cases first : binding.tables.head? with
    | none => rfl
    | some table => exact Binding.correlation_single ok single table (List.mem_of_mem_head? first)
  rw [RowMetadata.ofFirst, none]
  rfl

theorem Select.LoweredAs.followedBy {schemas : Schemas} {metadata : List RowMetadata}
    {known : List TableId} {part lowered : Select} {behind : List SelectItem}
    (lowers : part.LoweredAs schemas true metadata known lowered)
    (added : ∀ binding, Binding.ofSource schemas part.source = .ok binding →
      (metadata.map fun column => ⟨column.expr binding, none⟩) = behind) :
    part.FollowedBy schemas behind lowered := by
  obtain ⟨⟨binding, bound⟩, searches, start, stop, boundAs, _, ran⟩ := lowers
  obtain ⟨own, items, projection⟩ := projection_of_run ran
  rw [added binding boundAs.1] at projection
  exact ⟨binding, bound.projection.itemList, own, boundAs.1, boundAs.spells, items, projection⟩

/-! ## Statements -/

namespace Compiler

open Lowering

variable {compiler : Compiler} {query : Query} {statement : Statement}

theorem single_of_query (context : compiler.context = .query)
    (compiled : compiler.compileQuery query = .ok statement) :
    ∀ part ∈ query.parts, part.source.isJoin = false := by
  obtain ⟨plan, after, planned, ran⟩ := run_of_compileQuery compiled
  have checked := Plan.prepared_query planned
  have refuses : compiler.description.supportsComposition compiler.context = false := by
    rw [context]
    cases compiler.description <;> rfl
  have single := (IndexDescription.single_of_checked refuses checked).2
  rw [IndexDescription.prepare_parts (IndexDescription.prepare_of_checked checked)] at single
  simpa using single

theorem reportedAs_of_run {description : IndexDescription} {role : Role} {inner : Option CompiledQuery}
    {compiled : CompiledQuery} {start after : LoweringState}
    (ran : (compiler.compileParts role description query inner).run start = (.ok compiled, after)) :
    query.first.ReportedAs compiler.schemas compiled.selectColumns := by
  obtain ⟨bound, rest, binds, columns⟩ := columns_of_run ran
  have spelled : query.first.Spells bound.1 bound.2.projection.itemList := by
    obtain ⟨_, ⟨same, notAll⟩ | ⟨items, star, all, same⟩⟩ := Select.bindTables_of_ok binds
    · rw [same]
      cases written : query.first.projection with
      | all => exact absurd written notAll
      | items list => exact .inl written
    · rw [same]
      exact .inr ⟨all, star⟩
  refine ⟨bound.1, bound.2.projection.itemList, (Select.bindTables_of_ok binds).1, spelled, ?_⟩
  have wide := @Output.map_widen _ (fun model => (model.name, model.type)) (fun _ _ => rfl)
    (bound.2.describe compiler.schemas bound.1) rest
  rw [Select.describe, List.map_map] at wide
  rw [columns, Output.selectColumns, List.map_map]
  exact wide

theorem flags_of_run {description : IndexDescription} {role : Role} {inner : Option CompiledQuery}
    {compiled : CompiledQuery} {start after : LoweringState}
    (ran : (compiler.compileParts role description query inner).run start = (.ok compiled, after)) :
    ∃ metadata, compiler.metadata role description compiled.isAggregated compiled.tableIds = .ok metadata ∧
      compiled.hasRowIds = metadata.contains .id ∧ compiled.hasEtag = metadata.contains .etag := by
  obtain ⟨_, _, metadata, _, own, _⟩ := run_compileParts ran
  exact ⟨metadata, own.adds, own.hasRowIds, own.hasEtag⟩

/-- The row metadata of a statement. It has the id and the version of each row exactly if it answers a query
over an object that is not virtual and neither the query nor a query in its WITH clause aggregates, and the
etag besides exactly if it was asked for and the object is a view of entities. These columns, and no others,
follow the items of each part; without them nothing does. What is reported is one column for each item of the
first part. -/
theorem row_metadata_reported (compiler : Compiler) (query : Query) (statement : Statement)
    (compiled : compiler.compileQuery query = .ok statement) :
    (statement.compiled.hasRowIds = true ↔ compiler.context = .query ∧
      compiler.description.isVirtual = false ∧ ¬ query.Aggregates) ∧
    (statement.compiled.hasEtag = true ↔ statement.compiled.hasRowIds = true ∧ compiler.etag = true ∧
      compiler.description.kind.isEntityView = true) ∧
    (compiler.context = .query →
      List.Forall₂ (Select.FollowedBy compiler.schemas statement.compiled.rowItems) query.parts
        statement.compiled.query.parts) ∧
    query.first.ReportedAs compiler.schemas statement.compiled.selectColumns := by
  obtain ⟨plan, after, planned, ran_plan⟩ := run_of_compileQuery compiled
  obtain ⟨entered, _, laid⟩ := Except.of_bind planned
  obtain ⟨prepared, inner, start, stop, parts, ran⟩ := compileParts_of_query compiled
  obtain ⟨metadata, own, ids, etag⟩ := flags_of_run ran
  obtain ⟨_, same, _, _, lowers⟩ := guarded_compileParts ran
  rw [own] at same
  cases same
  have reported := reportedAs_of_run ran
  rw [show prepared.first = { query.first with definingFilter := none } from
    Option.some.inj (congrArg List.head? parts)] at reported
  cases context : compiler.context with
  | build =>
    rw [Compiler.metadata, context] at own
    rw [IndexDescription.metadata_built own] at ids etag
    refine ⟨by simp [ids], by simp [ids, etag], fun asked => ?_, reported⟩
    cases asked
  | query =>
    rw [Compiler.metadata, context] at own
    obtain ⟨rows, versions, all⟩ := IndexDescription.metadata_query own
    rw [← ids, ← etag] at versions all
    rw [← ids] at rows
    have single := single_of_query context compiled
    refine ⟨?_, versions, fun _ => ?_, reported⟩
    · rw [rows]
      constructor
      · rintro ⟨stored, plain⟩
        rw [aggregated_compilePlan stored laid ran_plan] at plain
        exact ⟨rfl, stored, plain⟩
      · rintro ⟨_, stored, plain⟩
        rw [← aggregated_compilePlan stored laid ran_plan] at plain
        exact ⟨stored, plain⟩
    · rw [parts, List.forall₂_map_left_iff, context] at lowers
      apply ((List.forall₂_and_left _ _).mpr ⟨single, lowers⟩).imp
      rintro part lowered ⟨alone, lowers⟩
      show Select.FollowedBy _ _ { part with definingFilter := none } lowered
      refine Select.LoweredAs.followedBy lowers fun binding binds => ?_
      have column (name : MetadataName) := RowMetadata.expr_single binds alone name
      rw [all, CompiledQuery.rowItems, List.map_append]
      congr 1
      · split <;> simp [RowMetadata.expr, column]
      · split <;> simp [RowMetadata.expr, column]

/-- `SELECT name AS label, weight FROM syn2` over a view of entities, with the etag of each row. -/
def labelledQuery : Query :=
  .single (Select.simple (.items [⟨.named "name", some ⟨"label", none⟩⟩, ⟨.named "weight", none⟩])
    (.named "syn2"))

def entityCompiler : Compiler :=
  { weighedCompiler with description := .view ⟨2, none⟩ .entityView, etag := true }

theorem row_metadata_reported_entities :
    ∃ statement, entityCompiler.compileQuery labelledQuery = .ok statement ∧
      statement.text = "SELECT _C11_ AS label, " ++
        "CASE WHEN _DBL_C13_ IS NULL THEN _C13_ ELSE _DBL_C13_ END, ROW_ID, ROW_VERSION, ROW_ETAG FROM T2" ∧
      ¬ labelledQuery.Aggregates ∧
      List.Forall₂ (Select.FollowedBy entityCompiler.schemas
          [⟨.named "ROW_ID", none⟩, ⟨.named "ROW_VERSION", none⟩, ⟨.named "ROW_ETAG", none⟩])
        labelledQuery.parts statement.compiled.query.parts ∧
      labelledQuery.first.ReportedAs entityCompiler.schemas statement.compiled.selectColumns := by
  obtain ⟨statement, compiled, text, ids, etag⟩ : ∃ statement,
      entityCompiler.compileQuery labelledQuery = .ok statement ∧ statement.text =
        "SELECT _C11_ AS label, CASE WHEN _DBL_C13_ IS NULL THEN _C13_ ELSE _DBL_C13_ END, " ++
          "ROW_ID, ROW_VERSION, ROW_ETAG FROM T2" ∧
      statement.compiled.hasRowIds = true ∧ statement.compiled.hasEtag = true :=
    compiles_within 1 (by decide +kernel)
  obtain ⟨rows, _, items, reported⟩ := row_metadata_reported entityCompiler labelledQuery statement compiled
  have followed := items rfl
  rw [CompiledQuery.rowItems, ids, etag] at followed
  exact ⟨statement, compiled, text, (rows.mp ids).2.2, followed, reported⟩

end Compiler

end TabularSql
