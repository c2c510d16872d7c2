import TabularSql.Proofs.Lowering.Complete

/-!
# Statements over the physical store

What holds of lowered parts is carried through compilation: every part of a compiled statement, and of its
common tables at every depth, comes from the part of the plan in the same place and is a select over the
physical store.
-/

namespace TabularSql

set_option autoImplicit false

namespace Plan

theorem definingFilter_ofStatement {lookup : List IndexDescription} {sqlContext : SqlContext}
    {context : BindingContext} {description : IndexDescription} {query : Query} {plan : Plan}
    (ok : ofStatement lookup sqlContext context description query = .ok plan) :
    plan.Every fun query => ∀ part ∈ query.parts, part.definingFilter = none := by
  obtain ⟨entered, _, ok⟩ := Except.of_bind ok
  exact @layOut_every lookup sqlContext (fun _ _ => True) _
    (fun _ _ _ _ prepares => IndexDescription.prepare_definingFilter prepares)
    (fun _ _ _ _ _ _ _ _ _ _ => trivial) _ _ _ _ trivial ok

end Plan

namespace TableId

/-- Identifiers that are added to others, those that are there already left out. -/
def extend (seen tables : List TableId) : List TableId :=
  tables.foldl (fun seen table => if table ∈ seen then seen else seen ++ [table]) seen

theorem extend_append (seen first second : List TableId) :
    extend seen (first ++ second) = extend (extend seen first) second :=
  List.foldl_append

theorem extend_singleton (seen : List TableId) (table : TableId) :
    extend seen [table] = if table ∈ seen then seen else seen ++ [table] := rfl

theorem mem_extend {table : TableId} {seen tables : List TableId} :
    table ∈ extend seen tables ↔ table ∈ seen ∨ table ∈ tables := by
  induction tables generalizing seen with
  | nil => simp [extend]
  | cons next rest ih =>
    rw [← List.singleton_append, extend_append, ih, extend_singleton]
    split <;> grind

theorem mem_distinct {table : TableId} {tables : List TableId} :
    table ∈ distinct tables ↔ table ∈ tables := by
  show table ∈ extend [] tables ↔ _
  rw [mem_extend]
  simp

end TableId

theorem Binding.mem_tableIds {binding : Binding} {id : TableId} :
    id ∈ binding.tableIds ↔ ∃ table ∈ binding.tables, table.id = id := by
  rw [Binding.tableIds, TableId.mem_distinct, List.mem_map]

/-- The part is bound to tables among the given ones, and then lowered. -/
def Select.LoweredAs (schemas : Schemas) (guardsDoubles : Bool) (metadata : List RowMetadata)
    (tables : List TableId) (part lowered : Select) : Prop :=
  ∃ bound searches start stop, part.BoundAs schemas bound ∧
    (∀ table ∈ bound.1.tables, table.id ∈ tables) ∧
      (bound.2.lower schemas guardsDoubles metadata bound.1).run start =
        (.ok (lowered, searches), stop)

namespace Compiler

open Lowering

variable {compiler : Compiler} {compiled : CompiledQuery} {state after : LoweringState}

variable {role : Role} {description : IndexDescription} {query : Query} {inner : Option CompiledQuery}

/-- Each part is bound to tables of the statement and lowered in its place, all with the same metadata
columns. Only the parts of a statement that answers a query have their doubles guarded. -/
theorem guarded_compileParts
    (ran : (compiler.compileParts role description query inner).run state = (.ok compiled, after)) :
    ∃ metadata, compiler.metadata role description compiled.isAggregated
        compiled.tableIds = .ok metadata ∧
      (∀ below ∈ inner, ∀ id ∈ below.tableIds, id ∈ compiled.tableIds) ∧
      compiled.query.commonTables = query.commonTables ∧
      List.Forall₂ (Select.LoweredAs compiler.schemas
          (role = .statement && compiler.context = .query) metadata compiled.tableIds)
        query.parts compiled.query.parts := by
  obtain ⟨parts, paged, metadata, lowered, own, ran⟩ := run_compileParts ran
  have bindings : parts.map Prod.fst = paged.map Prod.fst :=
    map_eq_of_forall₂ (page_of_ok own.pages) fun _ _ paging => paging.1.symm
  have known : ∀ bound ∈ paged, ∀ table ∈ bound.1.tables, table.id ∈ compiled.tableIds := by
    intro bound listed table member
    rw [own.tableIds, TableId.mem_distinct, bindings]
    apply List.mem_append_left
    exact List.mem_flatMap.mpr ⟨bound.1, List.mem_map_of_mem listed,
      Binding.mem_tableIds.mpr ⟨table, member, rfl⟩⟩
  have lowers := (List.forall₂_and_left _ _).mpr ⟨known, run_mapM ran⟩
  refine ⟨metadata, own.adds, ?_, own.clause, ?_⟩
  · rintro below ⟨⟩ id member
    rw [own.tableIds]
    exact TableId.mem_distinct.mpr (List.mem_append_right _ member)
  apply own.forall₂_parts lowers
  rintro part _ bound result boundAs ⟨among, start, stop, ran⟩
  exact ⟨bound, result.2, start, stop, boundAs, among, ran⟩

theorem parts_compileParts
    (ran : (compiler.compileParts role description query inner).run state = (.ok compiled, after)) :
    ∃ metadata guardsDoubles, compiler.metadata role description compiled.isAggregated
        compiled.tableIds = .ok metadata ∧
      (∀ below ∈ inner, ∀ id ∈ below.tableIds, id ∈ compiled.tableIds) ∧
      compiled.query.commonTables = query.commonTables ∧
      List.Forall₂ (Select.LoweredAs compiler.schemas guardsDoubles metadata compiled.tableIds)
        query.parts compiled.query.parts := by
  obtain ⟨metadata, rest⟩ := guarded_compileParts ran
  exact ⟨metadata, _, rest⟩

/-- What each part has in common with what it is lowered to. Only the parts of a statement that answers a
query can have their doubles guarded. -/
theorem related_compileParts {given : Select → Prop} {related : Select → Select → Prop}
    (parts : ∀ part ∈ query.parts, given part)
    (each : ∀ guardsDoubles metadata tables part lowered,
      (guardsDoubles = true ↔ role = .statement ∧ compiler.context = .query) → given part →
      part.LoweredAs compiler.schemas guardsDoubles metadata tables lowered → related part lowered)
    (ran : (compiler.compileParts role description query inner).run state = (.ok compiled, after)) :
    compiled.query.commonTables = query.commonTables ∧
      List.Forall₂ related query.parts compiled.query.parts := by
  obtain ⟨metadata, _, _, clause, lowers⟩ := guarded_compileParts ran
  refine ⟨clause, ((List.forall₂_and_left _ _).mpr ⟨parts, lowers⟩).imp ?_⟩
  rintro part lowered ⟨own, lowers⟩
  exact each _ metadata _ part lowered (by simp) own lowers

/-- A plan is compiled from the inside out, and each of its queries in its place. -/
theorem related_compilePlan {given : Select → Prop} {related : Select → Select → Prop} {plan : Plan}
    (parts : plan.Every fun query => ∀ part ∈ query.parts, given part)
    (each : ∀ guardsDoubles metadata tables part lowered,
      (guardsDoubles = true → role = .statement ∧ compiler.context = .query) → given part →
      part.LoweredAs compiler.schemas guardsDoubles metadata tables lowered → related part lowered)
    (ran : (compiler.compilePlan role plan).run state = (.ok compiled, after)) :
    plan.Lowers related compiled.query := by
  induction plan generalizing role compiled state after with
  | plain description query =>
    have own := related_compileParts parts.2
      (fun _ _ _ _ _ guarded => each _ _ _ _ _ guarded.mp) ran
    rwa [parts.1] at own
  | layered description query name inner ih =>
    obtain ⟨below, _, ran_below, ran⟩ := run_bind ran
    obtain ⟨element, _, ran_element, ran⟩ := run_bind ran
    have above : ∀ part ∈ ({ query with commonTables := some [element] } : Query).parts, given part :=
      parts.1
    have own := related_compileParts above (fun _ _ _ _ _ guarded => each _ _ _ _ _ guarded.mp) ran
    refine ⟨⟨element, own.1, ?_⟩, own.2⟩
    rw [CompiledQuery.toCommonTable_query (run_lift ran_element).1]
    apply ih parts.2 _ ran_below
    intro guardsDoubles metadata tables part lowered guarded
    apply each guardsDoubles metadata tables part lowered
    intro given
    cases (guarded given).1

theorem lowers_compilePlan {plan : Plan}
    (undefined : plan.Every fun query => ∀ part ∈ query.parts, part.definingFilter = none)
    (ran : (compiler.compilePlan role plan).run state = (.ok compiled, after)) :
    plan.Lowers (Select.Lowered compiler.schemas) compiled.query := by
  apply related_compilePlan undefined _ ran
  rintro _ _ _ part lowered _ plain ⟨bound, searches, start, stop, own, _, ran⟩
  exact Select.lowered_of_run own plain ran

/-- The parts of a query are compiled last, after its common table, which keeps what the compilation began
with. -/
theorem compileParts_last {statement : Statement} {invariant : LoweringState → Prop}
    (keeps : ∀ plan, Keeps invariant (compiler.compilePlan .definition plan) fun _ => True)
    (begins : invariant { context := compiler.start })
    (ok : compiler.compileQuery query = .ok statement) :
    ∃ prepared inner start after, invariant start ∧
      prepared.parts = query.parts.map (fun part => { part with definingFilter := none }) ∧
      (compiler.compileParts .statement compiler.description prepared inner).run start =
        (.ok statement.compiled, after) ∧
      statement.parameters = after.context.parameters := by
  obtain ⟨plan, after, laid, ran, bound⟩ := run_of_statement ok
  obtain ⟨entered, _, laid⟩ := Except.of_bind laid
  obtain ⟨prepared, checked, rest⟩ := Plan.layOut_cases laid
  have parts := IndexDescription.prepare_parts (IndexDescription.prepare_of_checked checked)
  rcases rest with ⟨_, rfl⟩ | ⟨_, _, _, _, _, _, _, _, _, _, rfl⟩
  · exact ⟨prepared, none, _, after, begins, parts, ran, bound⟩
  · obtain ⟨below, between, ran_below, ran⟩ := run_bind ran
    obtain ⟨element, start, put, ran⟩ := run_bind ran
    have kept := (keeps _ _ below between begins ran_below).1
    rw [← (run_lift put).2] at kept
    exact ⟨{ prepared with commonTables := some [element] }, some below, start, after, kept, parts, ran,
      bound⟩

theorem compileParts_keeping {statement : Statement} {invariant : LoweringState → Prop}
    (keeps : ∀ plan, Keeps invariant (compiler.compilePlan .definition plan) fun _ => True)
    (begins : invariant { context := compiler.start })
    (ok : compiler.compileQuery query = .ok statement) :
    ∃ prepared inner start after, invariant start ∧
      prepared.parts = query.parts.map (fun part => { part with definingFilter := none }) ∧
      (compiler.compileParts .statement compiler.description prepared inner).run start =
        (.ok statement.compiled, after) := by
  obtain ⟨prepared, inner, start, after, kept, parts, ran, _⟩ := compileParts_last keeps begins ok
  exact ⟨prepared, inner, start, after, kept, parts, ran⟩

theorem compileParts_of_query {statement : Statement} (ok : compiler.compileQuery query = .ok statement) :
    ∃ prepared inner start after,
      prepared.parts = query.parts.map (fun part => { part with definingFilter := none }) ∧
      (compiler.compileParts .statement compiler.description prepared inner).run start =
        (.ok statement.compiled, after) := by
  obtain ⟨prepared, inner, start, after, _, rest⟩ :=
    compileParts_keeping (fun plan => keeps_trivial _) trivial ok
  exact ⟨prepared, inner, start, after, rest⟩

/-- A compiled statement follows the plan of its query: every part of the statement and of its common
tables, at every depth, is a select over the physical store. -/
theorem statement_lowered (compiler : Compiler) (query : Query) (statement : Statement)
    (compiled : compiler.compileQuery query = .ok statement) :
    ∃ plan, Plan.ofStatement compiler.lookup compiler.context compiler.start compiler.description
        query = .ok plan ∧
      plan.Lowers (Select.Lowered compiler.schemas) statement.compiled.query := by
  obtain ⟨plan, state, laid, ran⟩ := run_of_compileQuery compiled
  exact ⟨plan, laid, lowers_compilePlan (Plan.definingFilter_ofStatement laid) ran⟩

def weighedCompiler : Compiler where
  schemas :=
    let columns : List ColumnModel := [{ id := some 11, name := "name", type := .string },
      { id := some 12, name := "tags", type := .stringList },
      { id := some 13, name := "weight", type := .double }]
    ((({} : Catalog).addTable ⟨1, some 3⟩ columns).addTable ⟨2, none⟩ columns).schemas
  description := .table ⟨2, none⟩
  userId := 7

/-- `SELECT * FROM syn1.3 WHERE tags HAS ( 'p' ) AND ISNAN(weight)` -/
def weighedInner : Query :=
  .single { Select.simple .all (.named "syn1.3") with
    filter := some (.and (.has (.named "tags") [.string "p"] false false)
      (.doubleTest .isNaN ⟨none, ⟨"weight", none⟩⟩)) }

/-- `SELECT name AS label FROM syn2 WHERE name = "other" GROUP BY label` over the inner query. -/
def weighedQuery : Query :=
  ⟨some [⟨⟨"syn2", none⟩, [], weighedInner⟩],
    { Select.simple (.items [⟨.named "name", some ⟨"label", none⟩⟩]) (.named "syn2") with
      filter := some (.equals (.named "name") (.column ⟨none, .doubleQuoted "other"⟩))
      groupBy := [.named "label"] }, []⟩

def weighedPlan : Plan :=
  .layered (.table ⟨2, none⟩) weighedQuery ⟨"syn2", none⟩ (.plain (.table ⟨1, some 3⟩) weighedInner)

def weighedText : String :=
  "WITH T2 (_C11_, _C12_, _C13_) AS (SELECT _C11_, _C12_, _C13_ FROM T1_3 " ++
    "WHERE ROW_ID IN ( SELECT ROW_ID_REF_C12_ FROM T1_3_INDEX_C12_ " ++
    "WHERE _C12__UNNEST IN ( :b0 ) ) AND ( _DBL_C13_ IS NOT NULL AND _DBL_C13_ = 'NaN' )) " ++
    "SELECT _C11_ AS label FROM T2 WHERE _C11_ = `other` GROUP BY label"

theorem weighedQuery_plan : Plan.ofStatement weighedCompiler.lookup weighedCompiler.context
    weighedCompiler.start weighedCompiler.description weighedQuery = .ok weighedPlan :=
  Plan.layOut_of_within (show Plan.layWithin _ _ 2 _ _ _ = _ from rfl)

theorem statement_lowered_weighed :
    ∃ statement, weighedCompiler.compileQuery weighedQuery = .ok statement ∧
      statement.text = weighedText ∧
      weighedPlan.Lowers (Select.Lowered weighedCompiler.schemas) statement.compiled.query := by
  obtain ⟨statement, compiled, text⟩ : ∃ statement, weighedCompiler.compileQuery weighedQuery =
      .ok statement ∧ statement.text = weighedText := compiles_within 2 (by decide +kernel)
  obtain ⟨plan, laid, lowers⟩ := statement_lowered weighedCompiler weighedQuery statement compiled
  cases laid.symm.trans weighedQuery_plan
  exact ⟨statement, compiled, text, lowers⟩

end Compiler

end TabularSql
