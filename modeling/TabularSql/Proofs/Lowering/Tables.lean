import Mathlib.Data.List.Induction
import TabularSql.Proofs.Lowering.Benefactors

/-!
# Tables of a statement

A compiled statement reports the tables that it reads. The report is made from the FROM clauses of the
logical query, each table once and in the order of its first appearance, while the statement itself also
reads the side tables that lowering brings in. The main result says that the two agree: what the statement
reads at any depth, lookups of list elements included, belongs to a reported table, and every reported
table is read.
-/

namespace TabularSql

set_option autoImplicit false

/-! ## Identifiers in order of first appearance -/

namespace TableId

theorem distinct_append (tables : List TableId) (last : TableId) :
    distinct (tables ++ [last]) =
      if last ∈ tables then distinct tables else distinct tables ++ [last] := by
  show extend [] (tables ++ [last]) = _
  rw [extend_append, extend_singleton]
  simp only [mem_extend, List.not_mem_nil, false_or]
  rfl

theorem extend_distinct (seen tables : List TableId) :
    extend seen (distinct tables) = extend seen tables := by
  induction tables using List.reverseRecOn with
  | nil => rfl
  | append_singleton tables last ih =>
    rw [distinct_append, extend_append]
    by_cases known : last ∈ tables
    · rw [if_pos known, ih, extend_singleton, if_pos (mem_extend.mpr (.inr known))]
    · rw [if_neg known, extend_append, ih]

theorem distinct_flatMap {α : Type} (own : α → List TableId) (items : List α) (behind : List TableId) :
    distinct (items.flatMap (fun item => distinct (own item)) ++ behind) =
      distinct (items.flatMap own ++ behind) := by
  suffices general : ∀ seen, extend seen (items.flatMap (fun item => distinct (own item)) ++ behind) =
      extend seen (items.flatMap own ++ behind) from general []
  induction items with
  | nil => exact fun _ => rfl
  | cons item items ih =>
    intro seen
    simp only [List.flatMap_cons, List.append_assoc]
    rw [extend_append, extend_append seen (own item), extend_distinct, ih]

/-- Identifiers come in the order in which they first appear. -/
theorem distinct_ordered (tables : List TableId) :
    (distinct tables).Pairwise fun first second => tables.idxOf first < tables.idxOf second := by
  induction tables using List.reverseRecOn with
  | nil => exact .nil
  | append_singleton tables last ih =>
    have earlier {table : TableId} (member : table ∈ distinct tables) :
        (tables ++ [last]).idxOf table = tables.idxOf table :=
      List.idxOf_append_of_mem (mem_distinct.mp member)
    have kept : (distinct tables).Pairwise fun first second =>
        (tables ++ [last]).idxOf first < (tables ++ [last]).idxOf second := by
      apply ih.imp_of_mem
      intro first second member another before
      rwa [earlier member, earlier another]
    rw [distinct_append]
    by_cases known : last ∈ tables
    · rwa [if_pos known]
    · rw [if_neg known]
      apply List.pairwise_append.mpr
      refine ⟨kept, List.pairwise_singleton _ _, fun table member another same => ?_⟩
      cases List.mem_singleton.mp same
      rw [earlier member, List.idxOf_append_of_notMem known]
      have inside := List.idxOf_lt_length_of_mem (mem_distinct.mp member)
      omega

theorem nodup_distinct (tables : List TableId) : (distinct tables).Nodup := by
  apply (distinct_ordered tables).imp
  intro first second before same
  rw [same] at before
  exact Nat.lt_irrefl _ before

end TableId

/-! ## Tables of a logical query -/

namespace Source

def tableIds (source : Source) : List TableId :=
  source.tables.filterMap fun table => TableId.ofText? table.name

end Source

namespace Query

def tableIds (query : Query) : List TableId :=
  query.parts.flatMap fun part => part.source.tableIds

end Query

theorem TableId.ofText?_of_parse {text : String} {id : TableId} (ok : TableId.parse text = .ok id) :
    TableId.ofText? text = some id := by
  unfold TableId.parse at ok
  split at ok <;> simp_all

theorem Binding.tableIds_of_ofSource {schemas : Schemas} {source : Source} {binding : Binding}
    (ok : ofSource schemas source = .ok binding) :
    binding.tables.map BoundTable.id = source.tableIds := by
  have ids {pairs : List (TableName × Nat)} {bound : List BoundTable}
      (binds : List.Forall₂ (fun pair result =>
        bindTable schemas source.isJoin pair.1 pair.2 = .ok result) pairs bound) :
      bound.map BoundTable.id = (pairs.map Prod.fst).filterMap fun table =>
        TableId.ofText? table.name := by
    induction binds with
    | nil => rfl
    | cons own _ ih =>
      obtain ⟨id, parsed, own⟩ := Except.of_bind own
      obtain ⟨columns, _, own⟩ := Except.of_bind own
      cases own
      simp [ih, TableId.ofText?_of_parse parsed]
  rw [ids (forall₂_of_ofSource ok), Source.tableIds, List.zipIdx_map_fst]

/-- The FROM clause of a lowered part has the tables of the part, and side tables behind them. -/
theorem Select.LoweredAs.tables {schemas : Schemas} {guardsDoubles : Bool} {metadata : List RowMetadata}
    {known : List TableId} {part lowered : Select}
    (lowers : part.LoweredAs schemas guardsDoubles metadata known lowered) :
    ∃ binding, ∃ sides : List ListColumn, Binding.ofSource schemas part.source = .ok binding ∧
      lowered.source.tables = binding.tables.map BoundTable.physicalName ++
        sides.map fun column => ⟨column.sideTable, none⟩ := by
  obtain ⟨⟨binding, bound⟩, searches, start, stop, boundAs, _, ran⟩ := lowers
  have binds : Binding.ofSource schemas bound.source = .ok binding := by
    obtain ⟨binds, projection, page, rfl, _⟩ := boundAs
    exact binds
  obtain ⟨sides, own⟩ := (Select.keeps_tables binds start _ stop trivial ran).2.1
  exact ⟨binding, sides, boundAs.1, own⟩

theorem Select.LoweredAs.readsTable {schemas : Schemas} {guardsDoubles : Bool}
    {metadata : List RowMetadata} {known : List TableId} {part lowered : Select}
    (lowers : part.LoweredAs schemas guardsDoubles metadata known lowered) {id : TableId}
    (named : id ∈ part.source.tableIds) : lowered.ReadsTable id := by
  obtain ⟨binding, sides, binds, own⟩ := lowers.tables
  rw [← Binding.tableIds_of_ofSource binds] at named
  obtain ⟨table, member, rfl⟩ := List.mem_map.mp named
  refine ⟨table.physicalName, ?_, rfl⟩
  rw [own]
  exact List.mem_append_left _ (List.mem_map_of_mem member)

/-! ## Selects at any depth -/

namespace Fragment

theorem Within.parent {inner outer : Fragment} (within : Within inner outer) :
    inner = outer ∨ ∃ parent, Within parent outer ∧ inner ∈ parent.inside := by
  induction within with
  | self => exact .inl rfl
  | deeper member _ ih =>
    rcases ih with rfl | ⟨parent, within, own⟩
    · exact .inr ⟨_, .self _, member⟩
    · exact .inr ⟨parent, .deeper member within, own⟩

theorem select_mem_inside {select : Select} {parent : Fragment}
    (member : .select select ∈ parent.inside) :
    ∃ whole, parent = .query whole ∧ select ∈ whole.parts := by
  cases parent with
  | expr whole => cases whole <;> simp [inside] at member
  | select whole => simp [inside] at member
  | query whole => exact ⟨whole, rfl, by simpa [inside] using member⟩

theorem query_mem_inside {query : Query} {parent : Fragment} (member : .query query ∈ parent.inside) :
    (∃ tested negated, parent = .expr (.inQuery tested query negated)) ∨
      ∃ whole, parent = .query whole ∧ ∃ element ∈ whole.elements, element.query = query := by
  cases parent with
  | expr whole =>
    left
    cases whole with
    | inQuery tested candidates negated =>
      have same : query = candidates := by simpa [inside] using member
      exact ⟨tested, negated, by rw [same]⟩
    | _ => simp [inside] at member
  | select whole => simp [inside] at member
  | query whole => exact .inr ⟨whole, rfl, by simpa [inside] using member⟩

end Fragment

variable {schemas : Schemas} {select : Select} {query : Query}

/-- A select inside a lowered expression is a lookup of list elements. -/
theorem Expr.source_of_within {source : Source} {allowed : ColumnRef → Prop} {whole : Expr}
    (fine : Expr.Fine schemas source allowed whole)
    (within : Fragment.Within (.select select) (.expr whole)) :
    ∃ lists : ListColumn, source.Reads schemas lists.table lists.id ∧
      select.source = .named lists.sideTable := by
  rcases within.parent with same | ⟨parent, within, own⟩
  · cases same
  obtain ⟨query, rfl, listed⟩ := Fragment.select_mem_inside own
  rcases within.parent with same | ⟨parent, outer, own⟩
  · cases same
  rcases Fragment.query_mem_inside own with ⟨tested, negated, rfl⟩ | ⟨whole, rfl, element, member, _⟩
  · obtain ⟨lists, condition, reads, same⟩ := fine _ outer
    cases same
    cases List.mem_singleton.mp listed
    exact ⟨lists, reads, rfl⟩
  · -- No query inside a lowered expression has a WITH clause.
    have none := (fine _ outer).1
    rw [Query.elements, none] at member
    cases member

theorem Select.Lowered.fine {logical lowered : Select} (lowers : logical.Lowered schemas lowered)
    {expr : Expr} (member : expr ∈ lowered.exprs) :
    ∃ allowed, Expr.Fine schemas lowered.source allowed expr := by
  by_cases key : expr ∈ lowered.groupBy ++ lowered.orderBy.map SortKey.expr
  · exact ⟨_, lowers.keys expr key⟩
  · refine ⟨_, lowers.clauses expr ?_⟩
    simp only [List.mem_append, List.mem_map, not_or, not_exists, not_and] at key
    have listed := mem_exprs.mp member
    apply mem_exprs.mpr
    grind

theorem Query.ReadsTable.within {id : TableId} (reads : query.ReadsTable id) :
    ∃ select, Fragment.Within (.select select) (.query query) ∧ select.ReadsTable id := by
  induction reads with
  | part member own =>
    refine ⟨_, .deeper ?_ (.self _), own⟩
    exact List.mem_append_right _ (List.mem_map_of_mem member)
  | element member _ ih =>
    obtain ⟨select, within, own⟩ := ih
    refine ⟨select, .deeper ?_ within, own⟩
    exact List.mem_append_left _ (List.mem_map.mpr ⟨_, member, rfl⟩)

/-- The name is that of a table that the query reads, or of a side table of such a table. -/
def Query.Knows (schemas : Schemas) (query : Query) (name : String) : Prop :=
  ∃ id, query.ReadsTable id ∧ (name = Physical.table id ∨
    ∃ model ∈ schemas.columnsOf id, ∃ column ∈ model.id, name = Physical.sideTable id column)

theorem Query.knows_of_reads {part : Select} (member : part ∈ query.parts) {owner : TableId} {id : ColumnId}
    (reads : part.source.Reads schemas owner id) : query.Knows schemas (Physical.sideTable owner id) := by
  obtain ⟨read, model, listed, own⟩ := reads
  exact ⟨owner, .part member read, .inr ⟨model, listed, id, own, rfl⟩⟩

/-- Whatever a lowered part reads at any depth is known from its own FROM clause. -/
theorem Select.Lowered.knows {logical part : Select} (member : part ∈ query.parts)
    (lowers : logical.Lowered schemas part) (within : Fragment.Within (.select select) (.select part)) :
    ∀ table ∈ select.source.tables, query.Knows schemas table.name := by
  intro table listed
  cases within with
  | self =>
    rcases lowers.tables table listed with ⟨id, same⟩ | ⟨owner, id, reads, same⟩
    · exact ⟨id, .part member ⟨table, listed, same⟩, .inl same⟩
    · rw [same]
      exact Query.knows_of_reads member reads
  | deeper own inner =>
    obtain ⟨expr, used, rfl⟩ := List.mem_map.mp own
    obtain ⟨allowed, fine⟩ := lowers.fine used
    obtain ⟨lists, reads, same⟩ := Expr.source_of_within fine inner
    rw [same] at listed
    cases List.mem_singleton.mp listed
    exact Query.knows_of_reads member reads

/-- Whatever a lowered statement reads at any depth is known from the FROM clauses of its parts and of
those of its common tables. -/
theorem Plan.Lowers.knows {plan : Plan} {lowered : Query}
    (lowers : plan.Lowers (Select.Lowered schemas) lowered)
    (within : Fragment.Within (.select select) (.query lowered)) :
    ∀ table ∈ select.source.tables, lowered.Knows schemas table.name := by
  induction plan generalizing lowered with
  | plain description query =>
    cases within with
    | deeper own inner =>
      rw [Fragment.inside, Query.elements, lowers.1] at own
      obtain ⟨part, member, rfl⟩ := List.mem_map.mp own
      obtain ⟨logical, _, own⟩ := forall₂_left lowers.2.flip part member
      exact Select.Lowered.knows member own inner
  | layered description query name below ih =>
    obtain ⟨⟨element, clause, deeper⟩, parts⟩ := lowers
    cases within with
    | deeper own inner =>
      rcases List.mem_append.mp own with common | listed
      · obtain ⟨other, member, rfl⟩ := List.mem_map.mp common
        have only : other = element := by simpa [Query.elements, clause] using member
        subst only
        intro table listed
        obtain ⟨id, reads, named⟩ := ih deeper inner table listed
        exact ⟨id, .element member reads, named⟩
      · obtain ⟨part, member, rfl⟩ := List.mem_map.mp listed
        obtain ⟨logical, _, own⟩ := forall₂_left parts.flip part member
        exact Select.Lowered.knows member own inner

/-! ## Reported tables -/

namespace Compiler

open Lowering

variable {compiler : Compiler} {compiled : CompiledQuery} {state after : LoweringState}

theorem tableIds_of_run {role : Role} {description : IndexDescription} {query : Query}
    {inner : Option CompiledQuery}
    (ran : (compiler.compileParts role description query inner).run state = (.ok compiled, after)) :
    compiled.tableIds =
      TableId.distinct (query.tableIds ++ (inner.map CompiledQuery.tableIds).getD []) := by
  obtain ⟨parts, _, ran_parts, ran⟩ := run_bind ran
  obtain ⟨metadata, _, _, ran⟩ := run_bind ran
  obtain ⟨paged, _, _, ran⟩ := run_bind ran
  obtain ⟨lowered, _, _, ran⟩ := run_bind ran
  cases ran
  have ids : query.parts.map (fun part => part.source.tableIds) =
      (parts.map Prod.fst).map fun binding => binding.tables.map BoundTable.id := by
    rw [List.map_map]
    apply map_eq_of_forall₂ (Except.forall₂_of_mapM (run_lift ran_parts).1)
    intro part bound binds
    exact (Binding.tableIds_of_ofSource (Select.bindTables_of_ok binds).1).symm
  have flat : query.tableIds =
      (parts.map Prod.fst).flatMap fun binding => binding.tables.map BoundTable.id := by
    rw [Query.tableIds, List.flatMap_def, ids, ← List.flatMap_def]
  rw [flat]
  exact TableId.distinct_flatMap (fun binding : Binding => binding.tables.map BoundTable.id) _ _

theorem readsTable_compileParts {role : Role} {description : IndexDescription} {query : Query}
    {inner : Option CompiledQuery}
    (ran : (compiler.compileParts role description query inner).run state = (.ok compiled, after))
    {id : TableId} (named : id ∈ query.tableIds) : compiled.query.ReadsTable id := by
  obtain ⟨part, member, listed⟩ := List.mem_flatMap.mp named
  obtain ⟨_, _, _, _, _, parts⟩ := parts_compileParts ran
  obtain ⟨lowered, among, lowers⟩ := forall₂_left parts part member
  exact .part among (Select.LoweredAs.readsTable lowers listed)

/-- Every reported table is read by a part or inside the WITH clause. -/
theorem readsTable_compilePlan {plan : Plan} {role : Role}
    (ran : (compiler.compilePlan role plan).run state = (.ok compiled, after)) {id : TableId}
    (reported : id ∈ compiled.tableIds) : compiled.query.ReadsTable id := by
  induction plan generalizing role compiled state after with
  | plain description query =>
    rw [tableIds_of_run ran, TableId.mem_distinct] at reported
    exact readsTable_compileParts ran (by simpa using reported)
  | layered description query name inner ih =>
    obtain ⟨below, _, ran_below, ran⟩ := run_bind ran
    obtain ⟨element, _, declares, ran⟩ := run_bind ran
    rw [tableIds_of_run ran, TableId.mem_distinct] at reported
    rcases List.mem_append.mp reported with named | inside
    · exact readsTable_compileParts ran named
    · obtain ⟨_, _, _, _, clause, _⟩ := parts_compileParts ran
      have member : element ∈ compiled.query.elements := by simp [Query.elements, clause]
      apply Query.ReadsTable.element member
      rw [CompiledQuery.toCommonTable_query (run_lift declares).1]
      exact ih ran_below inside

/-- The reported tables are exactly those that the statement reads. Each is reported once, every FROM clause
at any depth has only reported tables and side tables of them, and every reported table is in one. -/
theorem statement_tables_reported (compiler : Compiler) (query : Query) (statement : Statement)
    (compiled : compiler.compileQuery query = .ok statement) :
    statement.compiled.tableIds.Nodup ∧
      (∀ select, Fragment.Within (.select select) (.query statement.compiled.query) →
        ∀ table ∈ select.source.tables, ∃ id ∈ statement.compiled.tableIds,
          table.name = Physical.table id ∨ ∃ model ∈ compiler.schemas.columnsOf id,
            ∃ column ∈ model.id, table.name = Physical.sideTable id column) ∧
      ∀ id ∈ statement.compiled.tableIds, ∃ select,
        Fragment.Within (.select select) (.query statement.compiled.query) ∧ select.ReadsTable id := by
  obtain ⟨plan, after, laid, ran⟩ := run_of_compileQuery compiled
  have undefined := Plan.definingFilter_ofStatement laid
  refine ⟨?_, ?_, ?_⟩
  · obtain ⟨prepared, inner, start, stop, _, ran⟩ := compileParts_of_query compiled
    rw [tableIds_of_run ran]
    exact TableId.nodup_distinct _
  · intro select within table listed
    obtain ⟨id, reads, named⟩ := (lowers_compilePlan undefined ran).knows within table listed
    exact ⟨id, tableIds_compilePlan undefined ran reads, named⟩
  · intro id reported
    exact (readsTable_compilePlan ran reported).within

/-- `SELECT UNNEST(tags) FROM syn2 WHERE tags HAS ( 'q' )` over the inner query. -/
def listedQuery : Query :=
  ⟨some [⟨⟨"syn2", none⟩, [], weighedInner⟩],
    { Select.simple (.items [⟨.unnest ⟨none, ⟨"tags", none⟩⟩, none⟩]) (.named "syn2") with
      filter := some (.has (.named "tags") [.string "q"] false false) }, []⟩

def listedText : String :=
  "WITH T2 (_C11_, _C12_, _C13_) AS (SELECT _C11_, _C12_, _C13_ FROM T1_3 " ++
    "WHERE ROW_ID IN ( SELECT ROW_ID_REF_C12_ FROM T1_3_INDEX_C12_ " ++
    "WHERE _C12__UNNEST IN ( :b0 ) ) AND ( _DBL_C13_ IS NOT NULL AND _DBL_C13_ = 'NaN' )) " ++
    "SELECT _C12__UNNEST, ROW_ID, ROW_VERSION FROM T2 LEFT JOIN T2_INDEX_C12_ " ++
    "ON T2.ROW_ID = T2_INDEX_C12_.ROW_ID_REF_C12_ " ++
    "WHERE ROW_ID IN ( SELECT ROW_ID_REF_C12_ FROM T2_INDEX_C12_ WHERE _C12__UNNEST IN ( :b1 ) )"

/-- Two tables are reported; the statement also reads a side table of each. -/
theorem statement_tables_reported_listed :
    ∃ statement, weighedCompiler.compileQuery listedQuery = .ok statement ∧
      statement.text = listedText ∧ statement.compiled.tableIds = [⟨2, none⟩, ⟨1, some 3⟩] ∧
      (∀ select, Fragment.Within (.select select) (.query statement.compiled.query) →
        ∀ table ∈ select.source.tables, ∃ id ∈ [⟨2, none⟩, ⟨1, some 3⟩],
          table.name = Physical.table id ∨ ∃ model ∈ weighedCompiler.schemas.columnsOf id,
            ∃ column ∈ model.id, table.name = Physical.sideTable id column) ∧
      ∀ id ∈ [⟨2, none⟩, ⟨1, some 3⟩], ∃ select,
        Fragment.Within (.select select) (.query statement.compiled.query) ∧
          select.ReadsTable id := by
  obtain ⟨statement, compiled, text, tables⟩ : ∃ statement,
      weighedCompiler.compileQuery listedQuery = .ok statement ∧ statement.text = listedText ∧
        statement.compiled.tableIds = [⟨2, none⟩, ⟨1, some 3⟩] := compiles_within 2 (by decide +kernel)
  have reported := statement_tables_reported weighedCompiler listedQuery statement compiled
  rw [tables] at reported
  exact ⟨statement, compiled, text, tables, reported.2⟩

end Compiler

end TabularSql
