import Mathlib.Data.List.Nodup
import TabularSql.Proofs.Lowering.Alignment

/-!
# Stars

A star is spelled out as references to the columns of the tables, which are then looked up by their names
like any other reference. Tables that are told apart by their qualifiers and columns that are told apart by
their names are found again in that way, so that the items of a star read the columns of the schemas one by
one, table by table.
-/

namespace TabularSql

set_option autoImplicit false

/-! ## Lookup by distinct names -/

section

variable {α : Type} [DecidableEq α] {name : α → String} {items : List α} {item : α}

theorem filter_distinct (distinct : (items.map name).Nodup) (member : item ∈ items) :
    (items.filter fun other => name other == name item) = [item] := by
  have same : ∀ other ∈ items, (name other == name item) = (other == item) := by
    intro other listed
    rw [Bool.eq_iff_iff, beq_iff_eq, beq_iff_eq]
    exact ⟨List.inj_on_of_nodup_map distinct listed member, congrArg name⟩
  rw [List.filter_congr same, List.filter_beq, List.count_eq_one_of_mem (.of_map _ distinct) member]
  rfl

theorem find?_distinct (distinct : (items.map name).Nodup) (member : item ∈ items) :
    (items.find? fun other => name other == name item) = some item := by
  rw [← List.head?_filter, filter_distinct distinct member]
  rfl

end

/-! ## Columns of a FROM clause -/

namespace TableName

def qualifierName (table : TableName) : String :=
  match table.alias? with
  | some name => name.name
  | none => table.name

def columns (schemas : Schemas) (table : TableName) : List ColumnModel :=
  ((TableId.ofText? table.name).map schemas.columnsOf).getD []

end TableName

structure SourceColumn where
  /-- The correlation name of the table, if there are several. -/
  qualifier : Option String
  model : ColumnModel

namespace SourceColumn

/-- The item reads exactly the column, through its shadow if it is a DOUBLE column that is guarded. -/
def ReadBy (guardsDoubles : Bool) (column : SourceColumn) (item : SelectItem) : Prop :=
  ∃ id, column.model.id = some id ∧ item.alias? = none ∧
    item.expr = if guardsDoubles && column.model.type = .double
      then Physical.guardedDouble column.qualifier id
      else .column (Physical.columnRef column.qualifier id)

end SourceColumn

def Source.columns (schemas : Schemas) (source : Source) : List SourceColumn :=
  source.tables.zipIdx.flatMap fun (listed, index) =>
    (listed.columns schemas).map fun model =>
      ⟨if source.isJoin then some (Physical.correlation index) else none, model⟩

namespace Binding

variable {schemas : Schemas} {source : Source} {binding : Binding}

theorem bound_of_bindTable {several : Bool} {table : TableName} {index : Nat} {bound : BoundTable}
    (ok : bindTable schemas several table index = .ok bound) :
    bound.alias? = table.alias? ∧ bound.written = table.name ∧
      bound.correlation = (if several then some (Physical.correlation index) else none) ∧
      bound.columns.map BoundColumn.model = table.columns schemas := by
  obtain ⟨id, parsed, ok⟩ := Except.of_bind ok
  obtain ⟨columns, binds, ok⟩ := Except.of_bind ok
  cases ok
  refine ⟨rfl, rfl, rfl, ?_⟩
  rw [TableName.columns, TableId.ofText?_of_parse parsed]
  refine (eq_map_of_forall₂ ((Except.forall₂_of_mapM binds).flip.imp ?_)).symm
  intro column model own
  split at own <;> cases own
  rfl

theorem qualifierNames_of_ofSource (ok : ofSource schemas source = .ok binding) :
    binding.tables.map BoundTable.qualifierName = source.tables.map TableName.qualifierName := by
  have names : source.tables.zipIdx.map (TableName.qualifierName ∘ Prod.fst) =
      binding.tables.map BoundTable.qualifierName := by
    apply map_eq_of_forall₂ (forall₂_of_ofSource ok)
    intro pair bound own
    obtain ⟨aliased, written, _⟩ := bound_of_bindTable own
    cases given : pair.1.alias? <;>
      simp [TableName.qualifierName, BoundTable.qualifierName, aliased, written, given]
  rw [← names, ← List.map_map, List.zipIdx_map_fst]

def places (binding : Binding) : List (BoundTable × BoundColumn) :=
  binding.tables.flatMap fun table => table.columns.map fun column => (table, column)

theorem mem_places {place : BoundTable × BoundColumn} :
    place ∈ binding.places ↔ place.1 ∈ binding.tables ∧ place.2 ∈ place.1.columns := by
  obtain ⟨table, column⟩ := place
  simp only [places, List.mem_flatMap, List.mem_map, Prod.mk.injEq]
  constructor
  · rintro ⟨_, listed, _, own, rfl, rfl⟩
    exact ⟨listed, own⟩
  · rintro ⟨listed, own⟩
    exact ⟨table, listed, column, own, rfl, rfl⟩

theorem columns_of_ofSource (ok : ofSource schemas source = .ok binding) :
    source.columns schemas =
      binding.places.map fun place => ⟨place.1.correlation, place.2.model⟩ := by
  rw [Source.columns, places, List.map_flatMap, List.flatMap_def, List.flatMap_def]
  congr 1
  apply map_eq_of_forall₂ (forall₂_of_ofSource ok)
  rintro ⟨listed, index⟩ bound own
  obtain ⟨_, _, correlation, columns⟩ := bound_of_bindTable own
  simp only at correlation columns ⊢
  rw [← columns, ← correlation, List.map_map, List.map_map]
  rfl

def starRef (binding : Binding) (place : BoundTable × BoundColumn) : ColumnRef :=
  ⟨binding.starQualifier place.1, .doubleQuoted place.2.model.name⟩

theorem star_eq {items : List SelectItem} (ok : binding.star = .ok items) :
    items = binding.places.map fun place => ⟨.column (binding.starRef place), none⟩ := by
  have spelled : items = binding.starItems := by
    unfold star at ok
    split at ok
    · next empty =>
        cases ok
        simp [starItems, empty]
    · split at ok <;> cases ok
      rfl
  rw [spelled, starItems, places, List.map_flatMap]
  simp only [List.map_map]
  rfl

/-- Tables are told apart by their qualifiers, and the columns of each table by their names. -/
structure Distinct (binding : Binding) : Prop where
  tables : (binding.tables.map BoundTable.qualifierName).Nodup
  columns : ∀ table ∈ binding.tables, (table.columns.map fun column => column.model.name).Nodup

theorem distinct_of_ofSource (ok : ofSource schemas source = .ok binding)
    (apart : (source.tables.map TableName.qualifierName).Nodup)
    (named : ∀ table, ((schemas.columnsOf table).map ColumnModel.name).Nodup) : binding.Distinct := by
  refine ⟨qualifierNames_of_ofSource ok ▸ apart, ?_⟩
  refine forall₂_right (forall₂_of_ofSource ok) fun pair _ bound own => ?_
  have models := (bound_of_bindTable own).2.2.2
  have names : bound.columns.map (fun column => column.model.name) =
      (pair.1.columns schemas).map ColumnModel.name := by
    rw [← models, List.map_map]
    rfl
  rw [names, TableName.columns]
  cases TableId.ofText? pair.1.name with
  | none => exact List.nodup_nil
  | some id => exact named id

/-- The references of a star find the columns that they were spelled for. -/
theorem resolve_starRef (distinct : binding.Distinct) {place : BoundTable × BoundColumn}
    (member : place ∈ binding.places) :
    binding.resolve (binding.starRef place) = .ok (some ⟨place.1, .stored place.2⟩) := by
  obtain ⟨table, column⟩ := place
  obtain ⟨listed, own⟩ : table ∈ binding.tables ∧ column ∈ table.columns := mem_places.mp member
  have selected (name : Identifier) (same : name.name = table.qualifierName) :
      binding.candidates ⟨some name, .doubleQuoted column.model.name⟩ = [table] := by
    simp only [candidates, same]
    exact filter_distinct distinct.tables listed
  have candidates : binding.candidates (binding.starRef (table, column)) = [table] := by
    simp only [starRef, starQualifier]
    split
    · next name aliased => exact selected name (by simp [BoundTable.qualifierName, aliased])
    · next unnamed =>
        split
        · exact selected _ (by simp [BoundTable.qualifierName, unnamed])
        · next single =>
            show binding.tables = [table]
            simp only [isJoin, decide_eq_true_eq, Nat.not_lt] at single
            obtain ⟨only, same⟩ := List.length_eq_one_iff.mp
              (Nat.le_antisymm single (List.length_pos_of_mem listed))
            rw [same] at listed ⊢
            rw [List.mem_singleton.mp listed]
  have found : table.find? column.model.name = some column :=
    find?_distinct (distinct.columns table listed) own
  simp only [resolve, candidates]
  simp [starRef, Identifier.doubleQuoted, found]

theorem id_of_starRef (distinct : binding.Distinct) {place : BoundTable × BoundColumn}
    (member : place ∈ binding.places) :
    (SelectItem.describe schemas binding ⟨.column (binding.starRef place), none⟩).id =
      place.2.model.id := by
  have found := resolve_starRef distinct member
  simp only [SelectItem.describe, SelectItem.nameAndSource, SelectItem.columnSource, resolve?, found]
  simp [ResolvedColumn.stored?, starRef, Identifier.doubleQuoted]

end Binding

theorem SelectItem.readBy_of_star {scope : Scope} {table : BoundTable} {column : BoundColumn}
    {reference : ColumnRef} {lowered : SelectItem}
    (found : scope.binding.resolve reference = .ok (some ⟨table, .stored column⟩))
    (identified : column.model.id = some column.id)
    (lowers : SelectItem.LowersTo scope ⟨.column reference, none⟩ lowered) :
    SourceColumn.ReadBy scope.guardsDoubles ⟨table.correlation, column.model⟩ lowered := by
  obtain ⟨before, after, ran⟩ := lowers
  obtain ⟨expr, _, ran_expr, ran⟩ := Lowering.run_bind ran
  cases ran
  have given := (Lowering.run_lift ran_expr).1
  refine ⟨column.id, identified, rfl, ?_⟩
  obtain ⟨resolved, resolves, rest⟩ := Except.of_bind given
  rw [found] at resolves
  cases resolves
  simp only [ResolvedColumn.stored?, decide_true, Bool.true_and] at rest
  split at rest <;> cases rest
  · next guarded => exact (if_pos guarded).symm
  · next plain => exact (if_neg plain).symm

namespace Select

variable {schemas : Schemas} {guardsDoubles : Bool} {metadata : List RowMetadata} {known : List TableId}
  {part lowered : Select}

theorem LoweredAs.star (lowers : part.LoweredAs schemas guardsDoubles metadata known lowered)
    (all : part.projection = .all) (apart : (part.source.tables.map TableName.qualifierName).Nodup)
    (named : ∀ table, ((schemas.columnsOf table).map ColumnModel.name).Nodup) :
    ∃ binding own, Binding.ofSource schemas part.source = .ok binding ∧
      lowered.projection = .items (own ++ metadata.map fun column => ⟨column.expr binding, none⟩) ∧
      List.Forall₂ (SourceColumn.ReadBy guardsDoubles) (part.source.columns schemas) own := by
  obtain ⟨⟨binding, bound⟩, searches, start, stop, boundAs, _, ran⟩ := lowers
  have binds := boundAs.1
  have distinct := Binding.distinct_of_ofSource binds apart named
  obtain ⟨own, lowers, projection⟩ := projection_of_run ran
  obtain written | ⟨_, star⟩ := boundAs.spells
  · rw [all] at written
    cases written
  refine ⟨binding, own, binds, projection, ?_⟩
  rw [Binding.star_eq star, List.forall₂_map_left_iff] at lowers
  rw [Binding.columns_of_ofSource binds, List.forall₂_map_left_iff]
  apply ((List.forall₂_and_left _ _).mpr ⟨fun place member => member, lowers⟩).imp
  rintro place item ⟨member, lowers⟩
  obtain ⟨listed, inside⟩ := Binding.mem_places.mp member
  exact SelectItem.readBy_of_star (Binding.resolve_starRef distinct member)
    (Binding.column_model binds listed inside).2 lowers

theorem ids_of_star {bound : Binding × Select} (ok : part.bindTables schemas = .ok bound)
    (all : part.projection = .all) (apart : (part.source.tables.map TableName.qualifierName).Nodup)
    (named : ∀ table, ((schemas.columnsOf table).map ColumnModel.name).Nodup) :
    (bound.2.describe schemas bound.1).map ColumnModel.id =
      (part.source.columns schemas).map fun column => column.model.id := by
  obtain ⟨binds, ⟨_, notAll⟩ | ⟨items, star, _, spelled⟩⟩ := bindTables_of_ok ok
  · exact absurd all notAll
  have distinct := Binding.distinct_of_ofSource binds apart named
  rw [Binding.columns_of_ofSource binds, spelled, describe, Projection.itemList, Binding.star_eq star,
    List.map_map, List.map_map, List.map_map]
  apply List.map_congr_left
  intro place member
  exact Binding.id_of_starRef distinct member

end Select

/-! ## Reported columns -/

namespace Output

/-- Only sizes depend on the other parts of a union. -/
theorem map_widen {β : Type} {view : ColumnModel → β}
    (sizeless : ∀ model maxSize, view { model with maxSize } = view model) (first : List ColumnModel)
    (rest : List (List ColumnModel)) : (widen (first :: rest)).map view = first.map view := by
  show (rest.foldl widenBy first).map view = _
  induction rest generalizing first with
  | nil => rfl
  | cons other rest ih =>
    have same : (widenBy first other).map view = (first.zipIdx.map Prod.fst).map view := by
      rw [widenBy, List.map_map, List.map_map]
      exact List.map_congr_left fun _ _ => sizeless _ _
    rw [List.foldl_cons, ih, same, List.zipIdx_map_fst]

theorem ids_selectColumns {columns : List ColumnModel}
    (stored : ∀ id ∈ columns.map ColumnModel.id, id.isSome = true) :
    (selectColumns columns false).map SelectColumn.id = columns.map ColumnModel.id := by
  have keeps : (columns.all fun model => model.id.isSome) = true := by
    simpa using stored
  simp [selectColumns, keeps]

end Output

theorem Catalog.columnsOf_registered {catalog : Catalog} (property : List ColumnModel → Prop)
    (none : property []) (each : ∀ entry ∈ catalog.tables, property entry.2) (table : TableId) :
    property (catalog.schemas.columnsOf table) := by
  show property ((catalog.tables.lookup table).getD [])
  cases found : catalog.tables.lookup table with
  | none => exact none
  | some columns =>
    obtain ⟨before, after, same, _⟩ := List.lookup_eq_some_iff.mp found
    exact each (table, columns) (by simp [same])

namespace Compiler

open Lowering

variable {compiler : Compiler} {query : Query} {statement : Statement}

/-- The columns that are reported are those of the first part, as wide as those of the other parts. -/
theorem columns_of_run {description : IndexDescription} {role : Role} {inner : Option CompiledQuery}
    {compiled : CompiledQuery} {start after : LoweringState}
    (ran : (compiler.compileParts role description query inner).run start = (.ok compiled, after)) :
    ∃ bound rest, query.first.bindTables compiler.schemas = .ok bound ∧
      compiled.selectColumns = Output.selectColumns
        (Output.widen (bound.2.describe compiler.schemas bound.1 :: rest)) compiled.isAggregated := by
  obtain ⟨parts, _, _, _, own, _⟩ := run_compileParts ran
  have binds := own.binds
  rw [Query.parts, List.mapM_cons] at binds
  obtain ⟨bound, first, binds⟩ := Except.of_bind binds
  obtain ⟨rest, _, binds⟩ := Except.of_bind binds
  cases binds
  exact ⟨bound, _, first, by rw [own.selectColumns, own.outputColumns, List.map_cons]⟩

theorem ids_of_run {description : IndexDescription} {role : Role} {inner : Option CompiledQuery}
    {compiled : CompiledQuery} {start after : LoweringState}
    (ran : (compiler.compileParts role description query inner).run start = (.ok compiled, after)) :
    ∃ bound, query.first.bindTables compiler.schemas = .ok bound ∧
      (compiled.isAggregated = false →
        (∀ id ∈ (bound.2.describe compiler.schemas bound.1).map ColumnModel.id, id.isSome = true) →
        compiled.selectColumns.map SelectColumn.id =
          (bound.2.describe compiler.schemas bound.1).map ColumnModel.id) := by
  obtain ⟨bound, rest, binds, columns⟩ := columns_of_run ran
  refine ⟨bound, binds, fun single stored => ?_⟩
  have ids := @Output.map_widen _ ColumnModel.id (fun _ _ => rfl)
    (bound.2.describe compiler.schemas bound.1) rest
  rw [← ids] at stored ⊢
  rw [columns, single]
  exact Output.ids_selectColumns stored

/-- A star projects the schema: its items read the columns of its tables, table by table and in the order
of the schemas, and only metadata columns follow. If the star is that of the first part and every row stands
for one stored row, the ids of these columns are reported in the same order. -/
theorem star_projects_schema (compiler : Compiler) (query : Query) (statement : Statement)
    (compiled : compiler.compileQuery query = .ok statement)
    (named : ∀ table, ((compiler.schemas.columnsOf table).map ColumnModel.name).Nodup)
    (index : Nat) (part : Select) (listed : query.parts[index]? = some part)
    (all : part.projection = .all)
    (apart : (part.source.tables.map TableName.qualifierName).Nodup) :
    ∃ binding metadata lowered own,
      Binding.ofSource compiler.schemas part.source = .ok binding ∧
      compiler.description.metadata compiler.context compiler.etag statement.compiled.isAggregated
        statement.compiled.tableIds = .ok metadata ∧
      statement.compiled.query.parts[index]? = some lowered ∧
      lowered.projection = .items (own ++ metadata.map fun column => ⟨column.expr binding, none⟩) ∧
      List.Forall₂ (SourceColumn.ReadBy (compiler.context = .query))
        (part.source.columns compiler.schemas) own ∧
      (index = 0 → statement.compiled.isAggregated = false →
        statement.compiled.selectColumns.map SelectColumn.id =
          (part.source.columns compiler.schemas).map fun column => column.model.id) := by
  obtain ⟨prepared, inner, start, after, parts, ran⟩ := compileParts_of_query compiled
  obtain ⟨metadata, adds, _, _, lowers⟩ := guarded_compileParts ran
  rw [parts, List.forall₂_map_left_iff] at lowers
  obtain ⟨lowered, place, lowers⟩ := forall₂_getElem? lowers listed
  obtain ⟨binding, own, binds, projection, reads⟩ := lowers.star all apart named
  refine ⟨binding, metadata, lowered, own, binds, adds, place, projection, reads, ?_⟩
  rintro rfl single
  have first : prepared.first = { part with definingFilter := none } := by
    have heads : prepared.parts[0]? = some { part with definingFilter := none } := by
      rw [parts, List.getElem?_map, listed]
      rfl
    exact Option.some.inj heads
  obtain ⟨bound, binds, reported⟩ := ids_of_run ran
  rw [first] at binds
  have ids := Select.ids_of_star binds all apart named
  rw [← ids]
  apply reported single
  rw [ids, List.forall_mem_map]
  intro column member
  obtain ⟨item, _, id, identified, _⟩ := forall₂_left reads column member
  rw [identified]
  rfl

/-- `SELECT * FROM syn1 a JOIN syn1 b ON a.foo = b.foo UNION SELECT foo FROM syn5` -/
def selfJoinQuery : Query :=
  ⟨none, { joinedPart "syn1" "syn1" with projection := .all },
    [⟨false, Select.simple (.items [⟨.named "foo", none⟩]) (.named "syn5")⟩]⟩

def selfJoinText : String :=
  "SELECT _A0._C1_, _A1._C1_, IFNULL(_A0.ROW_BENEFACTOR,-1) " ++
    "FROM T1 _A0 JOIN T1 _A1 ON _A0._C1_ = _A1._C1_ UNION SELECT _C1_, -1 FROM T5"

/-- Both sides of a join of a table with itself have the same columns, each read through its own side. -/
theorem star_projects_schema_joined :
    ∃ statement, builtCompiler.compileQuery selfJoinQuery = .ok statement ∧
      statement.text = selfJoinText ∧ statement.compiled.isAggregated = false ∧
      ∃ lowered own metadata, statement.compiled.query.parts[0]? = some lowered ∧
        lowered.projection = .items (own ++ metadata) ∧
        List.Forall₂ (SourceColumn.ReadBy false)
          (selfJoinQuery.first.source.columns builtCompiler.schemas) own ∧
        statement.compiled.selectColumns.map SelectColumn.id = [some 1, some 1] := by
  have named (table : TableId) :
      ((builtCompiler.schemas.columnsOf table).map ColumnModel.name).Nodup :=
    Catalog.columnsOf_registered (fun columns => (columns.map ColumnModel.name).Nodup) (by decide)
      (by decide) table
  obtain ⟨statement, compiled, text, single⟩ : ∃ statement,
      builtCompiler.compileQuery selfJoinQuery = .ok statement ∧ statement.text = selfJoinText ∧
        statement.compiled.isAggregated = false := compiles_within 1 (by decide +kernel)
  obtain ⟨binding, metadata, lowered, own, _, _, place, projection, reads, reported⟩ :=
    star_projects_schema builtCompiler selfJoinQuery statement compiled named 0 _ rfl rfl (by decide)
  exact ⟨statement, compiled, text, single, lowered, own, _, place, projection, reads,
    (reported rfl single).trans (by decide +kernel)⟩

end Compiler

end TabularSql
