import TabularSql.Proofs.Lowering.Tables

/-!
# Alignment of benefactor columns

The parts of a union are read by position, so the benefactor columns that are added to the statement of a
materialized view must stand in the same order in every part. The views are listed once for the statement,
and each part then has one item for each of them behind its own items: the benefactor of the first table of
its FROM clause that is the view, or a constant.
-/

namespace TabularSql

set_option autoImplicit false

/-! ## Select lists of lowered parts -/

namespace SelectItem

/-- What the item is lowered to in a scope, whatever was lowered before it. -/
def LowersTo (scope : Scope) (item lowered : SelectItem) : Prop :=
  ∃ before after, (item.lower scope).run before = (.ok lowered, after)

end SelectItem

namespace Select

/-- The select list of the part over its tables, with a star spelled out. -/
def Spells (binding : Binding) (part : Select) (items : List SelectItem) : Prop :=
  part.projection = .items items ∨ part.projection = .all ∧ binding.star = .ok items

variable {schemas : Schemas} {guardsDoubles : Bool} {metadata : List RowMetadata} {binding : Binding}

/-- The select list of a lowered part has the lowered items in their order, then the metadata columns. -/
theorem projection_of_run {part : Select} {result : Select × Bool} {state after : LoweringState}
    (ran : (part.lower schemas guardsDoubles metadata binding).run state = (.ok result, after)) :
    ∃ own, List.Forall₂ (SelectItem.LowersTo ⟨schemas, binding, guardsDoubles, part.aliases⟩)
        part.projection.itemList own ∧
      result.1.projection = .items (own ++ metadata.map fun column => ⟨column.expr binding, none⟩) := by
  obtain ⟨_, _, _, ran⟩ := Lowering.run_bind ran
  obtain ⟨own, _, items, ran⟩ := Lowering.run_bind ran
  obtain ⟨source, _, _, ran⟩ := Lowering.run_bind ran
  obtain ⟨filter, _, _, ran⟩ := Lowering.run_bind ran
  obtain ⟨groupBy, _, _, ran⟩ := Lowering.run_bind ran
  obtain ⟨orderBy, _, _, ran⟩ := Lowering.run_bind ran
  obtain ⟨page, _, _, ran⟩ := Lowering.run_bind ran
  obtain ⟨current, _, _, ran⟩ := Lowering.run_bind ran
  cases ran
  exact ⟨own, Lowering.run_mapM items, rfl⟩

theorem BoundAs.spells {part : Select} {bound : Binding × Select} (boundAs : part.BoundAs schemas bound) :
    part.Spells bound.1 bound.2.projection.itemList := by
  obtain ⟨_, projection, page, changed, ⟨same, notAll⟩ | ⟨items, star, all, spelled⟩⟩ := boundAs
  · left
    rw [changed, same]
    cases written : part.projection with
    | all => exact absurd written notAll
    | items list => rfl
  · right
    rw [changed, spelled]
    exact ⟨all, star⟩

end Select

/-! ## Benefactor columns of one part -/

namespace Source

/-- The item for the benefactor of a view: that of the first table of the clause that is the view, or a
constant if there is none. -/
def benefactor (source : Source) (view : TableId) : SelectItem :=
  match source.tables.find? fun table => table.name == Physical.table view with
  | some first => ⟨Physical.benefactor (first.alias?.map Identifier.name), none⟩
  | none => ⟨.integer (-1), none⟩

/-- Side tables are no views, and tables of the store are known by their names. -/
theorem find?_view {binding : Binding} {source : Source} {sides : List ListColumn}
    (tables : source.tables = binding.tables.map BoundTable.physicalName ++
      sides.map fun column => ⟨column.sideTable, none⟩) (view : TableId) :
    (source.tables.find? fun table => table.name == Physical.table view) =
      (binding.first? view).map BoundTable.physicalName := by
  have named : ((fun table : TableName => table.name == Physical.table view) ∘
      BoundTable.physicalName) = fun table => table.id == view := by
    funext table
    by_cases same : table.id = view
    · simp [BoundTable.physicalName, same]
    · have other : Physical.table table.id ≠ Physical.table view :=
        fun equal => same (Physical.table_injective equal)
      simp [BoundTable.physicalName, same, other]
  have side : (sides.map fun column => (⟨column.sideTable, none⟩ : TableName)).find?
      (fun table => table.name == Physical.table view) = none := by
    apply List.find?_eq_none.mpr
    intro table member
    obtain ⟨column, _, rfl⟩ := List.mem_map.mp member
    have other : column.sideTable ≠ Physical.table view :=
      (Physical.table_ne_sideTable view column.table column.id).symm
    simpa using other
  rw [tables, List.find?_append, side, Option.or_none, List.find?_map, named]
  rfl

theorem benefactor_eq {binding : Binding} {source : Source} {sides : List ListColumn}
    (tables : source.tables = binding.tables.map BoundTable.physicalName ++
      sides.map fun column => ⟨column.sideTable, none⟩) (view : TableId) :
    source.benefactor view = ⟨(RowMetadata.benefactor view).expr binding, none⟩ := by
  have qualifier (table : BoundTable) :
      table.physicalName.alias?.map Identifier.name = table.correlation := by
    unfold BoundTable.physicalName
    cases table.correlation <;> rfl
  rw [benefactor, find?_view tables, RowMetadata.expr]
  cases binding.first? view with
  | none => rfl
  | some table =>
    show SelectItem.mk (Physical.benefactor _) none = _
    rw [qualifier]

end Source

namespace Select

/-- The lowered select list has the items of the part, each lowered in its place, and behind them one item
for each view. -/
def Extended (schemas : Schemas) (views : List TableId) (part lowered : Select) : Prop :=
  ∃ binding items own, Binding.ofSource schemas part.source = .ok binding ∧
    part.Spells binding items ∧
    List.Forall₂ (SelectItem.LowersTo
      { schemas, binding, aliases := Select.aliases { part with projection := .items items } }) items own ∧
    lowered.projection = .items (own ++ views.map lowered.source.benefactor)

def ownCount (views : List TableId) (select : Select) : Nat :=
  select.projection.itemList.length - views.length

theorem LoweredAs.extended {schemas : Schemas} {views known : List TableId} {part lowered : Select}
    (lowers : part.LoweredAs schemas false (views.map .benefactor) known lowered) :
    part.Extended schemas views lowered := by
  obtain ⟨⟨binding, bound⟩, searches, start, stop, boundAs, _, ran⟩ := lowers
  have binds : Binding.ofSource schemas bound.source = .ok binding := by
    obtain ⟨binds, projection, page, rfl, _⟩ := boundAs
    exact binds
  obtain ⟨sides, tables⟩ := (Select.keeps_tables binds start _ stop trivial ran).2.1
  obtain ⟨own, items, projection⟩ := projection_of_run ran
  refine ⟨binding, bound.projection.itemList, own, boundAs.1, boundAs.spells, items, ?_⟩
  rw [projection, List.map_map]
  congr 2
  apply List.map_congr_left
  intro view _
  exact (Source.benefactor_eq tables view).symm

end Select

namespace Select.Extended

variable {schemas : Schemas} {views : List TableId} {part lowered : Select}

theorem length (extended : part.Extended schemas views lowered) :
    lowered.projection.itemList.length = lowered.ownCount views + views.length := by
  obtain ⟨_, _, own, _, _, _, projection⟩ := extended
  simp [ownCount, projection, Projection.itemList]

theorem position (extended : part.Extended schemas views lowered) {index : Nat} {view : TableId}
    (listed : views[index]? = some view) :
    lowered.projection.itemList[lowered.ownCount views + index]? =
      some (lowered.source.benefactor view) := by
  obtain ⟨_, _, own, _, _, _, projection⟩ := extended
  have front : lowered.ownCount views = own.length := by
    simp [ownCount, projection, Projection.itemList]
  rw [front, projection, Projection.itemList, List.getElem?_append_right (Nat.le_add_right _ _),
    Nat.add_sub_cancel_left, List.getElem?_map, listed]
  rfl

end Select.Extended

/-! ## Benefactor columns of all parts -/

/-- The metadata columns of an object that is built are the benefactors of its views, in the order in which
the tables are listed. -/
theorem IndexDescription.metadata_built {description : IndexDescription} {etag aggregated : Bool}
    {tables : List TableId} {metadata : List RowMetadata}
    (ok : description.metadata .build etag aggregated tables = .ok metadata) :
    metadata = (description.benefactorViews tables).map .benefactor := by
  simp only [IndexDescription.metadata] at ok
  split at ok <;> cases ok
  rfl

theorem IndexDescription.benefactorViews_sublist {id : TableId} {dependencies : List IndexDescription}
    {tables : List TableId} :
    ((materializedView id dependencies).benefactorViews tables).Sublist tables :=
  List.filter_sublist

namespace Compiler

open Lowering

theorem compileParts_of_plain {compiler : Compiler} {query : Query} {statement : Statement}
    (stored : compiler.description.isVirtual = false) (plain : query.commonTables = none)
    (compiled : compiler.compileQuery query = .ok statement) :
    ∃ start after, (compiler.compileParts .statement compiler.description query none).run start =
      (.ok statement.compiled, after) := by
  obtain ⟨plan, after, laid, ran⟩ := run_of_compileQuery compiled
  rw [Plan.plain_of_stored laid stored plain] at ran
  exact ⟨_, after, ran⟩

/-- The benefactor columns of a materialized view are the same in every part of the statement that builds
it: one list of views, in the order in which the statement first names them, is appended to the items of
each part, so that parts with equally many items have the benefactor of each view in the same place. -/
theorem union_benefactors_aligned (compiler : Compiler) (id : TableId)
    (dependencies : List IndexDescription) (query : Query) (statement : Statement)
    (description : compiler.description = .materializedView id dependencies)
    (context : compiler.context = .build) (plain : query.commonTables = none)
    (compiled : compiler.compileQuery query = .ok statement) :
    ∃ views : List TableId, views.Nodup ∧
      (∀ view, view ∈ views ↔ view ∈ query.tableIds ∧
        ∃ dependency ∈ dependencies, dependency.id = view ∧ dependency.hasBenefactor = true) ∧
      (views.Pairwise fun first second =>
        query.tableIds.idxOf first < query.tableIds.idxOf second) ∧
      List.Forall₂ (Select.Extended compiler.schemas views) query.parts
        statement.compiled.query.parts ∧
      ∀ one ∈ statement.compiled.query.parts, ∀ other ∈ statement.compiled.query.parts,
        one.ownCount views = other.ownCount views →
          one.projection.itemList.length = other.projection.itemList.length ∧
          ∀ index view, views[index]? = some view →
            one.projection.itemList[one.ownCount views + index]? =
                some (one.source.benefactor view) ∧
              other.projection.itemList[one.ownCount views + index]? =
                some (other.source.benefactor view) := by
  have stored : compiler.description.isVirtual = false := by
    rw [description]
    rfl
  obtain ⟨start, after, ran⟩ := compileParts_of_plain stored plain compiled
  obtain ⟨metadata, own, _, _, parts⟩ := guarded_compileParts ran
  have reported : statement.compiled.tableIds = TableId.distinct query.tableIds := by
    simpa using tableIds_of_run ran
  rw [description, Compiler.metadata, context, reported] at own
  rw [IndexDescription.metadata_built own, context] at parts
  have extended := parts.imp fun _ _ lowers => Select.LoweredAs.extended lowers
  refine ⟨_, ?_, ?_, ?_, extended, ?_⟩
  · exact (TableId.nodup_distinct _).sublist IndexDescription.benefactorViews_sublist
  · intro view
    simp [IndexDescription.benefactorViews, TableId.mem_distinct]
  · exact (TableId.distinct_ordered _).sublist IndexDescription.benefactorViews_sublist
  · intro one member other another same
    obtain ⟨_, _, first⟩ := forall₂_left extended.flip one member
    obtain ⟨_, _, second⟩ := forall₂_left extended.flip other another
    have count := Select.Extended.length first
    have counted := Select.Extended.length second
    refine ⟨by rw [count, counted, same], fun index view listed => ?_⟩
    have place := Select.Extended.position second listed
    rw [← same] at place
    exact ⟨Select.Extended.position first listed, place⟩

/-- `SELECT a.foo FROM .. a JOIN .. b ON a.foo = b.foo` -/
def joinedPart (left right : String) : Select :=
  let column (table : String) : Expr := .column ⟨some ⟨table, none⟩, ⟨"foo", none⟩⟩
  Select.simple (.items [⟨column "a", none⟩]) (.join (.table ⟨left, some ⟨"a", none⟩⟩) .join
    ⟨right, some ⟨"b", none⟩⟩ (.equals (column "a") (column "b")))

/-- A join with a view, a star over another view, and a join of the first view with itself. -/
def unitedQuery : Query :=
  ⟨none, joinedPart "syn5" "syn2",
    [⟨true, Select.simple .all (.named "syn1")⟩, ⟨false, joinedPart "syn2" "syn2"⟩]⟩

/-- Every part has two more items, for the view that comes first in the statement and for the other. -/
theorem union_benefactors_aligned_united :
    ∃ statement, builtCompiler.compileQuery unitedQuery = .ok statement ∧
      statement.text = "SELECT _A0._C1_, IFNULL(_A1.ROW_BENEFACTOR,-1), -1 " ++
        "FROM T5 _A0 JOIN T2 _A1 ON _A0._C1_ = _A1._C1_ " ++
        "UNION ALL SELECT _C1_, -1, IFNULL(ROW_BENEFACTOR,-1) FROM T1 " ++
        "UNION SELECT _A0._C1_, IFNULL(_A0.ROW_BENEFACTOR,-1), -1 " ++
        "FROM T2 _A0 JOIN T2 _A1 ON _A0._C1_ = _A1._C1_" ∧
      ∃ views : List TableId, views.Nodup ∧
        (∀ view, view ∈ views ↔ view ∈ unitedQuery.tableIds ∧
          ∃ dependency ∈ builtCompiler.description.dependencies,
            dependency.id = view ∧ dependency.hasBenefactor = true) ∧
        List.Forall₂ (Select.Extended builtCompiler.schemas views) unitedQuery.parts
          statement.compiled.query.parts := by
  obtain ⟨statement, compiled, text⟩ : ∃ statement, builtCompiler.compileQuery unitedQuery = .ok statement ∧
      statement.text = "SELECT _A0._C1_, IFNULL(_A1.ROW_BENEFACTOR,-1), -1 " ++
        "FROM T5 _A0 JOIN T2 _A1 ON _A0._C1_ = _A1._C1_ " ++
        "UNION ALL SELECT _C1_, -1, IFNULL(ROW_BENEFACTOR,-1) FROM T1 " ++
        "UNION SELECT _A0._C1_, IFNULL(_A0.ROW_BENEFACTOR,-1), -1 " ++
        "FROM T2 _A0 JOIN T2 _A1 ON _A0._C1_ = _A1._C1_" := compiles_within 1 (by decide +kernel)
  obtain ⟨views, distinct, listed, _, extended, _⟩ := union_benefactors_aligned builtCompiler ⟨9, none⟩
    builtCompiler.description.dependencies unitedQuery statement rfl rfl rfl compiled
  exact ⟨statement, compiled, text, views, distinct, listed, extended⟩

end Compiler

end TabularSql
