import TabularSql.Proofs.Lowering.Statements
import TabularSql.Query.Equality

/-!
# Queries over virtual tables

The query of a virtual table reads a common table, which has the columns of the defining query and nothing
else. Which columns the outer query names is followed through lowering: they are declared by the common
table, except where the outer query reads a column as the store keeps it. Shadows of DOUBLE columns,
elements of lists and metadata columns belong to stored tables, and a common table has none of them.
-/

namespace TabularSql

set_option autoImplicit false

/-! ## Names in expressions -/

namespace Expr

@[simp] theorem allSubexpressions_eq (list : List Expr) :
    allSubexpressions list = list.flatMap subexpressions := by
  induction list with
  | nil => rfl
  | cons expr list ih => rw [allSubexpressions, ih, List.flatMap_cons]

@[simp] theorem optionalSubexpressions_eq (optional : Option Expr) :
    optionalSubexpressions optional = optional.toList.flatMap subexpressions := by
  cases optional <;> simp [optionalSubexpressions]

@[simp] theorem branchSubexpressions_eq (branches : List (Expr × Expr)) : branchSubexpressions branches =
    branches.flatMap fun branch => branch.1.subexpressions ++ branch.2.subexpressions := by
  induction branches with
  | nil => rfl
  | cons branch branches ih => rw [branchSubexpressions, ih, List.flatMap_cons]

theorem mem_subexpressions {part whole : Expr} : part ∈ whole.subexpressions ↔
    part = whole ∨ ∃ inner, .expr inner ∈ whole.inside ∧ part ∈ inner.subexpressions := by
  cases whole with
  | caseWhen operand branches otherwise =>
    simp only [subexpressions, List.mem_cons, List.mem_append, optionalSubexpressions_eq,
      branchSubexpressions_eq, List.mem_flatMap]
    grind [Expr.inside]
  | _ => simp [subexpressions]

/-- Every column that is named outside of subqueries is an allowed one. -/
def Names (allowed : ColumnRef → Prop) (whole : Expr) : Prop :=
  ∀ reference, .column reference ∈ whole.subexpressions → allowed reference

variable {allowed : ColumnRef → Prop}

theorem names_of_inside {whole : Expr} (own : ∀ reference, whole = .column reference → allowed reference)
    (each : ∀ part, .expr part ∈ whole.inside → part.Names allowed) : whole.Names allowed := by
  intro reference member
  rcases mem_subexpressions.mp member with same | ⟨inner, inside, deeper⟩
  · exact own reference same.symm
  · exact each inner inside reference deeper

theorem names_column {reference : ColumnRef} (known : allowed reference) :
    (column reference).Names allowed :=
  names_of_inside (by rintro _ ⟨⟩; exact known) nofun

theorem IsKept.names {whole : Expr} (kept : whole.IsKept)
    (each : ∀ part, .expr part ∈ whole.inside → part.Names allowed) : whole.Names allowed := by
  refine names_of_inside ?_ each
  rintro reference rfl
  exact kept.elim

theorem names_guardedDouble {qualifier : Option String} {id : ColumnId}
    (own : allowed (Physical.columnRef qualifier id))
    (shadow : allowed (.plain qualifier (Physical.shadow id))) :
    (Physical.guardedDouble qualifier id).Names allowed := by
  intro reference member
  have either : reference = .plain qualifier (Physical.shadow id) ∨
      reference = Physical.columnRef qualifier id ∨
        reference = .plain qualifier (Physical.shadow id) := by
    simpa [Physical.guardedDouble, Physical.shadowExpr, subexpressions, optionalSubexpressions,
      branchSubexpressions] using member
  rcases either with rfl | rfl | rfl
  · exact shadow
  · exact own
  · exact shadow

theorem names_doubleTest {scope : Scope} {test : DoubleTest} {written : ColumnRef} {lowered : Expr}
    (ok : test.lower scope written = .ok lowered)
    (shadow : ∀ resolved column, scope.binding.resolve written = .ok (some resolved) →
      resolved.target = .stored column → column.model.type = .double →
        allowed (.plain resolved.qualifier (Physical.shadow column.id))) : lowered.Names allowed := by
  obtain ⟨resolved, column, resolves, target, double, tests⟩ := DoubleTest.lower_of_ok ok
  have own := shadow resolved column resolves target double
  intro reference member
  have only : reference = .plain resolved.qualifier (Physical.shadow column.id) := by
    rcases tests with rfl | rfl
    · simpa [Physical.nanTest, Physical.shadowExpr, Expr.and, Expr.equals, Expr.string,
        subexpressions] using member
    · simpa [Physical.infinityTest, Physical.shadowExpr, Expr.and, Expr.string, subexpressions,
        allSubexpressions] using member
  rw [only]
  exact own

theorem names_of_unresolved {scope : Scope} {position : Position} {reference : ColumnRef}
    {lowered : Expr} (kept : reference.Unresolved scope position lowered)
    (left : reference.qualifier = none → reference.name.isDelimited = true →
      allowed ⟨none, .backQuoted reference.name.name⟩)
    (named : position = .sort → reference.qualifier = none → reference.name.name ∈ scope.aliases →
      allowed reference) : lowered.Names allowed := by
  cases kept with
  | delimited bare quoted _ => exact names_column (left bare quoted)
  | named bare _ listed sort => exact names_column (named sort bare listed)

/-- The lookup of list elements stands outside, but for the row id that it tests. -/
theorem names_rowsWith {column : ListColumn}
    (row : allowed (Physical.metadataRef column.qualifier .rowId)) (condition : Expr) (negated : Bool) :
    (column.rowsWith condition negated).Names allowed := by
  intro reference member
  have only : reference = Physical.metadataRef column.qualifier .rowId := by
    simpa [ListColumn.rowsWith, subexpressions] using member
  rw [only]
  exact row

end Expr

/-! ## Names in lowered clauses -/

/-- The columns of the bound tables are allowed, and so is what else the store keeps of them. -/
structure Binding.Provides (binding : Binding) (allowed : ColumnRef → Prop) : Prop where
  stored : ∀ table ∈ binding.tables, ∀ column ∈ table.columns,
    allowed (Physical.columnRef table.correlation column.id)
  shadow : ∀ table ∈ binding.tables, ∀ column ∈ table.columns, column.model.type = .double →
    allowed (.plain table.correlation (Physical.shadow column.id))
  element : ∀ table ∈ binding.tables, ∀ column ∈ table.columns, column.model.type.isList = true →
    allowed (.plain none (Physical.element column.id))
  row : ∀ table ∈ binding.tables, ∀ column ∈ table.columns, column.model.type.isList = true →
    allowed (Physical.metadataRef table.correlation .rowId)

/-- Beside the columns of the tables, metadata columns that the select names and names that are left over
are allowed. -/
structure Select.Allows (schemas : Schemas) (binding : Binding) (allowed : ColumnRef → Prop)
    (logical : Select) : Prop where
  provides : binding.Provides allowed
  metadata : ∀ written name, Fragment.Within (.expr (.column written)) (.select logical) →
    MetadataName.ofWord? written.name.name = some name → ∀ table ∈ binding.tables,
      allowed (Physical.metadataRef table.correlation name)
  left : ∀ reference, reference.IsLeftOver schemas logical → allowed reference

theorem Select.Allows.mono {schemas : Schemas} {binding : Binding} {allowed looser : ColumnRef → Prop}
    {logical : Select} (allows : logical.Allows schemas binding allowed)
    (weaken : ∀ reference, allowed reference → looser reference) :
    logical.Allows schemas binding looser where
  provides :=
    { stored := fun table member column own => weaken _ (allows.provides.stored table member column own)
      shadow := fun table member column own double =>
        weaken _ (allows.provides.shadow table member column own double)
      element := fun table member column own list =>
        weaken _ (allows.provides.element table member column own list)
      row := fun table member column own list =>
        weaken _ (allows.provides.row table member column own list) }
  metadata := fun written name within word table member =>
    weaken _ (allows.metadata written name within word table member)
  left := fun reference left => weaken _ (allows.left reference left)

/-- What the select list and WHERE name, and what the keys of GROUP BY and ORDER BY name. -/
structure Select.Names (clause key : ColumnRef → Prop) (select : Select) : Prop where
  items : ∀ item ∈ select.projection.itemList, item.expr.Names clause
  filter : ∀ expr ∈ select.filter, expr.Names clause
  groupBy : ∀ expr ∈ select.groupBy, expr.Names key
  orderBy : ∀ sorted ∈ select.orderBy, sorted.expr.Names key

theorem Binding.resolve_metadata {binding : Binding} {reference : ColumnRef} {resolved : ResolvedColumn}
    {name : MetadataName} (ok : binding.resolve reference = .ok (some resolved))
    (target : resolved.target = .metadata name) :
    MetadataName.ofWord? reference.name.name = some name ∧
      ∀ table ∈ binding.candidates reference, table.find? reference.name.name = none := by
  unfold resolve at ok
  simp only at ok
  split at ok
  · next found hits =>
      cases ok
      have hit := List.mem_singleton_self resolved
      rw [← hits] at hit
      obtain ⟨table, _, found⟩ := List.mem_filterMap.mp hit
      obtain ⟨column, _, rfl⟩ := Option.map_eq_some_iff.mp found
      cases target
  · cases ok
  · next none =>
      simp only [Except.ok.injEq] at ok
      obtain ⟨word, known, rest⟩ := Option.bind_eq_some_iff.mp ok
      obtain ⟨table, _, same⟩ := Option.bind_eq_some_iff.mp rest
      cases same
      cases target
      refine ⟨known, fun table member => ?_⟩
      simpa using List.filterMap_eq_nil_iff.mp none table member

namespace Lowering

variable {scope : Scope} {allowed : ColumnRef → Prop}

theorem listed_of_ok {reference : ColumnRef} {form : ListForm} {column : ListColumn}
    (ok : reference.listColumn scope form = .ok column) :
    ∃ table ∈ scope.binding.tables, ∃ stored ∈ table.columns, stored.model.type.isList = true ∧
      column.qualifier = table.correlation ∧ column.id = stored.id := by
  obtain ⟨resolved, stored, resolves, target, list, rfl⟩ := ColumnRef.listColumn_of_ok ok
  obtain ⟨member, own⟩ := Binding.resolve_table resolves
  exact ⟨resolved.table, member, stored, own stored target, list, rfl, rfl⟩

theorem carried_names (provides : scope.binding.Provides allowed) :
    Carried scope (fun _ => True) (Expr.Names allowed) where
  context := fun _ _ _ => trivial
  search := fun _ _ => trivial
  kept := fun _ kept each => kept.names each
  rows := by
    intro form tested column known _ _ condition _ _ negated
    obtain ⟨reference, rfl, listed⟩ := Expr.testedList_of_ok known
    obtain ⟨table, member, stored, own, list, qualifier, _⟩ := listed_of_ok listed
    apply Expr.names_rowsWith
    rw [qualifier]
    exact provides.row table member stored own list
  unnest := by
    intro reference position
    refine keeps_bind (keeps_lift fun column ok => listed_of_ok ok) fun column listed =>
      keeps_bind (keeps_trivial _) fun _ _ => keeps_pure (Expr.names_column ?_)
    obtain ⟨table, member, stored, own, list, _, id⟩ := listed
    rw [id]
    exact provides.element table member stored own list
  doubleTest := by
    intro test reference lowered ok
    refine Expr.names_doubleTest ok fun resolved column resolves target double => ?_
    obtain ⟨member, own⟩ := Binding.resolve_table resolves
    exact provides.shadow resolved.table member column (own column target) double

/-- A reference is lowered to a column of a bound table, unless it is the name of a metadata column or
stands for nothing. -/
theorem keeps_named (provides : scope.binding.Provides allowed) {reference : ColumnRef} {position : Position}
    (metadata : ∀ resolved name, scope.binding.resolve reference = .ok (some resolved) →
      resolved.target = .metadata name → allowed (Physical.metadataRef resolved.qualifier name))
    (unresolved : ∀ lowered, scope.binding.resolve reference = .ok none →
      reference.Unresolved scope position lowered → lowered.Names allowed) :
    Keeps (fun _ => True) ((Expr.column reference).lower scope position) (Expr.Names allowed) := by
  refine keeps_lift fun lowered ok => ?_
  cases ColumnRef.lowersTo_of_ok ok with
  | @physical resolved found =>
    obtain ⟨member, own⟩ := Binding.resolve_table found
    apply Expr.names_column
    unfold ResolvedColumn.physical
    split
    · next column target => exact provides.stored resolved.table member column (own column target)
    · next name target => exact metadata resolved name found target
  | @guarded resolved column found stored double =>
    obtain ⟨member, own⟩ := Binding.resolve_table found
    exact Expr.names_guardedDouble (provides.stored resolved.table member column (own column stored))
      (provides.shadow resolved.table member column (own column stored) double)
  | unresolved nothing kept => exact unresolved lowered nothing kept

end Lowering

theorem Binding.star_candidate {binding : Binding} {table : BoundTable} (member : table ∈ binding.tables)
    (name : Identifier) : table ∈ binding.candidates ⟨binding.starQualifier table, name⟩ := by
  unfold candidates starQualifier
  cases given : table.alias? with
  | some own => simp [member, BoundTable.qualifierName, given]
  | none =>
    by_cases join : binding.isJoin = true
    · simp [member, join, BoundTable.qualifierName, given]
    · simp [member, join]

namespace Select

open Lowering

variable {schemas : Schemas} {logical : Select} {allowed : ColumnRef → Prop}

theorem keeps_clauseNames (scope : Scope) {sorts : Prop}
    (binds : Binding.ofSource scope.schemas logical.source = .ok scope.binding)
    (allows : logical.Allows scope.schemas scope.binding allowed)
    (aliases : sorts → ∀ reference, reference.qualifier = none →
      reference.name.name ∈ scope.aliases → allowed reference)
    {expr : Expr} (member : expr ∈ logical.exprs) (position : Position)
    (place : position = .sort → sorts) :
    Keeps (fun _ => True) (expr.lower scope position) (Expr.Names allowed) := by
  refine keeps_lower (carried_names allows.provides) (fun reference position within place => ?_) position
    place
  have written : Fragment.Within (.expr (.column reference)) (.select logical) :=
    .deeper (List.mem_map_of_mem member) within
  apply keeps_named allows.provides
  · intro resolved name resolves target
    exact allows.metadata reference name written (Binding.resolve_metadata resolves target).1
      resolved.table (Binding.resolve_table resolves).1
  · intro lowered nothing kept
    refine Expr.names_of_unresolved kept ?_ ?_
    · intro bare quoted
      exact allows.left _ ⟨reference, scope.binding, written, bare, quoted, binds, nothing, rfl⟩
    · exact fun sort => aliases (place sort) reference

theorem keeps_itemNames (scope : Scope)
    (binds : Binding.ofSource scope.schemas logical.source = .ok scope.binding)
    (allows : logical.Allows scope.schemas scope.binding allowed) {projection : Projection}
    (spelled : projection = logical.projection ∧ logical.projection ≠ .all ∨
      ∃ items, scope.binding.star = .ok items ∧ logical.projection = .all ∧
        projection = .items items)
    {item : SelectItem} (member : item ∈ projection.itemList) :
    Keeps (fun _ => True) (item.lower scope) fun result => result.expr.Names allowed := by
  have own : Keeps (fun _ => True) (item.expr.lower scope .select) (Expr.Names allowed) := by
    rcases spelled with ⟨rfl, _⟩ | ⟨items, star, _, rfl⟩
    · exact keeps_clauseNames scope binds allows (fun never : False => never.elim) (item_mem member)
        .select nofun
    · obtain ⟨table, listed, column, own, rfl⟩ := Binding.star_columns star item member
      apply keeps_named allows.provides
      · -- A star is spelled out with names of columns, which come before metadata columns.
        intro resolved name resolves target
        have nowhere := (Binding.resolve_metadata resolves target).2 table
          (Binding.star_candidate listed _)
        have missing := List.find?_eq_none.mp nowhere column own
        simp [Identifier.doubleQuoted] at missing
      · intro lowered _ kept
        cases kept with
        | delimited _ _ place => rcases place with place | place <;> cases place
        | named _ _ _ place => cases place
  exact keeps_bind own fun _ names => keeps_pure names

theorem keeps_names {guardsDoubles : Bool} {binding : Binding} {part lowered : Select}
    (boundAs : logical.BoundAs schemas (binding, part))
    (clause : logical.Allows schemas binding allowed)
    (keys : logical.Allows schemas binding fun reference => allowed reference ∨ reference.IsAlias lowered)
    (aliases : ∀ name ∈ part.aliases, ∃ item ∈ lowered.projection.itemList, ∃ own ∈ item.alias?,
      own.name = name) :
    Keeps (fun _ => True) (part.lower schemas guardsDoubles [] binding) fun result =>
      result.1.Names allowed fun reference => allowed reference ∨ reference.IsAlias lowered := by
  obtain ⟨binds, projection, window, rfl, spelled⟩ := boundAs
  let scope : Scope :=
    ⟨schemas, binding, guardsDoubles, Select.aliases { logical with projection, page := window }⟩
  have inClause {expr : Expr} (member : expr ∈ logical.exprs) (position : Position)
      (place : position ≠ .sort) :
      Keeps (fun _ => True) (expr.lower scope position) (Expr.Names allowed) :=
    keeps_clauseNames scope binds clause (fun never : False => never.elim) member position place
  have inItem {item : SelectItem} (member : item ∈ projection.itemList) :
      Keeps (fun _ => True) (item.lower scope) fun result => result.expr.Names allowed :=
    keeps_itemNames scope binds clause spelled member
  have inKey {expr : Expr} (member : expr ∈ logical.exprs) :
      Keeps (fun _ => True) (expr.lower scope .sort)
        (Expr.Names fun reference => allowed reference ∨ reference.IsAlias lowered) :=
    keeps_clauseNames scope binds keys (fun _ reference bare listed => .inr ⟨bare, aliases _ listed⟩) member
      .sort fun _ => trivial
  refine keeps_bind (keeps_trivial _) fun _ _ => ?_
  refine keeps_bind (keeps_mapM fun item member => inItem member) fun items named_items => ?_
  refine keeps_bind (keeps_trivial _) fun source _ => ?_
  refine keeps_bind (keeps_lowerOption fun expr given => inClause (filter_mem given) _ nofun)
    fun filter named_filter => ?_
  refine keeps_bind (keeps_lowerAll fun expr member => inKey (group_mem member))
    fun groupBy named_group => ?_
  refine keeps_bind (keeps_mapM fun key member => keeps_key (inKey (key_mem member)))
    fun orderBy named_order => ?_
  refine keeps_bind (keeps_trivial _) fun page _ => ?_
  refine keeps_bind (keeps_trivial _) fun state _ => keeps_pure ?_
  refine ⟨fun item member => named_items item ?_, named_filter, named_group, named_order⟩
  simpa [Projection.itemList] using member

theorem names_of_run {guardsDoubles : Bool} {binding : Binding} {part : Select} {result : Select × Bool}
    {state after : LoweringState} (boundAs : logical.BoundAs schemas (binding, part))
    (clause : logical.Allows schemas binding allowed)
    (ran : (part.lower schemas guardsDoubles [] binding).run state = (.ok result, after)) :
    result.1.Names allowed fun reference => allowed reference ∨ reference.IsAlias result.1 := by
  have aliases := (keeps_aliases state result after trivial ran).2
  have keys : logical.Allows schemas binding fun reference =>
      allowed reference ∨ reference.IsAlias result.1 :=
    clause.mono fun _ => .inl
  exact (keeps_names boundAs clause keys aliases state result after trivial ran).2

end Select

/-! ## The common table of a virtual table -/

theorem IndexDescription.metadata_virtual {id : TableId} {text : String} {context : SqlContext}
    {etag aggregated : Bool} {tables : List TableId} {metadata : List RowMetadata}
    (ok : (virtualTable id text).metadata context etag aggregated tables = .ok metadata) :
    metadata = [] := by
  cases context with
  | query =>
    have none : (virtualTable id text).metadata .query etag aggregated tables = .ok [] := by
      simp [IndexDescription.metadata, isVirtual]
    rw [none] at ok
    exact (Except.ok.inj ok).symm
  | build =>
    have none : (virtualTable id text).metadata .build etag aggregated tables = .ok [] := by
      simp [IndexDescription.metadata, benefactorViews]
    rw [none] at ok
    exact (Except.ok.inj ok).symm

namespace TableId

/-- The physical name of a table is not a table identifier. -/
theorem ofText?_table (id : TableId) : ofText? (Physical.table id) = none := by
  have spelled : ∃ rest, (Physical.table id).toList = 'T' :: rest := by
    unfold Physical.table
    split <;> simp
  obtain ⟨rest, spelled⟩ := spelled
  rw [ofText?, spelled]
  exact ofChars?_cons (by decide) (by decide) (by decide) rest

end TableId

theorem CompiledQuery.toCommonTable_name {id : TableId} {inner : CompiledQuery} {element : CommonTable}
    (ok : inner.toCommonTable ⟨Physical.table id, none⟩ = .ok element) :
    element.name = ⟨Physical.table id, none⟩ := by
  obtain ⟨columns, _, ok⟩ := Except.of_bind ok
  cases ok
  simp only [TableId.ofText?_table]

theorem Binding.table_of_ok {schemas : Schemas} {written : TableName} {id : TableId} {binding : Binding}
    (ok : ofSource schemas (.table written) = .ok binding) (named : TableId.parse written.name = .ok id) :
    ∀ table ∈ binding.tables, table.id = id ∧ table.correlation = none := by
  refine forall₂_right (forall₂_of_ofSource ok) fun pair listed bound given => ?_
  obtain rfl : pair = (written, 0) := by simpa [Source.tables] using listed
  obtain ⟨own, parsed, given⟩ := Except.of_bind given
  obtain ⟨columns, _, given⟩ := Except.of_bind given
  cases given
  rw [named] at parsed
  cases parsed
  exact ⟨rfl, rfl⟩

namespace Compiler

open Lowering

variable {compiler : Compiler}

theorem run_of_virtual {id : TableId} {text : String} {query : Query} {statement : Statement}
    (description : compiler.description = .virtualTable id text)
    (ok : compiler.compileQuery query = .ok statement) :
    ∃ inner element state after,
      CompiledQuery.toCommonTable ⟨Physical.table id, none⟩ inner = .ok element ∧ query.unions = [] ∧
      (compiler.compileParts .statement (.virtualTable id text)
        { query with
          commonTables := some [element]
          first := { query.first with definingFilter := none } } (some inner)).run state =
        (.ok statement.compiled, after) := by
  obtain ⟨plan, after, laid, ran⟩ := run_of_compileQuery ok
  rw [description] at laid
  obtain ⟨entered, _, laid⟩ := Except.of_bind laid
  obtain ⟨prepared, checked, layers⟩ := Plan.layOut_cases laid
  obtain ⟨defining, narrowed, _, _, single, rfl⟩ :=
    IndexDescription.prepare_virtual (IndexDescription.prepare_of_checked checked)
  rcases layers with ⟨plain, _⟩ | ⟨element, _, _, _, inside, clause, _, _, _, _, rfl⟩
  · cases plain
  · cases clause
    obtain ⟨inner, _, _, ran⟩ := run_bind ran
    obtain ⟨table, state, declares, ran⟩ := run_bind ran
    exact ⟨inner, table, state, after, (run_lift declares).1, single, ran⟩

end Compiler

namespace ColumnRef

/-- A column that the common table declares. -/
def IsDeclared (element : CommonTable) (reference : ColumnRef) : Prop :=
  reference.qualifier = none ∧ reference.name ∈ element.columns

/-- What a table has in the store beside the columns of its schema: the shadow of a DOUBLE column, the
elements of a list and the row that they belong to, and metadata columns that the select names. -/
inductive IsStoreOnly (columns : List ColumnModel) (logical : Select) : ColumnRef → Prop where
  | shadow {model : ColumnModel} {id : ColumnId} (listed : model ∈ columns) (own : model.id = some id)
      (double : model.type = .double) : IsStoreOnly columns logical (.plain none (Physical.shadow id))
  | element {model : ColumnModel} {id : ColumnId} (listed : model ∈ columns) (own : model.id = some id)
      (list : model.type.isList = true) : IsStoreOnly columns logical (.plain none (Physical.element id))
  | row {model : ColumnModel} (listed : model ∈ columns) (list : model.type.isList = true) :
      IsStoreOnly columns logical (Physical.metadataRef none .rowId)
  | metadata {written : ColumnRef} {name : MetadataName}
      (within : Fragment.Within (.expr (.column written)) (.select logical))
      (word : MetadataName.ofWord? written.name.name = some name) :
      IsStoreOnly columns logical (Physical.metadataRef none name)

end ColumnRef

/-- What the outer query of a virtual table may name in its select list and in WHERE. -/
def ColumnRef.InOuter (schemas : Schemas) (id : TableId) (element : CommonTable) (logical : Select)
    (reference : ColumnRef) : Prop :=
  reference.IsDeclared element ∨ reference.IsLeftOver schemas logical ∨
    reference.IsStoreOnly (schemas.columnsOf id) logical

theorem Select.allows_outer {schemas : Schemas} {id : TableId} {element : CommonTable} {logical : Select}
    {written : TableName} {binding : Binding} (reads : logical.source = .table written)
    (named : TableId.parse written.name = .ok id)
    (binds : Binding.ofSource schemas logical.source = .ok binding)
    (provided : ∀ model ∈ schemas.columnsOf id, ∀ column ∈ model.id,
      ⟨Physical.column column, none⟩ ∈ element.columns) :
    logical.Allows schemas binding (ColumnRef.InOuter schemas id element logical) := by
  have single := Binding.table_of_ok (reads ▸ binds) named
  have model {table : BoundTable} (member : table ∈ binding.tables) {column : BoundColumn}
      (own : column ∈ table.columns) :
      column.model ∈ schemas.columnsOf id ∧ column.model.id = some column.id := by
    rw [← (single table member).1]
    exact Binding.column_model binds member own
  constructor
  · constructor
    · intro table member column own
      rw [(single table member).2]
      obtain ⟨listed, same⟩ := model member own
      exact .inl ⟨rfl, provided _ listed _ same⟩
    · intro table member column own double
      rw [(single table member).2]
      obtain ⟨listed, same⟩ := model member own
      exact .inr (.inr (.shadow listed same double))
    · intro table member column own list
      obtain ⟨listed, same⟩ := model member own
      exact .inr (.inr (.element listed same list))
    · intro table member column own list
      rw [(single table member).2]
      exact .inr (.inr (.row (model member own).1 list))
  · intro written name within word table member
    rw [(single table member).2]
    exact .inr (.inr (.metadata within word))
  · exact fun reference left => .inr (.inl left)

namespace Compiler

/-- The outer query of a virtual table names columns that its common table declares, aliases and names
that are left over; all else that it names are columns that only stored tables have. -/
theorem virtual_names_declared (compiler : Compiler) (id : TableId) (text : String) (query : Query)
    (statement : Statement) (written : TableName)
    (description : compiler.description = .virtualTable id text)
    (reads : query.first.source = .table written) (named : TableId.parse written.name = .ok id)
    (compiled : compiler.compileQuery query = .ok statement)
    (provided : ∀ element ∈ statement.compiled.query.elements,
      ∀ model ∈ compiler.schemas.columnsOf id, ∀ column ∈ model.id,
        ⟨Physical.column column, none⟩ ∈ element.columns) :
    ∃ element outer, statement.compiled.query = ⟨some [element], outer, []⟩ ∧
      element.name = ⟨Physical.table id, none⟩ ∧
      outer.Names
        (ColumnRef.InOuter compiler.schemas id element { query.first with definingFilter := none })
        fun reference => reference.InOuter compiler.schemas id element
          { query.first with definingFilter := none } ∨ reference.IsAlias outer := by
  obtain ⟨inner, element, state, after, declares, single, ran⟩ := run_of_virtual description compiled
  obtain ⟨metadata, guardsDoubles, own, _, clause, parts⟩ := parts_compileParts ran
  obtain rfl := IndexDescription.metadata_virtual own
  rcases lowered : statement.compiled.query with ⟨commonTables, outer, unions⟩
  rw [lowered] at clause parts provided
  obtain rfl : commonTables = some [element] := clause
  simp only [Query.parts, single, List.map_nil] at parts
  cases parts with
  | cons first rest =>
    obtain rfl : unions = [] := by simpa using rest
    obtain ⟨bound, searches, start, stop, boundAs, _, ran⟩ := first
    have allows : Select.Allows compiler.schemas bound.1
        (ColumnRef.InOuter compiler.schemas id element { query.first with definingFilter := none })
        { query.first with definingFilter := none } :=
      Select.allows_outer reads named boundAs.1 (provided element (by simp [Query.elements]))
    exact ⟨element, outer, rfl, CompiledQuery.toCommonTable_name declares,
      Select.names_of_run boundAs allows ran⟩

def pricedCompiler : Compiler where
  schemas :=
    let columns : List ColumnModel := [{ id := some 333, name := "price", type := .double }]
    ((({} : Catalog).addTable ⟨123, none⟩ columns).addTable ⟨789, none⟩ columns).schemas
  description := .virtualTable ⟨789, none⟩ "select price from syn123"
  lookup := [.table ⟨123, none⟩]
  userId := 1

/-- `SELECT price .. FROM syn789 ..` -/
def pricedQuery (alias? : Option Identifier) (filter : Option Expr) (orderBy : List SortKey) : Query :=
  .single { Select.simple (.items [⟨.named "price", alias?⟩]) (.named "syn789") with filter, orderBy }

theorem pricedColumns_listed :
    ∀ model ∈ pricedCompiler.schemas.columnsOf ⟨789, none⟩, ∀ column ∈ model.id,
      (⟨Physical.column column, none⟩ : Identifier) ∈ [⟨"_C333_", none⟩] := by
  have models : pricedCompiler.schemas.columnsOf ⟨789, none⟩ =
      [{ id := some 333, name := "price", type := .double }] := by decide +kernel
  rw [models]
  intro model member column known
  cases List.mem_singleton.mp member
  cases known
  decide +kernel

/-- `SELECT price AS cost FROM syn789 WHERE price IS NOT NULL ORDER BY cost` -/
def costQuery : Query :=
  pricedQuery (some ⟨"cost", none⟩) (some (.isNull (.named "price") true)) [⟨.named "cost", none⟩]

theorem virtual_names_declared_cost :
    ∃ statement element outer, pricedCompiler.compileQuery costQuery = .ok statement ∧
      statement.text = "WITH T789 (_C333_) AS (SELECT _C333_ FROM T123) " ++
        "SELECT CASE WHEN _DBL_C333_ IS NULL THEN _C333_ ELSE _DBL_C333_ END AS cost FROM T789 " ++
        "WHERE _C333_ IS NOT NULL ORDER BY cost" ∧
      statement.compiled.query = ⟨some [element], outer, []⟩ ∧
      outer.Names (ColumnRef.InOuter pricedCompiler.schemas ⟨789, none⟩ element costQuery.first)
        fun reference => reference.InOuter pricedCompiler.schemas ⟨789, none⟩ element costQuery.first ∨
          reference.IsAlias outer := by
  obtain ⟨statement, compiled, text, declared⟩ : ∃ statement,
      pricedCompiler.compileQuery costQuery = .ok statement ∧
      statement.text = "WITH T789 (_C333_) AS (SELECT _C333_ FROM T123) " ++
        "SELECT CASE WHEN _DBL_C333_ IS NULL THEN _C333_ ELSE _DBL_C333_ END AS cost FROM T789 " ++
        "WHERE _C333_ IS NOT NULL ORDER BY cost" ∧
      ∀ element ∈ statement.compiled.query.elements, element.columns = [⟨"_C333_", none⟩] :=
    compiles_within 2 (by decide +kernel)
  have named : TableId.parse "syn789" = .ok ⟨789, none⟩ := by decide +kernel
  obtain ⟨element, outer, query, _, names⟩ := virtual_names_declared pricedCompiler ⟨789, none⟩ _
    costQuery statement _ rfl rfl named compiled fun element member =>
      (declared element member) ▸ pricedColumns_listed
  exact ⟨statement, element, outer, compiled, text, query, names⟩

/-- `T789 (_C333_) AS (SELECT _C333_ FROM T123)` -/
def pricedElement : CommonTable :=
  ⟨⟨"T789", none⟩, [⟨"_C333_", none⟩],
    .single (Select.simple (.items [⟨.named "_C333_", none⟩]) (.named "T123"))⟩

/-- `SELECT CASE WHEN _DBL_C333_ IS NULL THEN _C333_ ELSE _DBL_C333_ END FROM T789` -/
def pricedOuter : Select :=
  Select.simple (.items [⟨Physical.guardedDouble none 333, none⟩]) (.named "T789")

/-- The shadow of a DOUBLE column is read from a common table that does not declare it. -/
theorem virtual_shadow_undeclared :
    ∃ statement, pricedCompiler.compileText "select price from syn789" = .ok statement ∧
      statement.compiled.query = ⟨some [pricedElement], pricedOuter, []⟩ ∧
      (∀ model ∈ pricedCompiler.schemas.columnsOf ⟨789, none⟩, ∀ column ∈ model.id,
        ⟨Physical.column column, none⟩ ∈ pricedElement.columns) ∧
      (∃ item ∈ pricedOuter.projection.itemList,
        .column (.plain none "_DBL_C333_") ∈ item.expr.subexpressions) ∧
      ¬ ColumnRef.IsDeclared pricedElement (.plain none "_DBL_C333_") ∧
      ¬ ColumnRef.IsAlias pricedOuter (.plain none "_DBL_C333_") := by
  have parsed : Query.parse "select price from syn789" = .ok (pricedQuery none none []) := by
    decide +kernel
  obtain ⟨statement, compiled, same⟩ : ∃ statement,
      pricedCompiler.compileQuery (pricedQuery none none []) = .ok statement ∧
        statement.compiled.query = ⟨some [pricedElement], pricedOuter, []⟩ :=
    compiles_within 2 (by decide +kernel)
  have read : ∃ item ∈ pricedOuter.projection.itemList,
      .column (.plain none "_DBL_C333_") ∈ item.expr.subexpressions := by
    decide +kernel
  refine ⟨statement, (compileText_eq _ parsed).trans compiled, same, pricedColumns_listed, read, ?_, ?_⟩
  · rintro ⟨_, listed⟩
    revert listed
    decide
  · rintro ⟨_, item, listed, name, given, _⟩
    cases List.mem_singleton.mp listed
    cases given

end Compiler

end TabularSql
