import TabularSql.Proofs.Lowering.Statements
import TabularSql.Query.Equality

/-!
# Benefactors of materialized views

A materialized view keeps the benefactors of the views that it is built from: every part of the statement
that builds it has one more column for each of them. A part that reads the view fills the column with the
benefactor of the row, and any other part fills it with a constant. Which views are meant is decided for
the statement as a whole, common tables included, but a part sees only the tables of its own FROM clause.
-/

namespace TabularSql

set_option autoImplicit false

/-! ## Physical names of tables -/

namespace Physical

/-- The digits of the number, and of the version behind a sign that is no digit. -/
theorem table_chars (id : TableId) : (Physical.table id).toList =
    'T' :: (Nat.toDigits 10 id.number.toNat ++
      (id.version.map fun version => '_' :: Nat.toDigits 10 version.toNat).getD []) := by
  obtain ⟨number, version⟩ := id
  cases version <;> simp [Physical.table, Number.decimal]

theorem isDigit_of_mem {value : Nat} {char : Char} (member : char ∈ Nat.toDigits 10 value) :
    char.isDigit = true :=
  Nat.isDigit_of_mem_toDigits (by decide) (by decide) member

theorem takeWhile_number (id : TableId) :
    (Nat.toDigits 10 id.number.toNat ++
      (id.version.map fun version => '_' :: Nat.toDigits 10 version.toNat).getD []).takeWhile
        Char.isDigit = Nat.toDigits 10 id.number.toNat := by
  rw [List.takeWhile_append_of_pos fun _ => isDigit_of_mem]
  cases id.version <;> simp [show '_'.isDigit = false by decide]

theorem table_injective {first second : TableId} (same : Physical.table first = Physical.table second) :
    first = second := by
  have chars := congrArg String.toList same
  rw [table_chars, table_chars] at chars
  have behind := (List.cons.inj chars).2
  have numbers : Nat.toDigits 10 first.number.toNat = Nat.toDigits 10 second.number.toNat := by
    rw [← takeWhile_number first, behind, takeWhile_number second]
  have versions := List.append_cancel_left (numbers ▸ behind)
  obtain ⟨number, version⟩ := first
  obtain ⟨number', version'⟩ := second
  have known : number = number' := UInt64.toNat_inj.mp (Number.toDigits_injective numbers)
  have pinned : version = version' := by
    cases version with
    | none =>
      cases version' with
      | none => rfl
      | some _ => simp at versions
    | some _ =>
      cases version' with
      | none => simp at versions
      | some _ =>
        have digits := (List.cons.inj versions).2
        rw [UInt64.toNat_inj.mp (Number.toDigits_injective digits)]
  rw [known, pinned]

theorem table_ne_sideTable (id owner : TableId) (column : ColumnId) :
    Physical.table id ≠ Physical.sideTable owner column := by
  intro same
  have listed : 'I' ∈ (Physical.table id).toList := by
    rw [same]
    simp [Physical.sideTable]
  rw [table_chars] at listed
  have digit {value : Nat} : 'I' ∉ Nat.toDigits 10 value := fun member =>
    absurd (isDigit_of_mem member) (by decide)
  cases version : id.version <;> simp [version, digit] at listed

end Physical

/-! ## Tables that a statement reads -/

namespace Select

def ReadsTable (id : TableId) (select : Select) : Prop :=
  ∃ table ∈ select.source.tables, table.name = Physical.table id

/-- The select list has the benefactor of the rows of a table that the FROM clause has. -/
def ProjectsBenefactor (view : TableId) (select : Select) : Prop :=
  ∃ table ∈ select.source.tables, table.name = Physical.table view ∧
    ⟨Physical.benefactor (table.alias?.map Identifier.name), none⟩ ∈ select.projection.itemList

end Select

/-- A part of the query reads the table, or the query of a common table does. -/
inductive Query.ReadsTable (id : TableId) : Query → Prop where
  | part {query : Query} {select : Select} (member : select ∈ query.parts)
      (reads : select.ReadsTable id) : Query.ReadsTable id query
  | element {query : Query} {element : CommonTable} (member : element ∈ query.elements)
      (inner : Query.ReadsTable id element.query) : Query.ReadsTable id query

/-- The tables of a lowered part are those of its binding, and side tables. -/
theorem Select.LoweredAs.binding {schemas : Schemas} {guardsDoubles : Bool} {metadata : List RowMetadata}
    {tables : List TableId} {part lowered : Select}
    (lowers : part.LoweredAs schemas guardsDoubles metadata tables lowered) :
    ∃ binding : Binding,
      (∀ table ∈ binding.tables, table.id ∈ tables ∧ table.physicalName ∈ lowered.source.tables) ∧
      (∀ id, lowered.ReadsTable id → ∃ table ∈ binding.tables, table.id = id) ∧
      ∀ column ∈ metadata, ⟨column.expr binding, none⟩ ∈ lowered.projection.itemList := by
  obtain ⟨⟨binding, bound⟩, searches, start, stop, boundAs, among, ran⟩ := lowers
  have binds : Binding.ofSource schemas bound.source = .ok binding := by
    obtain ⟨binds, projection, page, rfl, _⟩ := boundAs
    exact binds
  obtain ⟨⟨columns, own⟩, items⟩ := (Select.keeps_tables binds start _ stop trivial ran).2
  refine ⟨binding, fun table member => ⟨among table member, ?_⟩, ?_, items⟩
  · rw [own]
    exact List.mem_append_left _ (List.mem_map_of_mem member)
  · rintro id ⟨name, listed, same⟩
    rw [own] at listed
    rcases List.mem_append.mp listed with stored | side
    · obtain ⟨table, member, rfl⟩ := List.mem_map.mp stored
      exact ⟨table, member, Physical.table_injective same⟩
    · obtain ⟨column, _, rfl⟩ := List.mem_map.mp side
      exact absurd same.symm (Physical.table_ne_sideTable _ _ _)

namespace Compiler

open Lowering

variable {compiler : Compiler} {compiled : CompiledQuery} {state after : LoweringState}

theorem tableIds_compileParts {role : Role} {description : IndexDescription} {query : Query}
    {inner : Option CompiledQuery}
    (ran : (compiler.compileParts role description query inner).run state = (.ok compiled, after))
    {select : Select} (member : select ∈ compiled.query.parts) {id : TableId}
    (reads : select.ReadsTable id) : id ∈ compiled.tableIds := by
  obtain ⟨metadata, guardsDoubles, _, _, _, parts⟩ := parts_compileParts ran
  obtain ⟨part, _, lowers⟩ := forall₂_left parts.flip select member
  obtain ⟨binding, tables, bound, _⟩ := Select.LoweredAs.binding lowers
  obtain ⟨table, listed, rfl⟩ := bound id reads
  exact (tables table listed).1

/-- Every table that a query reads, common tables included, is among its tables. -/
theorem tableIds_compilePlan {plan : Plan} {role : Role} {property : Query → Prop}
    (innermost : plan.Every property)
    (ran : (compiler.compilePlan role plan).run state = (.ok compiled, after)) {id : TableId}
    (reads : compiled.query.ReadsTable id) : id ∈ compiled.tableIds := by
  induction plan generalizing role compiled state after with
  | plain description query =>
    cases reads with
    | part member reads => exact tableIds_compileParts ran member reads
    | element member inner =>
      -- The innermost query has no WITH clause.
      obtain ⟨_, _, _, _, clause, _⟩ := parts_compileParts ran
      rw [Query.elements, clause, innermost.1] at member
      cases member
  | layered description query name inner ih =>
    obtain ⟨below, _, ran_below, ran⟩ := run_bind ran
    obtain ⟨element, _, declares, ran⟩ := run_bind ran
    cases reads with
    | part member reads => exact tableIds_compileParts ran member reads
    | element member deeper =>
      obtain ⟨_, _, _, includes, clause, _⟩ := parts_compileParts ran
      rw [Query.elements, clause] at member
      cases List.mem_singleton.mp member
      rw [CompiledQuery.toCommonTable_query (run_lift declares).1] at deeper
      exact includes below rfl id (ih innermost.2 ran_below deeper)

end Compiler

/-! ## Benefactor columns -/

theorem IndexDescription.benefactor_mem {id : TableId} {dependencies : List IndexDescription}
    {etag aggregated : Bool} {tables : List TableId} {metadata : List RowMetadata}
    (ok : (materializedView id dependencies).metadata .build etag aggregated tables = .ok metadata)
    {view : IndexDescription} (listed : view ∈ dependencies) (isView : view.hasBenefactor = true)
    (read : view.id ∈ tables) : .benefactor view.id ∈ metadata := by
  have known : view.id ∈ (materializedView id dependencies).benefactorViews tables := by
    refine List.mem_filter.mpr ⟨read, List.any_eq_true.mpr ⟨view, listed, ?_⟩⟩
    simp [isView]
  simp only [IndexDescription.metadata] at ok
  split at ok <;> cases ok
  exact List.mem_map_of_mem known

/-- The benefactor column of a part is that of the view, or a constant if the part does not read it. -/
theorem Select.LoweredAs.benefactor {schemas : Schemas} {guardsDoubles : Bool}
    {metadata : List RowMetadata} {tables : List TableId} {part lowered : Select}
    (lowers : part.LoweredAs schemas guardsDoubles metadata tables lowered) {view : TableId}
    (kept : .benefactor view ∈ metadata) :
    (lowered.ReadsTable view → lowered.ProjectsBenefactor view) ∧
      (¬ lowered.ReadsTable view → ⟨.integer (-1), none⟩ ∈ lowered.projection.itemList) := by
  obtain ⟨binding, present, bound, items⟩ := lowers.binding
  have item := items _ kept
  simp only [RowMetadata.expr] at item
  cases found : binding.first? view with
  | none =>
    rw [found] at item
    refine ⟨fun reads => ?_, fun _ => item⟩
    obtain ⟨table, member, rfl⟩ := bound view reads
    have missing := List.find?_eq_none.mp found table member
    simp at missing
  | some table =>
    rw [found] at item
    have same : table.id = view := by simpa using List.find?_some found
    have listed := (present table (List.mem_of_find?_eq_some found)).2
    have named : table.physicalName.name = Physical.table view := by rw [← same]; rfl
    refine ⟨fun _ => ⟨_, listed, named, ?_⟩, fun never => absurd ⟨_, listed, named⟩ never⟩
    have qualifier : table.physicalName.alias?.map Identifier.name = table.correlation := by
      unfold BoundTable.physicalName
      cases table.correlation <;> rfl
    rw [qualifier]
    exact item

namespace Compiler

/-- In the statement that builds a materialized view, every part that reads a view keeps the benefactors
of its rows; where a view is read by other parts or inside the WITH clause only, its column is constant. -/
theorem built_view_benefactor (compiler : Compiler) (id : TableId) (dependencies : List IndexDescription)
    (query : Query) (statement : Statement) (view : IndexDescription)
    (description : compiler.description = .materializedView id dependencies)
    (context : compiler.context = .build) (compiled : compiler.compileQuery query = .ok statement)
    (listed : view ∈ dependencies) (isView : view.hasBenefactor = true)
    (read : statement.compiled.query.ReadsTable view.id) :
    ∀ part ∈ statement.compiled.query.parts,
      (part.ReadsTable view.id → part.ProjectsBenefactor view.id) ∧
        (¬ part.ReadsTable view.id → ⟨.integer (-1), none⟩ ∈ part.projection.itemList) := by
  obtain ⟨plan, after, laid, ran⟩ := run_of_compileQuery compiled
  have known := tableIds_compilePlan (Plan.definingFilter_ofStatement laid) ran read
  obtain ⟨prepared, inner, start, stop, _, ran⟩ := compileParts_of_query compiled
  obtain ⟨metadata, guardsDoubles, own, _, _, parts⟩ := parts_compileParts ran
  rw [description, Compiler.metadata, context] at own
  have kept := IndexDescription.benefactor_mem own listed isView known
  intro part member
  obtain ⟨logical, _, lowers⟩ := forall₂_left parts.flip part member
  exact Select.LoweredAs.benefactor lowers kept

def builtCompiler : Compiler where
  schemas :=
    let columns : List ColumnModel := [{ id := some 1, name := "foo", type := .string, maxSize := some 50 }]
    (((({} : Catalog).addTable ⟨1, none⟩ columns).addTable ⟨2, none⟩ columns).addTable ⟨5, none⟩
      columns).schemas
  description := .materializedView ⟨9, none⟩ [.view ⟨1, none⟩ .entityView, .view ⟨2, none⟩ .entityView]
  userId := 1
  context := .build

def builtInner : Query :=
  .single (Select.simple (.items [⟨.named "foo", none⟩]) (.named "syn1"))

/-- `WITH syn5 AS (SELECT foo FROM syn1) SELECT .. FROM ..` -/
def builtQuery (item : Expr) (source : Source) : Query :=
  ⟨some [⟨⟨"syn5", none⟩, [], builtInner⟩], Select.simple (.items [⟨item, none⟩]) source, []⟩

/-- `WITH .. SELECT syn5.foo FROM syn5 JOIN syn2 ON syn5.foo = syn2.foo` -/
def joinedQuery : Query :=
  let own : Expr := .column ⟨some ⟨"syn5", none⟩, ⟨"foo", none⟩⟩
  builtQuery own (.join (.named "syn5") .join ⟨"syn2", none⟩
    (.equals own (.column ⟨some ⟨"syn2", none⟩, ⟨"foo", none⟩⟩)))

/-- The joined view keeps its benefactors, and the one inside the WITH clause has a constant. -/
theorem built_view_benefactor_joined :
    ∃ statement, builtCompiler.compileQuery joinedQuery = .ok statement ∧
      statement.text = "WITH T5 (_C1_) AS (SELECT _C1_ FROM T1) " ++
        "SELECT _A0._C1_, IFNULL(_A1.ROW_BENEFACTOR,-1), -1 FROM T5 _A0 JOIN T2 _A1 " ++
        "ON _A0._C1_ = _A1._C1_" ∧
      statement.compiled.query.first.ProjectsBenefactor ⟨2, none⟩ := by
  obtain ⟨statement, compiled, text, tables⟩ : ∃ statement,
      builtCompiler.compileQuery joinedQuery = .ok statement ∧
      statement.text = "WITH T5 (_C1_) AS (SELECT _C1_ FROM T1) " ++
        "SELECT _A0._C1_, IFNULL(_A1.ROW_BENEFACTOR,-1), -1 FROM T5 _A0 JOIN T2 _A1 " ++
        "ON _A0._C1_ = _A1._C1_" ∧ statement.compiled.query.first.source.tables =
          [⟨"T5", some ⟨"_A0", none⟩⟩, ⟨"T2", some ⟨"_A1", none⟩⟩] := compiles_within 2 (by decide +kernel)
  have physical : Physical.table ⟨2, none⟩ = "T2" := by decide +kernel
  have reads : statement.compiled.query.first.ReadsTable ⟨2, none⟩ :=
    ⟨⟨"T2", some ⟨"_A1", none⟩⟩, by rw [tables]; simp, physical.symm⟩
  have first : statement.compiled.query.first ∈ statement.compiled.query.parts :=
    List.mem_cons_self
  have kept := built_view_benefactor builtCompiler ⟨9, none⟩ _ joinedQuery statement
    (.view ⟨2, none⟩ .entityView) rfl rfl compiled (.tail _ (.head _)) rfl (.part first reads)
    statement.compiled.query.first first
  exact ⟨statement, compiled, text, kept.1 reads⟩

/-- `WITH T5 (_C1_) AS (SELECT _C1_ FROM T1) SELECT _C1_, -1 FROM T5` -/
def hiddenStatement : Query :=
  ⟨some [⟨⟨"T5", none⟩, [⟨"_C1_", none⟩],
      .single (Select.simple (.items [⟨.named "_C1_", none⟩]) (.named "T1"))⟩],
    Select.simple (.items [⟨.named "_C1_", none⟩, ⟨.integer (-1), none⟩]) (.named "T5"), []⟩

/-- A view that is read inside the WITH clause only has no benefactor in any part. -/
theorem built_view_without_benefactor :
    ∃ statement, builtCompiler.compileQuery (builtQuery (.named "foo") (.named "syn5")) = .ok statement ∧
      statement.compiled.query = hiddenStatement ∧
      .view ⟨1, none⟩ .entityView ∈ builtCompiler.description.dependencies ∧
      statement.compiled.query.ReadsTable ⟨1, none⟩ ∧
      ∀ part ∈ statement.compiled.query.parts, ¬ part.ProjectsBenefactor ⟨1, none⟩ := by
  obtain ⟨statement, compiled, same⟩ : ∃ statement,
      builtCompiler.compileQuery (builtQuery (.named "foo") (.named "syn5")) = .ok statement ∧
        statement.compiled.query = hiddenStatement := compiles_within 2 (by decide +kernel)
  have physical : Physical.table ⟨1, none⟩ = "T1" := by decide +kernel
  have inside : hiddenStatement.ReadsTable ⟨1, none⟩ :=
    .element (.head _) (.part (.head _) ⟨_, .head _, physical.symm⟩)
  have outside : ∀ part ∈ hiddenStatement.parts, ¬ part.ProjectsBenefactor ⟨1, none⟩ := by
    intro part member
    cases List.mem_singleton.mp member
    rintro ⟨table, listed, named, _⟩
    cases List.mem_singleton.mp listed
    rw [physical] at named
    exact absurd named (by decide)
  exact ⟨statement, compiled, same, .head _, same ▸ inside, same ▸ outside⟩

end Compiler

end TabularSql
