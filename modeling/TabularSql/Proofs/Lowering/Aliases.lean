import TabularSql.Proofs.Lowering.Realiased

/-!
# Aliases are only names

Each part of a query may have its aliases renamed, and so may the queries of its common tables. The plans of
the two queries have the same shape. Both statements are refused, or they are the same but for the reported
names of columns: the same text, the same bound values, and the same facts about tables, rows and columns.
A condition on the defining query of a virtual table is not renamed, since its qualifiers belong to that
query.
-/

namespace TabularSql

set_option autoImplicit false

/-! ## Renamed queries -/

/-- The select, as it is or with other aliases. -/
inductive Select.Realiased (part : Select) : Select → Prop where
  | unchanged : Select.Realiased part part
  | renamed (names : Renaming) (suits : names.Suits part) : Select.Realiased part (part.realias names)

namespace Select.Realiased

variable {one two : Select} (renamed : one.Realiased two)

include renamed

theorem isJoin : one.source.isJoin = two.source.isJoin := by
  cases renamed with
  | unchanged => rfl
  | renamed names suits => exact (Binding.isJoin_realias one.source).symm

theorem leading : one.source.leading.name = two.source.leading.name := by
  cases renamed with
  | unchanged => rfl
  | renamed names suits => exact (Binding.leading_realias one.source).symm

theorem definingFilter : one.definingFilter = two.definingFilter := by
  cases renamed <;> rfl

theorem undefined : Select.Realiased { one with definingFilter := none } { two with definingFilter := none } := by
  cases renamed with
  | unchanged => exact .unchanged
  | renamed names suits => exact .renamed names { suits with }

end Select.Realiased

/-- Queries whose parts differ in their aliases only, common tables apart. -/
structure Query.RealiasedParts (one two : Query) : Prop where
  first : one.first.Realiased two.first
  unions : List.Forall₂ (fun branch other => branch.all = other.all ∧
    Select.Realiased branch.select other.select) one.unions two.unions

mutual

inductive CommonTable.Realiased : CommonTable → CommonTable → Prop where
  | mk (name : Identifier) (columns : List Identifier) {one two : Query}
      (query : Query.Realiased one two) : CommonTable.Realiased ⟨name, columns, one⟩ ⟨name, columns, two⟩

/-- Queries that differ in their aliases only. -/
inductive Query.Realiased : Query → Query → Prop where
  | mk {one two : Query}
      (clause : Option.Rel (List.Forall₂ CommonTable.Realiased) one.commonTables two.commonTables)
      (parts : one.RealiasedParts two) : Query.Realiased one two

end

namespace Query.RealiasedParts

variable {one two : Query}

theorem refl (query : Query) : query.RealiasedParts query :=
  ⟨.unchanged, List.forall₂_same.mpr fun _ _ => ⟨rfl, .unchanged⟩⟩

theorem parts (renamed : one.RealiasedParts two) :
    List.Forall₂ Select.Realiased one.parts two.parts := by
  apply List.Forall₂.cons renamed.first
  rw [List.forall₂_map_left_iff, List.forall₂_map_right_iff]
  exact renamed.unions.imp fun _ _ branch => branch.2

theorem isUnion (renamed : one.RealiasedParts two) : one.isUnion = two.isUnion := by
  obtain ⟨_, _, unions⟩ := one
  obtain ⟨_, _, branches⟩ := two
  cases renamed.unions <;> rfl

theorem withParts (renamed : one.RealiasedParts two) (clause : one.commonTables = two.commonTables)
    {parts : List Select} (counted : parts.length = one.parts.length) :
    one.withParts parts = two.withParts parts := by
  obtain ⟨elements, _, unions⟩ := one
  obtain ⟨elements', _, branches⟩ := two
  obtain rfl : elements = elements' := clause
  cases parts with
  | nil => simp [Query.parts] at counted
  | cons first rest =>
    have united : List.zipWith (fun (branch : UnionBranch) select => { branch with select }) unions
        rest = List.zipWith (fun branch select => { branch with select }) branches rest := by
      clear counted
      have listed := renamed.unions
      dsimp only at listed
      clear renamed
      induction listed generalizing rest with
      | nil => rfl
      | cons own _ ih =>
        cases rest with
        | nil => rfl
        | cons select rest =>
          rw [List.zipWith_cons_cons, List.zipWith_cons_cons, own.1, ih]
    simp only [Query.withParts, united]

end Query.RealiasedParts

theorem Query.Realiased.parts {one two : Query} (renamed : one.Realiased two) :
    one.RealiasedParts two := by
  obtain ⟨_, parts⟩ := renamed
  exact parts

theorem Query.Realiased.refl (query : Query) : query.Realiased query := by
  refine .mk ?_ (.refl query)
  apply Option.rel_refl
  intro elements clause
  apply List.forall₂_same.mpr
  rintro ⟨name, columns, inner⟩ member
  exact .mk name columns (refl inner)
termination_by sizeOf query
decreasing_by exact Query.element_size clause member

/-! ## Plans -/

/-- Plans of the same shape over the same objects. -/
inductive Plan.Realiased : Plan → Plan → Prop where
  | plain (description : IndexDescription) {one two : Query} (clause : one.commonTables = none)
      (other : two.commonTables = none) (parts : one.RealiasedParts two) :
      Plan.Realiased (.plain description one) (.plain description two)
  | layered (description : IndexDescription) (name : Identifier) {one two : Query} {inner deeper : Plan}
      (parts : one.RealiasedParts two) (inside : Plan.Realiased inner deeper) :
      Plan.Realiased (.layered description one name inner) (.layered description two name deeper)

namespace IndexDescription

variable {one two : Query}

theorem alike_expandQuery (id : TableId) (text : String) (renamed : one.Realiased two) :
    Except.Alike Query.Realiased (expandQuery id text one) (expandQuery id text two) := by
  obtain ⟨clause, parts⟩ := renamed
  have given : one.commonTables.isSome = two.commonTables.isSome := by
    generalize one.commonTables = left at clause ⊢
    generalize two.commonTables = right at clause ⊢
    cases clause <;> rfl
  unfold expandQuery
  rw [parts.isUnion, parts.first.isJoin, given, parts.first.definingFilter]
  apply Except.Alike.ite (.error _ _)
  apply Except.Alike.ite (.error _ _)
  apply Except.Alike.ite (.error _ _)
  apply Except.Alike.bind (.refl (fun _ => rfl) _)
  rintro defining _ _ rfl
  apply Except.Alike.bind (.refl (fun _ => rfl) _)
  rintro narrowed _ _ rfl
  refine .ok (.mk (.some (.cons (.mk _ _ (.refl narrowed)) .nil)) ⟨?_, parts.unions⟩)
  exact parts.first.undefined

theorem alike_prepareChecked (description : IndexDescription) (sqlContext : SqlContext)
    (renamed : one.Realiased two) :
    Except.Alike Query.Realiased (description.prepareChecked sqlContext one)
      (description.prepareChecked sqlContext two) := by
  have stored : Except.Alike Query.Realiased
      (if one.parts.any fun part => part.definingFilter.isSome then
        .error (CompileError.unsupported .definingFilter) else .ok one)
      (if two.parts.any fun part => part.definingFilter.isSome then
        .error (CompileError.unsupported .definingFilter) else .ok two) := by
    obtain ⟨clause, parts⟩ := renamed
    rw [any_eq_of_forall₂ parts.parts fun _ _ part => congrArg Option.isSome part.definingFilter]
    exact .ite (.error _ _) (.ok (.mk clause parts))
  have prepared : Except.Alike Query.Realiased (description.prepare one) (description.prepare two) := by
    cases description with
    | virtualTable id text => exact alike_expandQuery id text renamed
    | _ => exact stored
  apply Except.Alike.bind prepared
  rintro first second _ ⟨clause, parts⟩
  have composed : description.checkComposition sqlContext first =
      description.checkComposition sqlContext second := by
    unfold checkComposition
    rw [parts.isUnion, any_eq_of_forall₂ parts.parts fun _ _ part => part.isJoin]
  rw [composed]
  apply Except.Alike.bind (.refl (fun _ => rfl) _)
  rintro _ _ _ rfl
  exact .ok (.mk clause parts)

end IndexDescription

/-- Renamed queries are laid out in the same shape. -/
theorem Plan.alike_layOut (lookup : List IndexDescription) (sqlContext : SqlContext)
    (context : BindingContext) (description : IndexDescription) (one two : Query)
    (renamed : one.Realiased two) :
    Except.Alike Plan.Realiased (layOut lookup sqlContext context description one)
      (layOut lookup sqlContext context description two) := by
  rw [layOut_eq, layOut_eq]
  apply Except.Alike.bind (IndexDescription.alike_prepareChecked description sqlContext renamed)
  rintro prepared other prepares ⟨clause, parts⟩
  rcases given : prepared.commonTables with _ | elements
  all_goals rcases given' : other.commonTables with _ | others
  all_goals rw [given, given'] at clause
  · exact .ok (.plain description given given' parts)
  · cases clause
  · cases clause
  · cases clause with
    | some listed =>
      match listed with
      | .nil => exact .error _ _
      | .cons first (.cons _ _) => exact .error _ _
      | .cons (.mk name columns inner) .nil =>
        dsimp only
        rw [inner.parts.first.leading]
        apply Except.Alike.bind (.refl (fun _ => rfl) _)
        rintro table _ _ rfl
        apply Except.Alike.bind (.refl (fun _ => rfl) _)
        rintro known _ found rfl
        apply Except.Alike.bind (.refl (fun _ => rfl) _)
        rintro entered _ enters rfl
        apply Except.Alike.bind (alike_layOut lookup sqlContext entered known _ _ inner)
        intro plan deeper _ inside
        exact .ok (.layered description name parts inside)
termination_by (unexpanded lookup context, if description.isVirtual then 1 else 0, sizeOf one)
decreasing_by exact layOut_decreases prepares given found enters

/-! ## Compiled queries -/

def SelectColumn.unnamed (column : SelectColumn) : SelectColumn := { column with name := "" }

/-- All that is known about the query, apart from the names of its columns. -/
def CompiledQuery.unnamed (compiled : CompiledQuery) : CompiledQuery :=
  { compiled with
    selectColumns := compiled.selectColumns.map SelectColumn.unnamed
    outputColumns := compiled.outputColumns.map ColumnModel.unnamed }

def Statement.unnamed (statement : Statement) : Statement :=
  { statement with compiled := statement.compiled.unnamed }

namespace Output

theorem unnamed_widenBy (columns other : List ColumnModel) :
    (widenBy columns other).map ColumnModel.unnamed =
      widenBy (columns.map ColumnModel.unnamed) (other.map ColumnModel.unnamed) := by
  have sizes (index : Nat) : (other.map ColumnModel.unnamed)[index]?.bind ColumnModel.maxSize =
      other[index]?.bind ColumnModel.maxSize := by
    rw [List.getElem?_map]
    cases other[index]? <;> rfl
  simp only [widenBy, List.zipIdx_map, List.map_map]
  apply List.map_congr_left
  intro pair _
  simp only [Function.comp_apply, Prod.map_fst, Prod.map_snd, id_eq, sizes]
  rfl

theorem unnamed_widen (lists : List (List ColumnModel)) :
    (widen lists).map ColumnModel.unnamed = widen (lists.map (List.map ColumnModel.unnamed)) := by
  have folded (rest : List (List ColumnModel)) (first : List ColumnModel) :
      (rest.foldl widenBy first).map ColumnModel.unnamed =
        (rest.map (List.map ColumnModel.unnamed)).foldl widenBy (first.map ColumnModel.unnamed) := by
    induction rest generalizing first with
    | nil => rfl
    | cons next rest ih => rw [List.foldl_cons, ih, unnamed_widenBy, List.map_cons, List.foldl_cons]
  cases lists with
  | nil => rfl
  | cons first rest => exact folded rest first

theorem unnamed_selectColumns (columns : List ColumnModel) (aggregated : Bool) :
    (selectColumns columns aggregated).map SelectColumn.unnamed =
      selectColumns (columns.map ColumnModel.unnamed) aggregated := by
  have ids : ((columns.map ColumnModel.unnamed).all fun model => model.id.isSome) =
      columns.all fun model => model.id.isSome := by
    rw [List.all_map]
    rfl
  simp only [selectColumns, ids, List.map_map]
  rfl

end Output

theorem Size.ofRow_unnamed (columns : List ColumnModel) :
    ofRow (columns.map ColumnModel.unnamed) = ofRow columns := by
  rw [ofRow, List.foldl_map]
  rfl

theorem CompiledQuery.alike_toCommonTable (name : Identifier) {one two : CompiledQuery}
    (same : one.unnamed = two.unnamed) :
    Except.Alike Eq (one.toCommonTable name) (two.toCommonTable name) := by
  have outputs : one.outputColumns.map ColumnModel.unnamed = two.outputColumns.map ColumnModel.unnamed :=
    congrArg CompiledQuery.outputColumns same
  have queries : one.query = two.query := show one.unnamed.query = two.unnamed.query by rw [same]
  rw [← List.forall₂_eq_eq_eq, List.forall₂_map_left_iff, List.forall₂_map_right_iff] at outputs
  have columns : Except.Alike (List.Forall₂ Eq) (one.commonColumns name) (two.commonColumns name) := by
    apply Except.Alike.mapM outputs
    intro model other models
    have ids : model.id = other.id := show model.unnamed.id = other.unnamed.id by rw [models]
    rw [ids]
    cases other.id with
    | none => exact .error _ _
    | some id => exact .ok rfl
  apply Except.Alike.bind columns
  intro listed others _ equal
  rw [List.forall₂_eq_eq_eq] at equal
  rw [equal, queries]
  exact .ok rfl

/-! ## Parts of a statement -/

/-- What a part was bound to, as it is or with other aliases. -/
inductive Select.BoundRealiased (one : Binding × Select) : Binding × Select → Prop where
  | unchanged : Select.BoundRealiased one one
  | renamed {two : Binding × Select} (names : Renaming) (binds : names.Binds one two) :
      Select.BoundRealiased one two

theorem Select.Realiased.alike_bindTables {one two : Select} (renamed : one.Realiased two)
    (schemas : Schemas) :
    Except.Alike Select.BoundRealiased (one.bindTables schemas) (two.bindTables schemas) := by
  cases renamed with
  | unchanged => exact .refl (fun _ => .unchanged) _
  | renamed names suits => exact suits.alike_bindTables.mono fun _ _ binds => .renamed names binds

namespace Select.BoundRealiased

variable {one two : Binding × Select} (renamed : Select.BoundRealiased one two)

include renamed

theorem isAggregate : one.2.isAggregate = two.2.isAggregate := by
  cases renamed with
  | unchanged => rfl
  | renamed names binds => exact binds.isAggregate.symm

theorem describe (schemas : Schemas) :
    (one.2.describe schemas one.1).map ColumnModel.unnamed =
      (two.2.describe schemas two.1).map ColumnModel.unnamed := by
  cases renamed with
  | unchanged => rfl
  | renamed names binds => exact (binds.describe schemas).symm

theorem bound {α : Type} {view : BoundTable → α}
    (sees : ∀ (names : Renaming) table, view (BoundTable.realias names table) = view table) :
    one.1.tables.map view = two.1.tables.map view := by
  cases renamed with
  | unchanged => rfl
  | renamed names binds =>
    rw [binds.binding_eq, Binding.realias, List.map_map]
    exact List.map_congr_left fun table _ => (sees names table).symm

theorem tableIds : one.1.tableIds = two.1.tableIds := by
  rw [Binding.tableIds, Binding.tableIds, renamed.bound fun _ _ => rfl]

theorem columns : one.1.columns = two.1.columns := by
  rw [Binding.columns, Binding.columns, List.flatMap_def, List.flatMap_def, renamed.bound fun _ _ => rfl]

theorem alike_lower (schemas : Schemas) (guardsDoubles : Bool) (metadata : List RowMetadata) :
    Lowering.Alike (one.2.lower schemas guardsDoubles metadata one.1)
      (two.2.lower schemas guardsDoubles metadata two.1) Eq := by
  cases renamed with
  | unchanged => exact Lowering.alike_self (fun _ => rfl) _
  | renamed names binds => exact binds.alike_lower schemas guardsDoubles metadata

end Select.BoundRealiased

namespace Select.BoundRealiased

variable {parts others : List (Binding × Select)}
  (renamed : List.Forall₂ Select.BoundRealiased parts others)

include renamed

theorem read : (parts.map Prod.fst).flatMap Binding.tableIds =
    (others.map Prod.fst).flatMap Binding.tableIds := by
  rw [List.flatMap_map, List.flatMap_map, List.flatMap_def, List.flatMap_def,
    map_eq_of_forall₂ renamed fun _ _ part => part.tableIds]

theorem stored : (parts.map Prod.fst).flatMap Binding.columns =
    (others.map Prod.fst).flatMap Binding.columns := by
  rw [List.flatMap_map, List.flatMap_map, List.flatMap_def, List.flatMap_def,
    map_eq_of_forall₂ renamed fun _ _ part => part.columns]

theorem outputs (schemas : Schemas) :
    (Output.widen (parts.map fun part => part.2.describe schemas part.1)).map ColumnModel.unnamed =
      (Output.widen (others.map fun part => part.2.describe schemas part.1)).map ColumnModel.unnamed := by
  have each : (parts.map fun part => (part.2.describe schemas part.1).map ColumnModel.unnamed) =
      others.map fun part => (part.2.describe schemas part.1).map ColumnModel.unnamed :=
    map_eq_of_forall₂ renamed fun _ _ part => part.describe schemas
  rw [Output.unnamed_widen, Output.unnamed_widen, List.map_map, List.map_map]
  exact congrArg Output.widen each

end Select.BoundRealiased

namespace Compiler

open Lowering

variable (compiler : Compiler)

theorem alike_pageLast (rowsPerPage : Option UInt64) {parts others : List (Binding × Select)}
    (renamed : List.Forall₂ Select.BoundRealiased parts others) :
    Except.Alike (List.Forall₂ Select.BoundRealiased) (compiler.pageLast rowsPerPage parts)
      (compiler.pageLast rowsPerPage others) := by
  induction renamed with
  | nil => exact .ok .nil
  | @cons part other rest behind own listed ih =>
    cases listed with
    | nil =>
      obtain ⟨binding, part⟩ := part
      obtain ⟨binding', part'⟩ := other
      cases own with
      | unchanged => exact .refl (fun _ => List.forall₂_same.mpr fun _ _ => .unchanged) _
      | renamed names binds =>
        have window : part'.page = part.page.map (Page.requalify names) :=
          congrArg Select.page binds.part_eq
        simp only [pageLast]
        rw [window]
        apply Except.Alike.bind (Page.alike_within part.page _ _)
        rintro requested _ _ rfl
        apply Except.Alike.bind (Page.alike_capped requested _)
        rintro capped _ _ rfl
        exact .ok (.cons (.renamed names (binds.paged capped)) .nil)
    | cons second rest =>
      apply Except.Alike.bind ih
      intro paged others _ last
      exact .ok (.cons own last)

theorem alike_page (role : Role) (rowsPerPage : Option UInt64) {parts others : List (Binding × Select)}
    (renamed : List.Forall₂ Select.BoundRealiased parts others) :
    Except.Alike (List.Forall₂ Select.BoundRealiased) (compiler.page role rowsPerPage parts)
      (compiler.page role rowsPerPage others) := by
  cases role with
  | statement => exact alike_pageLast compiler rowsPerPage renamed
  | definition => exact .ok renamed

theorem alike_compileParts (role : Role) (description : IndexDescription) {one two : Query}
    (renamed : one.RealiasedParts two) (clause : one.commonTables = two.commonTables)
    {inner other : Option CompiledQuery}
    (inners : inner.map CompiledQuery.unnamed = other.map CompiledQuery.unnamed) :
    Alike (compiler.compileParts role description one inner)
      (compiler.compileParts role description two other) fun left right =>
        left.unnamed = right.unnamed := by
  have tables : inner.map CompiledQuery.tableIds = other.map CompiledQuery.tableIds := by
    have same := congrArg (Option.map CompiledQuery.tableIds) inners
    rwa [Option.map_map, Option.map_map] at same
  have aggregates : inner.map CompiledQuery.isAggregated = other.map CompiledQuery.isAggregated := by
    have same := congrArg (Option.map CompiledQuery.isAggregated) inners
    rwa [Option.map_map, Option.map_map] at same
  unfold compileParts
  rw [tables, aggregates]
  apply alike_after (Except.Alike.mapM renamed.parts fun _ _ part =>
    part.alike_bindTables compiler.schemas)
  intro parts others bound pairs
  have counted := (Except.forall₂_of_mapM bound).length_eq
  have aggregate : (parts.any fun part => part.2.isAggregate) =
      others.any fun part => part.2.isAggregate :=
    any_eq_of_forall₂ pairs fun _ _ part => part.isAggregate
  have described := Select.BoundRealiased.outputs pairs compiler.schemas
  dsimp only
  rw [Select.BoundRealiased.read pairs, aggregate]
  apply alike_after (.refl (fun _ => rfl) _)
  rintro metadata _ _ rfl
  generalize Output.widen (parts.map fun part => part.2.describe compiler.schemas part.1) = outputs
    at described ⊢
  generalize Output.widen (others.map fun part => part.2.describe compiler.schemas part.1) = outputs'
    at described ⊢
  have size : Size.ofRow outputs = Size.ofRow outputs' := by
    rw [← Size.ofRow_unnamed, described, Size.ofRow_unnamed]
  rw [size]
  apply alike_after (compiler.alike_page role _ pairs)
  intro paged others' paging pages
  apply alike_bind (alike_mapM pages fun _ _ part => part.alike_lower _ _ _)
  rintro lowered _ ⟨rfl, count⟩
  have parts_eq : one.withParts (lowered.map Prod.fst) = two.withParts (lowered.map Prod.fst) := by
    apply renamed.withParts clause
    rw [List.length_map, count, counted, (page_of_ok paging).length_eq]
  apply alike_pure
  simp only [CompiledQuery.unnamed, Output.unnamed_selectColumns, described, parts_eq,
    Select.BoundRealiased.stored pairs]
  congr 1
  -- What is left is the table that the query reads, if it is only one.
  clear described paging pages bound counted
  cases pairs with
  | nil => rfl
  | @cons part other rest behind own listed =>
    have ids : part.1.tables.map BoundTable.id = other.1.tables.map BoundTable.id :=
      own.bound fun _ _ => rfl
    obtain ⟨⟨tables⟩, _⟩ := part
    obtain ⟨⟨tables'⟩, _⟩ := other
    rcases tables with _ | ⟨table, _ | ⟨second, more⟩⟩
    all_goals rcases tables' with _ | ⟨table', _ | ⟨second', more'⟩⟩
    all_goals cases listed
    all_goals simp_all

/-- Renamed plans are compiled alike, the innermost query first. -/
theorem alike_compilePlan (role : Role) {one two : Plan} (renamed : one.Realiased two) :
    Alike (compiler.compilePlan role one) (compiler.compilePlan role two) fun left right =>
      left.unnamed = right.unnamed := by
  induction renamed generalizing role with
  | plain description clause other parts =>
    exact alike_compileParts compiler role description parts (clause.trans other.symm) rfl
  | @layered description name own opposite _ _ parts _ ih =>
    apply alike_bind (ih .definition)
    intro inner deeper same
    apply alike_after (CompiledQuery.alike_toCommonTable name same)
    rintro element _ _ rfl
    have changed : Query.RealiasedParts { own with commonTables := some [element] }
        { opposite with commonTables := some [element] } := ⟨parts.first, parts.unions⟩
    exact alike_compileParts compiler role description changed rfl (congrArg some same)

/-- The statement of a query does not depend on the aliases of its tables, the names of columns apart. -/
theorem aliases_only_names (compiler : Compiler) (query renamed : Query) (realiased : query.Realiased renamed) :
    Except.Alike (fun statement other => statement.unnamed = other.unnamed) (compiler.compileQuery query)
      (compiler.compileQuery renamed) := by
  have plans : Except.Alike Plan.Realiased
      (Plan.ofStatement compiler.lookup compiler.context compiler.start compiler.description query)
      (Plan.ofStatement compiler.lookup compiler.context compiler.start compiler.description renamed) := by
    apply Except.Alike.bind (.refl (fun _ => rfl) _)
    rintro entered _ _ rfl
    exact Plan.alike_layOut _ _ entered _ query renamed realiased
  rw [compileQuery_eq, compileQuery_eq]
  apply Except.Alike.bind plans
  intro plan other _ shapes
  obtain ⟨states, outcomes⟩ := alike_compilePlan compiler .statement shapes { context := compiler.start }
  unfold Statement.ofRun
  rw [states]
  apply Except.Alike.bind outcomes
  intro compiled compiled' _ same
  exact .ok (congrArg (Statement.mk · _) same)

def exchangedQuery : Query :=
  { unitedQuery with first := unitedQuery.first.realias (.of [("a", "b"), ("b", "a")]) }

/-- Two aliases are exchanged; the other parts keep theirs. -/
theorem aliases_only_names_exchanged :
    exchangedQuery.text = "SELECT b.foo FROM syn5 b JOIN syn2 a ON b.foo = a.foo " ++
        "UNION ALL SELECT * FROM syn1 UNION SELECT a.foo FROM syn2 a JOIN syn2 b ON a.foo = b.foo" ∧
      ∃ statement other, builtCompiler.compileQuery unitedQuery = .ok statement ∧
        builtCompiler.compileQuery exchangedQuery = .ok other ∧ statement.unnamed = other.unnamed := by
  have suits : (Renaming.of [("a", "b"), ("b", "a")]).Suits unitedQuery.first :=
    Renaming.suits_of (Renaming.renames_of (by decide) (by decide) (by decide)) (by decide) (by decide)
      (by decide)
  have realiased : unitedQuery.Realiased exchangedQuery :=
    .mk .none ⟨.renamed _ suits, (Query.RealiasedParts.refl unitedQuery).unions⟩
  obtain ⟨statement, compiled, _⟩ : ∃ statement, builtCompiler.compileQuery unitedQuery = .ok statement ∧
      True := compiles_within 1 (by decide +kernel)
  obtain ⟨other, recompiled, same⟩ :=
    (aliases_only_names builtCompiler unitedQuery exchangedQuery realiased).of_ok compiled
  exact ⟨by decide +kernel, statement, other, compiled, recompiled, same⟩

/-- An object over tables with one column of the same name. -/
def aliasedCompiler (description : IndexDescription) (context : SqlContext) : Compiler where
  schemas :=
    let columns : List ColumnModel := [{ id := some 1, name := "foo", type := .string, maxSize := some 50 }]
    (((({} : Catalog).addTable ⟨1, none⟩ columns).addTable ⟨2, none⟩ columns).addTable ⟨9, none⟩
      columns).schemas
  description
  lookup := [.table ⟨1, none⟩]
  userId := 1
  context

/-- `SELECT a.foo FROM syn9 a DEFINING_WHERE a.foo = 'x'` -/
def definedPart : Select :=
  let column : Expr := .column ⟨some ⟨"a", none⟩, ⟨"foo", none⟩⟩
  { Select.simple (.items [⟨column, none⟩]) (.table ⟨"syn9", some ⟨"a", none⟩⟩) with
    definingFilter := some (.equals column (.literal (.string "x"))) }

/-- `SELECT z.foo FROM syn1 a` -/
def strayPart : Select :=
  Select.simple (.items [⟨.column ⟨some ⟨"z", none⟩, ⟨"foo", none⟩⟩, none⟩])
    (.table ⟨"syn1", some ⟨"a", none⟩⟩)

/-- `SELECT syn2.foo FROM syn1 syn2 JOIN syn2 ON TRUE` -/
def sharedPart : Select :=
  Select.simple (.items [⟨.column ⟨some ⟨"syn2", none⟩, ⟨"foo", none⟩⟩, none⟩])
    (.join (.table ⟨"syn1", some ⟨"syn2", none⟩⟩) .join ⟨"syn2", none⟩ (.literal (.boolean true)))

/-- `SELECT * FROM syn1 syn2 JOIN syn2 ON TRUE` -/
def starredPart : Select := { sharedPart with projection := .all }

/-- Four renamings that only give new names, and still make a difference. The qualifiers of a condition on a
defining query name the tables of that query. A qualifier that names no table gets one if it is the new
alias. A qualifier that names both an alias and a table without alias names one of them afterwards, be it
written or that of a star. -/
theorem aliases_seen_by_qualifiers :
    ((Renaming.of [("a", "b")]).Renames definedPart ∧
      (∃ statement, (aliasedCompiler (.virtualTable ⟨9, none⟩ "select foo from syn1 a") .query).compileQuery
        (.single definedPart) = .ok statement ∧ statement.text =
          "WITH T9 (_C1_) AS (SELECT _C1_ FROM T1 WHERE _C1_ = :b0) SELECT _C1_ FROM T9") ∧
      (aliasedCompiler (.virtualTable ⟨9, none⟩ "select foo from syn1 a") .query).compileQuery
        (.single { definedPart.realias (.of [("a", "b")]) with
          definingFilter := definedPart.definingFilter.map (Expr.requalify (.of [("a", "b")])) }) =
            .error (.columnDoesNotExist "b.foo")) ∧
    ((Renaming.of [("a", "z")]).Renames strayPart ∧
      (aliasedCompiler (.table ⟨1, none⟩) .query).compileQuery (.single strayPart) =
        .error (.columnDoesNotExist "z.foo") ∧
      ∃ statement, (aliasedCompiler (.table ⟨1, none⟩) .query).compileQuery
        (.single (strayPart.realias (.of [("a", "z")]))) = .ok statement ∧
          statement.text = "SELECT _C1_, ROW_ID, ROW_VERSION FROM T1") ∧
    ((Renaming.of [("syn2", "b")]).Renames sharedPart ∧
      (aliasedCompiler (.materializedView ⟨9, none⟩ []) .build).compileQuery (.single sharedPart) =
        .error (.ambiguousColumn "syn2.foo") ∧
      ∃ statement, (aliasedCompiler (.materializedView ⟨9, none⟩ []) .build).compileQuery
        (.single (sharedPart.realias (.of [("syn2", "b")]))) = .ok statement ∧
          statement.text = "SELECT _A0._C1_ FROM T1 _A0 JOIN T2 _A1 ON TRUE") ∧
    ((Renaming.of [("syn2", "b")]).Renames starredPart ∧
      (aliasedCompiler (.materializedView ⟨9, none⟩ []) .build).compileQuery (.single starredPart) =
        .error (.ambiguousColumn "syn2.foo") ∧
      ∃ statement, (aliasedCompiler (.materializedView ⟨9, none⟩ []) .build).compileQuery
        (.single (starredPart.realias (.of [("syn2", "b")]))) = .ok statement ∧
          statement.text = "SELECT _A0._C1_, _A1._C1_ FROM T1 _A0 JOIN T2 _A1 ON TRUE") := by
  refine ⟨⟨Renaming.renames_of (by decide) (by decide) (by decide), ?_, ?_⟩,
    ⟨Renaming.renames_of (by decide) (by decide) (by decide), ?_, ?_⟩,
    ⟨Renaming.renames_of (by decide) (by decide) (by decide), ?_, ?_⟩,
    ⟨Renaming.renames_of (by decide) (by decide) (by decide), ?_, ?_⟩⟩
  · exact compiles_within 2 (by decide +kernel)
  · exact refuses_within 2 (by decide +kernel)
  · exact refuses_within 1 (by decide +kernel)
  · exact compiles_within 1 (by decide +kernel)
  · exact refuses_within 1 (by decide +kernel)
  · exact compiles_within 1 (by decide +kernel)
  · exact refuses_within 1 (by decide +kernel)
  · exact compiles_within 1 (by decide +kernel)

end Compiler

end TabularSql
