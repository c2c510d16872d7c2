import TabularSql.Proofs.Lowering.Notes
import TabularSql.Proofs.Lowering.References
import TabularSql.Proofs.Lowering.Stars

/-!
# Qualifiers of a FROM clause

A FROM clause exposes each of its tables under its alias, or under its name if it has no alias. The tables of
a join are numbered, so they are told apart even if one table is joined to itself. The side tables of list
columns follow without an alias, one for each list column that the part reads, where the same column of a table
that is joined twice counts as two. The main result says when the exposed names are distinct, and that every
qualifier in a part is one of them.
-/

namespace TabularSql

set_option autoImplicit false

/-! ## Exposed names -/

namespace Physical

/-- The first sign of a side table that no other table has is behind the name of the table. -/
theorem sideTable_chars (owner : TableId) (id : ColumnId) : (sideTable owner id).toList =
    ((table owner).toList ++ ['_']) ++ 'I' :: ("NDEX_C".toList ++ Nat.toDigits 10 id.toNat ++ ['_']) := by
  simp [sideTable, Number.decimal]

theorem sideTable_injective {first second : TableId} {one two : ColumnId}
    (same : sideTable first one = sideTable second two) : first = second ∧ one = two := by
  have before (owner : TableId) (rest : List Char) :
      (((table owner).toList ++ ['_']) ++ 'I' :: rest).takeWhile (fun char => char != 'I') =
        (table owner).toList ++ ['_'] := by
    have other : ∀ char ∈ (table owner).toList ++ ['_'], (char != 'I') = true := by
      intro char member
      have digit {value : Nat} (digits : char ∈ Nat.toDigits 10 value) : char ≠ 'I' := by
        rintro rfl
        exact absurd (isDigit_of_mem digits) (by decide)
      rw [table_chars] at member
      cases version : owner.version <;> simp [version] at member <;> grind
    rw [List.takeWhile_append_of_pos other]
    simp
  have chars := congrArg String.toList same
  rw [sideTable_chars, sideTable_chars] at chars
  have fronts := congrArg (List.takeWhile fun char => char != 'I') chars
  rw [before, before] at fronts
  have names : table first = table second := String.toList_inj.mp (List.append_cancel_right fronts)
  have digits : Nat.toDigits 10 one.toNat = Nat.toDigits 10 two.toNat := by
    have behind := List.append_cancel_left (fronts ▸ chars)
    simpa using behind
  exact ⟨table_injective names, UInt64.toNat_inj.mp (Number.toDigits_injective digits)⟩

theorem correlation_injective {one two : Nat} (same : correlation one = correlation two) : one = two := by
  have chars := congrArg String.toList same
  apply Number.toDigits_injective
  simpa [correlation, Number.decimal] using chars

theorem correlation_ne_sideTable (index : Nat) (owner : TableId) (id : ColumnId) :
    correlation index ≠ sideTable owner id := by
  intro same
  have chars := congrArg String.toList same
  rw [sideTable_chars, table_chars] at chars
  simp [correlation] at chars

end Physical

/-- The names under which the clause exposes its tables. -/
def Source.exposed (source : Source) : List String := source.tables.map TableName.qualifierName

namespace Binding

variable {schemas : Schemas} {source : Source} {binding : Binding}

theorem exposed_tables (ok : ofSource schemas source = .ok binding) :
    ((binding.tables.map BoundTable.physicalName).map TableName.qualifierName).Nodup := by
  rw [List.map_map]
  cases join : source.isJoin with
  | false =>
    cases source with
    | join => cases join
    | table only =>
      have one := length_tables ok
      obtain ⟨single, only⟩ := List.length_eq_one_iff.mp one
      rw [only]
      exact List.nodup_singleton _
  | true =>
    have numbered : source.tables.zipIdx.map (fun pair => Physical.correlation pair.2) =
        binding.tables.map (TableName.qualifierName ∘ BoundTable.physicalName) := by
      apply map_eq_of_forall₂ (forall₂_of_ofSource ok)
      intro pair bound binds
      have correlation := (bound_of_bindTable binds).2.2.1
      rw [join, if_pos rfl] at correlation
      simp [BoundTable.physicalName, TableName.qualifierName, correlation]
    have indices : source.tables.zipIdx.map (fun pair => Physical.correlation pair.2) =
        (List.range' 0 source.tables.length).map Physical.correlation := by
      rw [← List.zipIdx_map_snd 0 source.tables, List.map_map]
      rfl
    rw [← numbered, indices]
    exact (List.nodup_range' 1 Nat.one_pos).map fun _ _ => Physical.correlation_injective

/-- No table of the clause is exposed under the name of a side table. -/
theorem exposed_ne_sideTable (ok : ofSource schemas source = .ok binding) {bound : BoundTable}
    (member : bound ∈ binding.tables) (column : ListColumn) :
    bound.physicalName.qualifierName ≠ column.sideTable := by
  have correlation : ∀ bound ∈ binding.tables, bound.correlation = none ∨
      ∃ index, bound.correlation = some (Physical.correlation index) := by
    refine forall₂_right (forall₂_of_ofSource ok) fun pair _ bound binds => ?_
    rw [(bound_of_bindTable binds).2.2.1]
    split
    · exact .inr ⟨_, rfl⟩
    · exact .inl rfl
  rcases correlation bound member with alone | ⟨index, numbered⟩
  · rw [TableName.qualifierName, BoundTable.physicalName, alone]
    exact Physical.table_ne_sideTable _ _ _
  · rw [TableName.qualifierName, BoundTable.physicalName, numbered]
    exact Physical.correlation_ne_sideTable _ _ _

end Binding

/-! ## Side tables -/

/-- The elements of the list column are read somewhere in the clauses of the part. -/
def Select.Unnests (schemas : Schemas) (part : Select) (column : ListColumn) : Prop :=
  ∃ binding reference, Binding.ofSource schemas part.source = .ok binding ∧
    reference.listColumn { schemas, binding } .unnest = .ok column ∧
    ∃ expr ∈ part.clauses, Fragment.Within (.expr (.unnest reference)) (.expr expr)

/-- Columns that are read through the same side table are the same column, of the same table of the clause. -/
def Select.UnnestsApart (schemas : Schemas) (part : Select) : Prop :=
  ∀ one two, part.Unnests schemas one → part.Unnests schemas two →
    one.table = two.table → one.id = two.id → one = two

namespace Lowering

theorem mem_noteUnnested {column other : ListColumn} {state after : LoweringState} {value : Unit}
    (ran : (noteUnnested other).run state = (.ok value, after)) :
    column ∈ after.unnested ↔ column ∈ state.unnested ∨ column = other := by
  cases ran
  show column ∈ (if other ∈ state.unnested then state
    else { state with unnested := state.unnested ++ [other] }).unnested ↔ _
  split
  · next known =>
      refine ⟨.inl, ?_⟩
      rintro (before | rfl)
      · exact before
      · exact known
  · simp

theorem tracks_unnested (scope : Scope) (column : ListColumn) :
    Tracks scope (fun state => column ∈ state.unnested) fun whole =>
      ∃ reference, reference.listColumn scope .unnest = .ok column ∧ whole = .unnest reference := by
  have search : ∀ occurs, ¬ occurs → Notes (fun state => column ∈ state.unnested) noteSearch occurs := by
    intro occurs never
    apply notes_nothing never
    intro state value after ran
    cases ran
    exact Iff.rfl
  refine ⟨fun _ _ => Iff.rfl, fun _ => search _ (by simp), fun _ => search _ (by simp), ?_, ?_⟩
  · intro reference other listed state value after ran
    apply (mem_noteUnnested ran).trans
    apply or_congr_right
    constructor
    · rintro rfl
      exact ⟨reference, listed, rfl⟩
    · rintro ⟨_, own, same⟩
      cases same
      rw [listed] at own
      exact (Except.ok.inj own).symm
  · rintro whole ⟨reference, _, rfl⟩
    trivial

theorem carried_distinct (scope : Scope) :
    Carried scope (fun state => state.unnested.Nodup) fun _ => True where
  context := fun _ _ distinct => distinct
  search := fun _ distinct => distinct
  kept := fun _ _ _ => trivial
  rows := fun _ _ _ _ _ _ _ => trivial
  unnest := by
    intro reference position
    apply keeps_bind (keeps_lift fun _ _ => trivial)
    intro column _
    refine keeps_bind (keeps_modify fun state distinct => ?_) fun _ _ => keeps_pure trivial
    split
    · exact distinct
    · next fresh => exact List.nodup_append.mpr ⟨distinct, List.nodup_singleton _, by grind⟩
  doubleTest := fun _ => trivial

section

variable {schemas : Schemas} {guardsDoubles : Bool} {metadata : List RowMetadata} {binding : Binding}
  {part : Select} {result : Select × Bool} {state after : LoweringState}

theorem distinct_of_lower
    (ran : (part.lower schemas guardsDoubles metadata binding).run state = (.ok result, after)) :
    after.unnested.Nodup := by
  obtain ⟨_, _, ran_reset, ran⟩ := run_bind ran
  cases ran_reset
  obtain ⟨items, _, ran_items, ran⟩ := run_bind ran
  obtain ⟨source, _, ran_source, ran⟩ := run_bind ran
  obtain ⟨filter, _, ran_filter, ran⟩ := run_bind ran
  obtain ⟨groupBy, _, ran_groupBy, ran⟩ := run_bind ran
  obtain ⟨orderBy, _, ran_orderBy, ran⟩ := run_bind ran
  obtain ⟨page, _, ran_page, ran⟩ := run_bind ran
  obtain ⟨last, _, ran_last, ran⟩ := run_bind ran
  cases ran_last
  cases ran
  have each (expr : Expr) (position : Position) :
      Keeps (fun state => state.unnested.Nodup)
        (expr.lower { schemas, binding, guardsDoubles, aliases := part.aliases } position) fun _ => True :=
    keeps_lower (carried_distinct _) (fun _ _ _ _ => keeps_lift fun _ _ => trivial) position
      fun _ => trivial
  have item (item : SelectItem) : Keeps (fun state => state.unnested.Nodup)
      (item.lower { schemas, binding, guardsDoubles, aliases := part.aliases }) fun _ => True :=
    keeps_bind (each item.expr .select) fun _ _ => keeps_pure trivial
  have first := (keeps_mapM (fun given _ => item given) _ _ _ List.nodup_nil ran_items).1
  have second := (keeps_conditions _ (fun expr _ => each expr _) _ _ _ first ran_source).1
  have third := (keeps_lowerOption (fun expr _ => each expr _) _ _ _ second ran_filter).1
  have fourth := (keeps_lowerAll (fun expr _ => each expr _) _ _ _ third ran_groupBy).1
  have fifth := (keeps_mapM (fun (key : SortKey) _ => keeps_key (each key.expr .sort)) _ _ _ fourth
    ran_orderBy).1
  have window (page : Page) : Keeps (fun state => state.unnested.Nodup) page.lower fun lowered =>
      ∀ expr ∈ lowered.exprs, True := keeps_page page (fun _ _ distinct => distinct) fun _ => trivial
  exact (keeps_optional (fun page _ => window page) _ _ _ fifth ran_page).1

/-- The list columns that are brought in are those whose elements are read. -/
theorem unnested_of_lower {logical : Select} (boundAs : logical.BoundAs schemas (binding, part))
    (undefined : logical.definingFilter = none)
    (ran : (part.lower schemas guardsDoubles metadata binding).run state = (.ok result, after))
    (column : ListColumn) : column ∈ after.unnested ↔ logical.Unnests schemas column := by
  have plain : { part with definingFilter := none : Select } = part := by
    have none : part.definingFilter = .none := boundAs.definingFilter.trans undefined
    cases part
    cases none
    rfl
  have noted := noted_of_lower (tracks_unnested _ column) (by simp) ran
  rw [plain] at noted
  apply noted.trans
  constructor
  · rintro ⟨expr, member, _, ⟨reference, listed, rfl⟩, within⟩
    rcases boundAs.clauses.2 expr member with own | ⟨qualifier, name, rfl⟩
    · exact ⟨binding, reference, boundAs.1, listed, expr, own, within⟩
    · cases within with
      | deeper inside => simp [Fragment.inside] at inside
  · rintro ⟨own, reference, binds, listed, expr, member, within⟩
    cases boundAs.1.symm.trans binds
    exact ⟨expr, boundAs.clauses.1 expr member, _, ⟨reference, listed, rfl⟩, within⟩

end

end Lowering

/-! ## Parts -/

def ColumnRef.QualifiedBy (names : List String) (reference : ColumnRef) : Prop :=
  ∀ qualifier ∈ reference.qualifier, qualifier.name ∈ names

namespace ColumnRef

variable {names : List String}

theorem qualifiedBy_plain {qualifier : Option String} {name : String}
    (known : ∀ own ∈ qualifier, own ∈ names) : (plain qualifier name).QualifiedBy names := by
  intro own given
  obtain ⟨written, same, rfl⟩ := Option.map_eq_some_iff.mp given
  exact known written same

theorem qualifiedBy_bare (name : Identifier) : QualifiedBy names ⟨none, name⟩ := by
  intro own given
  cases given

end ColumnRef

open ColumnRef (qualifiedBy_plain qualifiedBy_bare)

section

variable {names : List String} {scope : Scope}
  (exposed : ∀ bound ∈ scope.binding.tables, ∀ name ∈ bound.correlation, name ∈ names)

include exposed

theorem ResolvedColumn.qualifiedBy {reference : ColumnRef} {resolved : ResolvedColumn}
    (resolves : scope.binding.resolve reference = .ok (some resolved)) (name : String) :
    (ColumnRef.plain resolved.qualifier name).QualifiedBy names :=
  qualifiedBy_plain (exposed resolved.table (Binding.resolve_table resolves).1)

/-- Columns of the store are qualified by the name of their table. -/
theorem ColumnRef.LowersTo.refers {position : Position} {reference : ColumnRef} {lowered : Expr}
    (lowers : reference.LowersTo scope position lowered) :
    (Fragment.expr lowered).Refers (ColumnRef.QualifiedBy names) := by
  cases lowers with
  | @physical resolved found =>
    rw [Fragment.refers_column, ResolvedColumn.physical]
    split <;> exact ResolvedColumn.qualifiedBy exposed found _
  | @guarded resolved column found stored double =>
    have own (name : String) := ResolvedColumn.qualifiedBy exposed found name
    simp [Physical.guardedDouble, Physical.shadowExpr, Physical.columnRef, Fragment.refers_form,
      Fragment.refers_column, own]
  | unresolved nothing kept =>
    cases kept with
    | delimited => exact Fragment.refers_column.mpr (qualifiedBy_bare _)
    | named bare =>
      rw [Fragment.refers_column]
      intro own given
      rw [bare] at given
      cases given

theorem DoubleTest.refers {test : DoubleTest} {reference : ColumnRef} {lowered : Expr}
    (ok : test.lower scope reference = .ok lowered) :
    (Fragment.expr lowered).Refers (ColumnRef.QualifiedBy names) := by
  obtain ⟨resolved, stored, resolves, _, _, rfl | rfl⟩ := DoubleTest.lower_of_ok ok
  all_goals
    have own (name : String) := ResolvedColumn.qualifiedBy exposed resolves name
    simp [Physical.nanTest, Physical.infinityTest, Physical.shadowExpr, Expr.and, Expr.equals, Expr.string,
      Fragment.refers_form, Fragment.refers_column, own]

/-- Every qualifier that a lowered expression has at any depth is that of a bound table. -/
theorem Expr.Arises.qualified {whole lowered : Expr}
    (arises : Arises scope (fun _ result => (Fragment.expr result).Refers (ColumnRef.QualifiedBy names)) whole
      lowered) : (Fragment.expr lowered).Refers (ColumnRef.QualifiedBy names) := by
  refine arises.refers ?_ ?_ ?_ ?_ ?_
  · exact fun _ _ _ own => own.refers exposed
  · exact fun _ _ _ own => DoubleTest.refers exposed own
  · rintro list ⟨bound, member, _, qualifier, _⟩
    rw [qualifier]
    exact qualifiedBy_plain (exposed bound member)
  · exact fun _ name _ => qualifiedBy_bare ⟨name, none⟩
  · exact fun _ _ _ own => own

end

namespace Select.LoweredAs

open Lowering

variable {schemas : Schemas} {guardsDoubles : Bool} {metadata : List RowMetadata} {known : List TableId}
  {part lowered : Select}

/-- The exposed names are those of the bound tables, then one for each list column that the part reads. -/
theorem exposed (lowers : part.LoweredAs schemas guardsDoubles metadata known lowered)
    (undefined : part.definingFilter = none) :
    ∃ binding, ∃ columns : List ListColumn, Binding.ofSource schemas part.source = .ok binding ∧
      columns.Nodup ∧ (∀ column, column ∈ columns ↔ part.Unnests schemas column) ∧
      lowered.source.exposed = (binding.tables.map BoundTable.physicalName).map TableName.qualifierName ++
        columns.map ListColumn.sideTable := by
  obtain ⟨⟨binding, bound⟩, searches, start, stop, boundAs, _, ran⟩ := lowers
  have binds : Binding.ofSource schemas bound.source = .ok binding := by
    obtain ⟨binds, projection, page, rfl, _⟩ := boundAs
    exact binds
  refine ⟨binding, stop.unnested, boundAs.1, distinct_of_lower ran, unnested_of_lower boundAs undefined ran, ?_⟩
  rw [Source.exposed, (notes_of_lower ran).2, Binding.tables_lowerTables binds, List.map_append, List.map_map,
    List.map_map]
  rfl

/-- The exposed names are distinct exactly if no side table is brought in twice. -/
theorem nodup_exposed (lowers : part.LoweredAs schemas guardsDoubles metadata known lowered)
    (undefined : part.definingFilter = none) : lowered.source.exposed.Nodup ↔ part.UnnestsApart schemas := by
  obtain ⟨binding, columns, binds, distinct, unnests, exposes⟩ := lowers.exposed undefined
  have apart : ∀ name ∈ (binding.tables.map BoundTable.physicalName).map TableName.qualifierName,
      ∀ side ∈ columns.map ListColumn.sideTable, name ≠ side := by
    simp only [List.forall_mem_map]
    intro bound member column _
    exact Binding.exposed_ne_sideTable binds member column
  rw [exposes, List.nodup_append, and_iff_right (Binding.exposed_tables binds), and_iff_left apart,
    List.nodup_map_iff_inj_on distinct]
  constructor
  · intro injective one two first second table id
    refine injective one ((unnests one).mpr first) two ((unnests two).mpr second) ?_
    rw [ListColumn.sideTable, ListColumn.sideTable, table, id]
  · intro unnestsApart one first two second same
    obtain ⟨table, id⟩ := Physical.sideTable_injective same
    exact unnestsApart one two ((unnests one).mp first) ((unnests two).mp second) table id

theorem qualified (lowers : part.LoweredAs schemas guardsDoubles metadata known lowered)
    (undefined : part.definingFilter = none) :
    ∀ expr ∈ lowered.exprs, (Fragment.expr expr).Refers (ColumnRef.QualifiedBy lowered.source.exposed) := by
  obtain ⟨own, columns, binds, _, _, exposes⟩ := lowers.exposed undefined
  obtain ⟨⟨binding, bound⟩, searches, start, stop, boundAs, _, ran⟩ := lowers
  obtain rfl : binding = own := Except.ok.inj (boundAs.1.symm.trans binds)
  have named : ∀ table ∈ binding.tables, table.physicalName.qualifierName ∈ lowered.source.exposed := by
    intro table member
    rw [exposes]
    exact List.mem_append_left _ (List.mem_map_of_mem (List.mem_map_of_mem member))
  have correlated : ∀ table ∈ binding.tables, ∀ name ∈ table.correlation, name ∈ lowered.source.exposed := by
    intro table member name given
    have exposed := named table member
    rwa [BoundTable.physicalName, given] at exposed
  have becomes := (@keeps_select start.context.userId
    (fun _ result => (Fragment.expr result).Refers (ColumnRef.QualifiedBy lowered.source.exposed))
    schemas guardsDoubles metadata binding bound
    (fun scope _ same whole result becomes => becomes.arises.qualified (by rwa [same])) start _ stop rfl ran).2
  intro expr member
  rcases becomes.exprs (boundAs.definingFilter.trans undefined) member with ⟨_, _, own⟩ | ⟨column, _, rfl⟩ |
    ⟨column, ⟨table, among, id, qualifier, _⟩, joined, rfl⟩ | ⟨index, rfl⟩
  · exact own
  · exact column.refers (fun table among _ => qualifiedBy_plain (correlated table among))
      fun name => qualifiedBy_bare ⟨name.text, none⟩
  · have owner : column.owner ∈ lowered.source.exposed := by
      have exposed := named table among
      rw [ListColumn.owner, qualifier, id]
      rw [BoundTable.physicalName] at exposed
      cases correlation : table.correlation <;> simpa [correlation, TableName.qualifierName] using exposed
    have side : column.sideTable ∈ lowered.source.exposed := List.mem_map_of_mem joined
    exact column.refers_joined (qualifiedBy_plain (by simpa using owner)) (qualifiedBy_plain (by simpa using side))
  · exact Fragment.refers_leaf (by simp) rfl

end Select.LoweredAs

/-! ## Statements -/

namespace Compiler

open Lowering

/-- The FROM clauses of a statement. In every part of the statement and of its common tables, the exposed
names are distinct exactly if list columns that are read through one side table are one column of one table of
the clause. In any case every qualifier in the part, at any depth, is one of the exposed names. -/
theorem exposed_names_of_parts (compiler : Compiler) (query : Query) (statement : Statement)
    (compiled : compiler.compileQuery query = .ok statement) :
    ∃ plan, Plan.ofStatement compiler.lookup compiler.context compiler.start compiler.description
        query = .ok plan ∧
      plan.Lowers (fun part lowered =>
        (lowered.source.exposed.Nodup ↔ part.UnnestsApart compiler.schemas) ∧
        ∀ reference, Fragment.Within (.expr (.column reference)) (.select lowered) →
          ∀ qualifier ∈ reference.qualifier, qualifier.name ∈ lowered.source.exposed)
        statement.compiled.query := by
  obtain ⟨plan, state, laid, ran⟩ := run_of_compileQuery compiled
  refine ⟨plan, laid, related_compilePlan (Plan.definingFilter_ofStatement laid) ?_ ran⟩
  intro guardsDoubles metadata tables part lowered _ undefined lowers
  refine ⟨lowers.nodup_exposed undefined, fun reference within => ?_⟩
  cases within with
  | deeper member deeper =>
    obtain ⟨expr, listed, rfl⟩ := List.mem_map.mp member
    exact lowers.qualified undefined expr listed _ deeper reference rfl

def sidedCompiler : Compiler where
  schemas :=
    let columns : List ColumnModel := [{ id := some 1, name := "foo", type := .string, maxSize := some 50 },
      { id := some 2, name := "tags", type := .stringList, maxSize := some 50, maxListLength := some 5 }]
    ((({} : Catalog).addTable ⟨1, none⟩ columns).addTable ⟨2, none⟩ columns).schemas
  description := .materializedView ⟨9, none⟩ [.table ⟨1, none⟩, .table ⟨2, none⟩]
  userId := 1
  context := .build

/-- `SELECT UNNEST(a.tags), UNNEST(b.tags) FROM syn1 a JOIN .. b ON a.foo = b.foo` -/
def sidedQuery (other : String) : Query :=
  let column (table name : String) : ColumnRef := ⟨some ⟨table, none⟩, ⟨name, none⟩⟩
  .single (Select.simple
    (.items [⟨.unnest (column "a" "tags"), none⟩, ⟨.unnest (column "b" "tags"), none⟩])
    (.join (.table ⟨"syn1", some ⟨"a", none⟩⟩) .join ⟨other, some ⟨"b", none⟩⟩
      (.equals (.column (column "a" "foo")) (.column (column "b" "foo")))))

theorem exposed_names_of_parts_joined :
    ∃ statement, sidedCompiler.compileQuery (sidedQuery "syn2") = .ok statement ∧
      statement.text = "SELECT _C2__UNNEST, _C2__UNNEST FROM T1 _A0 JOIN T2 _A1 ON _A0._C1_ = _A1._C1_ " ++
        "LEFT JOIN T1_INDEX_C2_ ON _A0.ROW_ID = T1_INDEX_C2_.ROW_ID_REF_C2_ " ++
        "LEFT JOIN T2_INDEX_C2_ ON _A1.ROW_ID = T2_INDEX_C2_.ROW_ID_REF_C2_" ∧
      (sidedQuery "syn2").first.UnnestsApart sidedCompiler.schemas ∧
      ∀ reference,
        Fragment.Within (.expr (.column reference)) (.select statement.compiled.query.first) →
          ∀ qualifier ∈ reference.qualifier,
            qualifier.name ∈ ["_A0", "_A1", "T1_INDEX_C2_", "T2_INDEX_C2_"] := by
  obtain ⟨statement, compiled, text, exposed⟩ : ∃ statement,
      sidedCompiler.compileQuery (sidedQuery "syn2") = .ok statement ∧
      statement.text = "SELECT _C2__UNNEST, _C2__UNNEST FROM T1 _A0 JOIN T2 _A1 ON _A0._C1_ = _A1._C1_ " ++
        "LEFT JOIN T1_INDEX_C2_ ON _A0.ROW_ID = T1_INDEX_C2_.ROW_ID_REF_C2_ " ++
        "LEFT JOIN T2_INDEX_C2_ ON _A1.ROW_ID = T2_INDEX_C2_.ROW_ID_REF_C2_" ∧
      statement.compiled.query.first.source.exposed = ["_A0", "_A1", "T1_INDEX_C2_", "T2_INDEX_C2_"] :=
    compiles_within 1 (by decide +kernel)
  obtain ⟨plan, laid, lowers⟩ := exposed_names_of_parts sidedCompiler (sidedQuery "syn2") statement compiled
  cases laid.symm.trans (Plan.layOut_plain rfl rfl)
  cases lowers.2 with
  | cons own _ =>
    rw [exposed] at own
    exact ⟨statement, compiled, text, own.1.mp (by decide), own.2⟩

/-- The same list of a table that is joined to itself: its side table is joined twice under one name. -/
theorem side_table_exposed_twice :
    ∃ statement, sidedCompiler.compileQuery (sidedQuery "syn1") = .ok statement ∧
      statement.text = "SELECT _C2__UNNEST, _C2__UNNEST FROM T1 _A0 JOIN T1 _A1 ON _A0._C1_ = _A1._C1_ " ++
        "LEFT JOIN T1_INDEX_C2_ ON _A0.ROW_ID = T1_INDEX_C2_.ROW_ID_REF_C2_ " ++
        "LEFT JOIN T1_INDEX_C2_ ON _A1.ROW_ID = T1_INDEX_C2_.ROW_ID_REF_C2_" ∧
      ¬ statement.compiled.query.first.source.exposed.Nodup := by
  exact compiles_within 1 (by decide +kernel)

end Compiler

end TabularSql
