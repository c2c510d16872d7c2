import TabularSql.Proofs.Fragment
import TabularSql.Proofs.Lowering.Steps
import TabularSql.Statement.Compile

/-!
# Plans and their queries

What preparing a query can do to it, which queries a plan holds, what the steps of compilation do to the
parts of a query before they are lowered, and what a compiled query and a statement were compiled from.
-/

namespace TabularSql

set_option autoImplicit false

/-! ## Preparing a query -/

namespace IndexDescription

variable {prepared : Query} {description : IndexDescription}

/-- A query over a virtual table is one part over one table without a WITH clause. It reads the defining
query, narrowed, under the name of the table. -/
theorem prepare_virtual_iff {id : TableId} {text : String} {query : Query} :
    (virtualTable id text).prepare query = .ok prepared ↔
      query.unions = [] ∧ query.first.source.isJoin = false ∧ query.commonTables = none ∧
        ∃ defining narrowed, Query.parse text = .ok defining ∧
          narrow defining query.first.definingFilter = .ok narrowed ∧
          prepared = { query with
            commonTables := some [⟨⟨Physical.table id, none⟩, [], narrowed⟩]
            first := { query.first with definingFilter := none } } := by
  have guard {test : Bool} {problem : CompileError} {next : Except CompileError Query} :
      (if test then throw problem >>= fun _ : PUnit => next else next) = .ok prepared ↔
        test = false ∧ next = .ok prepared := by
    cases test with
    | true => exact ⟨nofun, nofun⟩
    | false => exact ⟨fun given => ⟨rfl, given⟩, fun given => given.2⟩
  show expandQuery id text query = .ok prepared ↔ _
  unfold expandQuery
  rw [guard, guard, guard]
  refine and_congr (by simp [Query.isUnion]) (and_congr_right fun _ => and_congr (by simp) ?_)
  constructor
  · intro ok
    obtain ⟨defining, parsed, ok⟩ := Except.of_bind ok
    obtain ⟨narrowed, narrows, ok⟩ := Except.of_bind ok
    cases ok
    exact ⟨defining, narrowed, Except.of_mapError parsed, narrows, rfl⟩
  · rintro ⟨defining, narrowed, parsed, narrows, rfl⟩
    rw [parsed]
    show (narrow defining query.first.definingFilter >>= _) = _
    rw [narrows]
    rfl

theorem prepare_virtual {id : TableId} {text : String} {query : Query}
    (ok : (virtualTable id text).prepare query = .ok prepared) :
    ∃ defining narrowed, Query.parse text = .ok defining ∧
      narrow defining query.first.definingFilter = .ok narrowed ∧ query.unions = [] ∧
      prepared = { query with
        commonTables := some [⟨⟨Physical.table id, none⟩, [], narrowed⟩]
        first := { query.first with definingFilter := none } } := by
  obtain ⟨single, _, _, defining, narrowed, parsed, narrows, same⟩ := prepare_virtual_iff.mp ok
  exact ⟨defining, narrowed, parsed, narrows, single, same⟩

theorem prepare_stored {query : Query} (stored : description.isVirtual = false)
    (ok : description.prepare query = .ok prepared) :
    prepared = query ∧ ∀ part ∈ query.parts, part.definingFilter = none := by
  have unchanged (given : (if query.parts.any fun part => part.definingFilter.isSome then
      Except.error (CompileError.unsupported .definingFilter) else .ok query) = .ok prepared) :
      prepared = query ∧ ∀ part ∈ query.parts, part.definingFilter = none := by
    split at given <;> cases given
    next none => exact ⟨rfl, by simpa using none⟩
  cases description with
  | virtualTable id text => cases stored
  | _ => exact unchanged ok

/-- How a query is prepared: it stays as it is, or it reads the narrowed defining query of a virtual table under
the name of that table. -/
inductive Prepares (query : Query) : IndexDescription → Query → Prop where
  | stored {description : IndexDescription} (stored : description.isVirtual = false)
      (undefined : ∀ part ∈ query.parts, part.definingFilter = none) : Prepares query description query
  | expanded {id : TableId} {text : String} {defining narrowed : Query} (single : query.unions = [])
      (plain : query.commonTables = none) (parsed : Query.parse text = .ok defining)
      (narrows : narrow defining query.first.definingFilter = .ok narrowed) :
      Prepares query (virtualTable id text) { query with
        commonTables := some [⟨⟨Physical.table id, none⟩, [], narrowed⟩]
        first := { query.first with definingFilter := none } }

theorem prepares_of_ok {query : Query} (ok : description.prepare query = .ok prepared) :
    Prepares query description prepared := by
  cases virtual : description.isVirtual with
  | false =>
    obtain ⟨rfl, undefined⟩ := prepare_stored virtual ok
    exact .stored virtual undefined
  | true =>
    cases description with
    | virtualTable id text =>
      obtain ⟨single, _, plain, defining, narrowed, parsed, narrows, rfl⟩ := prepare_virtual_iff.mp ok
      exact .expanded single plain parsed narrows
    | _ => cases virtual

theorem prepare_of_checked {sqlContext : SqlContext} {query : Query}
    (ok : description.prepareChecked sqlContext query = .ok prepared) :
    description.prepare query = .ok prepared := by
  obtain ⟨result, prepares, rest⟩ := Except.of_bind ok
  obtain ⟨_, _, same⟩ := Except.of_bind rest
  cases same
  exact prepares

/-- Where composition is refused, a prepared query is one part over one table. -/
theorem single_of_checked {sqlContext : SqlContext} {query : Query}
    (refuses : description.supportsComposition sqlContext = false)
    (ok : description.prepareChecked sqlContext query = .ok prepared) :
    prepared.unions = [] ∧ ∀ part ∈ prepared.parts, part.source.isJoin = false := by
  obtain ⟨result, _, rest⟩ := Except.of_bind ok
  obtain ⟨_, checked, same⟩ := Except.of_bind rest
  cases same
  simp only [checkComposition, refuses, Bool.false_eq_true, if_false] at checked
  split at checked
  · cases checked
  · next single =>
      split at checked
      · cases checked
      · next none => exact ⟨by simpa [Query.isUnion] using single, by simpa using none⟩

/-- Preparing a query takes the conditions on a defining query from its parts. -/
theorem prepare_parts {query : Query} (ok : description.prepare query = .ok prepared) :
    prepared.parts = query.parts.map fun part => { part with definingFilter := none } := by
  cases prepares_of_ok ok with
  | stored _ undefined =>
    have unchanged : ∀ part ∈ prepared.parts, { part with definingFilter := none } = part := by
      intro part member
      have own := undefined part member
      cases part
      simp_all
    rw [List.map_congr_left unchanged, List.map_id']
  | expanded single => simp [Query.parts, single]

theorem prepare_definingFilter {query : Query} (ok : description.prepare query = .ok prepared) :
    ∀ part ∈ prepared.parts, part.definingFilter = none := by
  intro part member
  rw [prepare_parts ok] at member
  obtain ⟨own, _, rfl⟩ := List.mem_map.mp member
  rfl

end IndexDescription

/-! ## The queries of a plan -/

namespace Plan

variable {lookup : List IndexDescription} {sqlContext : SqlContext} {context : BindingContext}
  {description : IndexDescription}

/-- Every query of the plan has the property, and the innermost has no common tables. -/
def Every (property : Query → Prop) : Plan → Prop
  | plain _ query => query.commonTables = none ∧ property query
  | layered _ query _ inner => property query ∧ inner.Every property

theorem layOut_plain {query prepared : Query}
    (checked : description.prepareChecked sqlContext query = .ok prepared)
    (none : prepared.commonTables = .none) :
    layOut lookup sqlContext context description query = .ok (.plain description prepared) := by
  rw [layOut]
  grind

theorem layOut_layered {lookup : List IndexDescription} {sqlContext : SqlContext}
    {context entered : BindingContext} {description known : IndexDescription}
    {query prepared : Query} {element : CommonTable} {table : TableId} {inner : Plan}
    (checked : description.prepareChecked sqlContext query = .ok prepared)
    (clause : prepared.commonTables = some [element])
    (parsed : TableId.parse element.query.first.source.leading.name = .ok table)
    (found : description.dependency lookup table = .ok known)
    (enters : known.enter context = .ok entered)
    (inside : layOut lookup sqlContext entered known element.query = .ok inner) :
    layOut lookup sqlContext context description query =
      .ok (.layered description prepared element.name inner) := by
  rw [layOut]
  grind [Except.map]

theorem layOut_cases {query : Query} {plan : Plan}
    (ok : layOut lookup sqlContext context description query = .ok plan) :
    ∃ prepared, description.prepareChecked sqlContext query = .ok prepared ∧
      (prepared.commonTables = none ∧ plan = .plain description prepared ∨
        ∃ element table known entered inner, prepared.commonTables = some [element] ∧
          TableId.parse element.query.first.source.leading.name = .ok table ∧
          description.dependency lookup table = .ok known ∧ known.enter context = .ok entered ∧
          layOut lookup sqlContext entered known element.query = .ok inner ∧
          plan = .layered description prepared element.name inner) := by
  rw [layOut] at ok
  split at ok
  · cases ok
  · next prepared prepares =>
      refine ⟨prepared, prepares, ?_⟩
      split at ok
      · next none =>
          cases ok
          exact .inl ⟨none, rfl⟩
      · next element clause =>
          split at ok
          · cases ok
          · next table parsed =>
              split at ok
              · cases ok
              · next known found =>
                  split at ok
                  · cases ok
                  · next entered enters =>
                      cases inside : layOut lookup sqlContext entered known element.query with
                      | error problem =>
                        rw [inside] at ok
                        cases ok
                      | ok inner =>
                        rw [inside] at ok
                        cases ok
                        exact .inr ⟨element, table, known, entered, inner, clause, parsed, found,
                          enters, inside, rfl⟩
      · cases ok

/-- How a plan is laid out: the query is prepared, and if it has a common table, the query of that one is laid
out below it for the object that it reads. -/
inductive LaidOut (lookup : List IndexDescription) (sqlContext : SqlContext) :
    BindingContext → IndexDescription → Query → Plan → Prop where
  | plain {context : BindingContext} {description : IndexDescription} {query prepared : Query}
      (checked : description.prepareChecked sqlContext query = .ok prepared)
      (none : prepared.commonTables = .none) :
      LaidOut lookup sqlContext context description query (.plain description prepared)
  | layered {context entered : BindingContext} {description known : IndexDescription} {query prepared : Query}
      {element : CommonTable} {table : TableId} {inner : Plan}
      (checked : description.prepareChecked sqlContext query = .ok prepared)
      (clause : prepared.commonTables = some [element])
      (parsed : TableId.parse element.query.first.source.leading.name = .ok table)
      (found : description.dependency lookup table = .ok known) (enters : known.enter context = .ok entered)
      (inside : LaidOut lookup sqlContext entered known element.query inner) :
      LaidOut lookup sqlContext context description query (.layered description prepared element.name inner)

theorem laidOut_of_ok {query : Query} {plan : Plan}
    (ok : layOut lookup sqlContext context description query = .ok plan) :
    LaidOut lookup sqlContext context description query plan := by
  induction plan generalizing context description query with
  | plain own laid =>
    obtain ⟨prepared, checked, ⟨none, same⟩ | ⟨_, _, _, _, _, _, _, _, _, _, same⟩⟩ := layOut_cases ok
    · cases same
      exact .plain checked none
    · cases same
  | layered own laid name inner ih =>
    obtain ⟨prepared, checked, ⟨_, same⟩ | ⟨element, table, known, entered, deeper, clause, parsed, found,
      enters, inside, same⟩⟩ := layOut_cases ok
    · cases same
    · cases same
      exact .layered checked clause parsed found enters (ih inside)

/-- Laying out that gives up at a depth, so that it can be evaluated. -/
def layWithin (lookup : List IndexDescription) (sqlContext : SqlContext) :
    Nat → BindingContext → IndexDescription → Query → Option (Except CompileError Plan)
  | 0, _, _, _ => none
  | depth + 1, context, description, query =>
    match description.prepareChecked sqlContext query with
    | .error error => some (.error error)
    | .ok prepared =>
      match prepared.commonTables with
      | none => some (.ok (.plain description prepared))
      | some [element] =>
        match TableId.parse element.query.first.source.leading.name with
        | .error error => some (.error error)
        | .ok table =>
          match description.dependency lookup table with
          | .error error => some (.error error)
          | .ok known =>
            match known.enter context with
            | .error error => some (.error error)
            | .ok entered =>
              (layWithin lookup sqlContext depth entered known element.query).map
                (Except.map (.layered description prepared element.name))
      | some _ => some (.error (.unsupported .commonTables))

theorem layOut_of_within {depth : Nat} {query : Query} {outcome : Except CompileError Plan}
    (laid : layWithin lookup sqlContext depth context description query = some outcome) :
    layOut lookup sqlContext context description query = outcome := by
  induction depth generalizing context description query outcome with
  | zero => cases laid
  | succ depth ih =>
    rw [layOut]
    rw [layWithin] at laid
    -- Both make the same tests, so only the query of the common table is left.
    split at laid
    · grind
    split at laid
    · grind
    · split at laid
      · grind
      split at laid
      · grind
      split at laid
      · grind
      obtain ⟨inner, below, rfl⟩ := Option.map_eq_some_iff.mp laid
      grind [ih below]
    · grind

/-- The plan of a statement over a chain of common tables that ends at a depth. -/
def statementWithin (lookup : List IndexDescription) (sqlContext : SqlContext) (depth : Nat)
    (context : BindingContext) (description : IndexDescription) (query : Query) :
    Option (Except CompileError Plan) :=
  match description.enter context with
  | .error error => some (.error error)
  | .ok entered => layWithin lookup sqlContext depth entered description query

theorem ofStatement_of_within {query : Query} {outcome : Except CompileError Plan} (depth : Nat)
    (laid : statementWithin lookup sqlContext depth context description query = some outcome) :
    ofStatement lookup sqlContext context description query = outcome := by
  rw [ofStatement]
  rw [statementWithin] at laid
  split at laid
  · next problem enters =>
      cases laid
      rw [enters]
      rfl
  · next entered enters =>
      rw [enters]
      exact layOut_of_within laid

/-- What laying out keeps from a query to the query of its common table, every query of the plan has. -/
theorem layOut_every {lookup : List IndexDescription} {sqlContext : SqlContext}
    {invariant : IndexDescription → Query → Prop} {property : Query → Prop}
    (prepares : ∀ description query prepared, invariant description query →
      description.prepare query = .ok prepared → property prepared)
    (descends : ∀ description query prepared element table known, invariant description query →
      description.prepare query = .ok prepared → prepared.commonTables = some [element] →
      description.dependency lookup table = .ok known → invariant known element.query)
    {context : BindingContext} {description : IndexDescription} {query : Query} {plan : Plan}
    (start : invariant description query)
    (ok : layOut lookup sqlContext context description query = .ok plan) : plan.Every property := by
  replace ok := laidOut_of_ok ok
  induction ok with
  | plain checked none =>
    exact ⟨none, prepares _ _ _ start (IndexDescription.prepare_of_checked checked)⟩
  | layered checked clause _ found _ _ ih =>
    have given := IndexDescription.prepare_of_checked checked
    exact ⟨prepares _ _ _ start given, ih (descends _ _ _ _ _ _ start given clause found)⟩

/-- The query that is compiled last. -/
def query : Plan → Query
  | plain _ query | layered _ query _ _ => query

/-- The query that is compiled last is the one that was written, once it is prepared. -/
theorem prepared_query {query : Query} {plan : Plan}
    (laid : ofStatement lookup sqlContext context description query = .ok plan) :
    description.prepareChecked sqlContext query = .ok plan.query := by
  obtain ⟨entered, _, laid⟩ := Except.of_bind laid
  obtain ⟨prepared, checked, ⟨_, rfl⟩ | ⟨_, _, _, _, _, _, _, _, _, _, rfl⟩⟩ := layOut_cases laid
  · exact checked
  · exact checked

/-- A query without a WITH clause over an object that is not virtual is the only one of its plan. -/
theorem plain_of_stored {query : Query} {plan : Plan}
    (laid : ofStatement lookup sqlContext context description query = .ok plan)
    (stored : description.isVirtual = false) (none : query.commonTables = .none) :
    plan = .plain description query := by
  obtain ⟨entered, _, laid⟩ := Except.of_bind laid
  obtain ⟨prepared, checked, rest⟩ := layOut_cases laid
  obtain ⟨rfl, _⟩ := IndexDescription.prepare_stored stored (IndexDescription.prepare_of_checked checked)
  rcases rest with ⟨_, same⟩ | ⟨element, _, _, _, _, clause, _⟩
  · exact same
  · rw [none] at clause
    cases clause

end Plan

/-! ## Parts before they are lowered -/

theorem Lowering.run_mapM {α β : Type} {step : α → Lowering β} {items : List α} {results : List β}
    {state after : LoweringState} (ran : (items.mapM step).run state = (.ok results, after)) :
    List.Forall₂ (fun item result => ∃ start stop, (step item).run start = (.ok result, stop))
      items results := by
  induction items generalizing results state with
  | nil =>
    cases ran
    exact .nil
  | cons item items ih =>
    rw [List.mapM_cons] at ran
    obtain ⟨first, between, own, ran⟩ := run_bind ran
    obtain ⟨rest, last, others, ran⟩ := run_bind ran
    cases ran
    exact .cons ⟨state, between, own⟩ (ih others)

namespace Select

/-- Binding the tables of a part changes it only by spelling out a star. -/
theorem bindTables_of_ok {schemas : Schemas} {part : Select} {bound : Binding × Select}
    (ok : part.bindTables schemas = .ok bound) :
    Binding.ofSource schemas part.source = .ok bound.1 ∧
      (bound.2 = part ∧ part.projection ≠ .all ∨
        ∃ items, bound.1.star = .ok items ∧ part.projection = .all ∧
          bound.2 = { part with projection := .items items }) := by
  obtain ⟨binding, binds, rest⟩ := Except.of_bind ok
  split at rest
  · next list same =>
      cases rest
      exact ⟨binds, .inl ⟨rfl, by simp [same]⟩⟩
  · next same =>
      obtain ⟨items, star, rest⟩ := Except.of_bind rest
      cases rest
      exact ⟨binds, .inr ⟨items, star, same, rfl⟩⟩

/-- The part with its tables bound, its star spelled out and perhaps another page. -/
def BoundAs (schemas : Schemas) (part : Select) (bound : Binding × Select) : Prop :=
  Binding.ofSource schemas part.source = .ok bound.1 ∧
    ∃ projection page, bound.2 = { part with projection, page } ∧
      (projection = part.projection ∧ part.projection ≠ .all ∨
        ∃ items, bound.1.star = .ok items ∧ part.projection = .all ∧ projection = .items items)

end Select

namespace Compiler

theorem page_of_ok {compiler : Compiler} {role : Role} {rowsPerPage : Option UInt64}
    {parts paged : List (Binding × Select)} (ok : compiler.page role rowsPerPage parts = .ok paged) :
    List.Forall₂ (fun part result => result.1 = part.1 ∧
      ∃ page, result.2 = { part.2 with page }) parts paged := by
  have unchanged (part : Binding × Select) : part.1 = part.1 ∧
      ∃ page, part.2 = { part.2 with page } := by
    refine ⟨rfl, part.2.page, ?_⟩
    cases part.2
    rfl
  cases role with
  | definition =>
    cases ok
    exact List.forall₂_same.mpr fun part _ => unchanged part
  | statement =>
    have last : compiler.pageLast rowsPerPage parts = .ok paged := ok
    clear ok
    induction parts generalizing paged with
    | nil =>
      cases last
      exact .nil
    | cons part rest ih =>
      obtain ⟨binding, select⟩ := part
      cases rest with
      | nil =>
        obtain ⟨requested, _, last⟩ := Except.of_bind last
        obtain ⟨page, _, last⟩ := Except.of_bind last
        cases last
        exact .cons ⟨rfl, page, rfl⟩ .nil
      | cons second rest =>
        obtain ⟨others, behind, last⟩ := Except.of_bind last
        cases last
        exact .cons (unchanged _) (ih behind)

theorem boundAs_of_ok {compiler : Compiler} {role : Role} {rowsPerPage : Option UInt64}
    {selects : List Select} {parts paged : List (Binding × Select)}
    (bound : selects.mapM (Select.bindTables compiler.schemas) = .ok parts)
    (pages : compiler.page role rowsPerPage parts = .ok paged) :
    List.Forall₂ (Select.BoundAs compiler.schemas) selects paged := by
  refine forall₂_compose (Except.forall₂_of_mapM bound) (page_of_ok pages) ?_
  intro part _ result last own paging
  obtain ⟨same, page, changed⟩ := paging
  obtain ⟨binds, ⟨unchanged, notAll⟩ | ⟨items, star, all, spelled⟩⟩ := Select.bindTables_of_ok own
  · exact ⟨by rw [same, binds], part.projection, page, by rw [changed, unchanged],
      .inl ⟨rfl, notAll⟩⟩
  · exact ⟨by rw [same, binds], .items items, page, by rw [changed, spelled],
      .inr ⟨items, by rw [same, star], all, rfl⟩⟩

end Compiler

theorem Binding.star_columns {binding : Binding} {items : List SelectItem}
    (ok : binding.star = .ok items) : ∀ item ∈ items, ∃ table ∈ binding.tables,
      ∃ column ∈ table.columns, item =
        ⟨.column ⟨binding.starQualifier table, .doubleQuoted column.model.name⟩, none⟩ := by
  unfold Binding.star at ok
  split at ok
  · cases ok
    simp
  · split at ok <;> cases ok
    intro item member
    obtain ⟨table, listed, inTable⟩ := List.mem_flatMap.mp member
    obtain ⟨column, own, rfl⟩ := List.mem_map.mp inTable
    exact ⟨table, listed, column, own, rfl⟩

theorem Query.parts_withParts {query : Query} {parts : List Select}
    (same : parts.length = query.parts.length) : (query.withParts parts).parts = parts := by
  cases parts with
  | nil => simp [Query.parts] at same
  | cons first rest =>
    simp only [Query.parts, List.length_cons, List.length_map, Nat.add_right_cancel_iff] at same
    have selects : (List.zipWith (fun (branch : UnionBranch) select =>
        { branch with select }) query.unions rest).map UnionBranch.select = rest := by
      refine List.ext_getElem (by simp [same]) fun index _ _ => ?_
      simp
    simp [Query.withParts, Query.parts, selects]

@[simp] theorem Query.commonTables_withParts (query : Query) (parts : List Select) :
    (query.withParts parts).commonTables = query.commonTables := by
  cases parts <;> rfl

@[simp] theorem Query.elements_withParts (query : Query) (parts : List Select) :
    (query.withParts parts).elements = query.elements := by
  cases parts <;> rfl

theorem CompiledQuery.toCommonTable_query {name : Identifier} {inner : CompiledQuery}
    {element : CommonTable} (ok : inner.toCommonTable name = .ok element) :
    element.query = inner.query := by
  obtain ⟨columns, _, ok⟩ := Except.of_bind ok
  cases ok
  rfl

/-! ## Parts and statements that are compiled -/

namespace Compiler

open Lowering

variable {compiler : Compiler} {query : Query}

/-- What a query is compiled from and what is reported of it: its parts with their tables, then with the page,
and what they are lowered to. -/
structure CompiledFrom (compiler : Compiler) (role : Role) (description : IndexDescription) (query : Query)
    (inner : Option CompiledQuery) (bound paged : List (Binding × Select)) (metadata : List RowMetadata)
    (lowered : List (Select × Bool)) (compiled : CompiledQuery) : Prop where
  binds : query.parts.mapM (Select.bindTables compiler.schemas) = .ok bound
  adds : compiler.metadata role description compiled.isAggregated compiled.tableIds = .ok metadata
  pages : compiler.page role compiled.rowsPerPage bound = .ok paged
  clause : compiled.query.commonTables = query.commonTables
  parts : compiled.query.parts = lowered.map Prod.fst
  tableIds : compiled.tableIds = TableId.distinct ((bound.map Prod.fst).flatMap Binding.tableIds ++
    (inner.map CompiledQuery.tableIds).getD [])
  isAggregated : compiled.isAggregated = ((inner.map CompiledQuery.isAggregated).getD false ||
    bound.any fun part => part.2.isAggregate)
  outputColumns : compiled.outputColumns =
    Output.widen (bound.map fun part => part.2.describe compiler.schemas part.1)
  selectColumns : compiled.selectColumns =
    Output.selectColumns compiled.outputColumns compiled.isAggregated
  hasRowIds : compiled.hasRowIds = metadata.contains .id
  hasEtag : compiled.hasEtag = metadata.contains .etag
  searches : compiled.searches = lowered.any Prod.snd
  rowSize : compiled.rowSize = Size.ofRow compiled.outputColumns
  rowsPerPage : compiled.rowsPerPage = compiler.rowsPerPage role compiled.rowSize

/-- Only the lowering of the parts, from first to last, changes the state. -/
theorem run_compileParts {role : Role} {description : IndexDescription} {inner : Option CompiledQuery}
    {compiled : CompiledQuery} {state after : LoweringState}
    (ran : (compiler.compileParts role description query inner).run state = (.ok compiled, after)) :
    ∃ bound paged metadata lowered,
      compiler.CompiledFrom role description query inner bound paged metadata lowered compiled ∧
      (paged.mapM fun part : Binding × Select => part.2.lower compiler.schemas
        (role = .statement && compiler.context = .query) metadata part.1).run state = (.ok lowered, after) := by
  obtain ⟨bound, _, ran_bound, ran⟩ := run_bind ran
  obtain ⟨metadata, _, ran_metadata, ran⟩ := run_bind ran
  obtain ⟨paged, _, ran_paged, ran⟩ := run_bind ran
  obtain ⟨lowered, _, ran_lowered, ran⟩ := run_bind ran
  cases ran
  obtain ⟨binds, rfl⟩ := run_lift ran_bound
  obtain ⟨adds, rfl⟩ := run_lift ran_metadata
  obtain ⟨pages, rfl⟩ := run_lift ran_paged
  have count := (boundAs_of_ok binds pages).length_eq.trans (run_mapM ran_lowered).length_eq
  refine ⟨bound, paged, metadata, lowered, ?_, ran_lowered⟩
  exact {
    binds, adds, pages
    clause := Query.commonTables_withParts query _
    parts := Query.parts_withParts (by simpa using count.symm)
    tableIds := rfl
    isAggregated := rfl
    outputColumns := rfl
    selectColumns := rfl
    hasRowIds := rfl
    hasEtag := rfl
    searches := rfl
    rowSize := rfl
    rowsPerPage := rfl }

namespace CompiledFrom

variable {role : Role} {description : IndexDescription} {inner : Option CompiledQuery}
  {bound paged : List (Binding × Select)} {metadata : List RowMetadata} {lowered : List (Select × Bool)}
  {compiled : CompiledQuery}
  (own : compiler.CompiledFrom role description query inner bound paged metadata lowered compiled)

include own in
theorem boundAs : List.Forall₂ (Select.BoundAs compiler.schemas) query.parts paged :=
  boundAs_of_ok own.binds own.pages

include own in
theorem forall₂_parts {relation : Binding × Select → Select × Bool → Prop} {related : Select → Select → Prop}
    (lowers : List.Forall₂ relation paged lowered)
    (each : ∀ part ∈ query.parts, ∀ bound result, part.BoundAs compiler.schemas bound → relation bound result →
      related part result.1) : List.Forall₂ related query.parts compiled.query.parts := by
  rw [own.parts, List.forall₂_map_right_iff]
  exact forall₂_compose own.boundAs lowers each

end CompiledFrom

/-- A compiled statement is what the plan of its query was compiled to, with the values that were bound. -/
theorem run_of_statement {statement : Statement} (ok : compiler.compileQuery query = .ok statement) :
    ∃ plan state, Plan.ofStatement compiler.lookup compiler.context compiler.start compiler.description
        query = .ok plan ∧
      (compiler.compilePlan .statement plan).run { context := compiler.start } =
        (.ok statement.compiled, state) ∧
      statement.parameters = state.context.parameters := by
  obtain ⟨plan, laid, rest⟩ := Except.of_bind ok
  rcases ran : (compiler.compilePlan .statement plan).run { context := compiler.start } with
    ⟨result, state⟩
  rw [ran] at rest
  obtain ⟨inner, rfl, same⟩ := Except.of_bind rest
  cases same
  exact ⟨plan, state, laid, ran, rfl⟩

theorem run_of_compileQuery {statement : Statement} (ok : compiler.compileQuery query = .ok statement) :
    ∃ plan state, Plan.ofStatement compiler.lookup compiler.context compiler.start compiler.description
        query = .ok plan ∧
      (compiler.compilePlan .statement plan).run { context := compiler.start } =
        (.ok statement.compiled, state) := by
  obtain ⟨plan, state, laid, ran, _⟩ := run_of_statement ok
  exact ⟨plan, state, laid, ran⟩

end Compiler

/-! ## Statements that are evaluated -/

namespace Compiler

variable {compiler : Compiler} {query : Query}

theorem compileText_eq (compiler : Compiler) {text : String} (read : Query.parse text = .ok query) :
    compiler.compileText text = compiler.compileQuery query := by
  rw [compileText, read]
  rfl

/-- Compilation over a chain of common tables that ends at a depth. -/
def compileWithin (compiler : Compiler) (depth : Nat) (query : Query) :
    Option (Except CompileError Statement) :=
  (Plan.statementWithin compiler.lookup compiler.context depth compiler.start compiler.description
    query).map fun plan => do
      let (compiled, state) :=
        (compiler.compilePlan .statement (← plan)).run { context := compiler.start }
      return ⟨← compiled, state.context.parameters⟩

theorem compileQuery_of_within {depth : Nat} {outcome : Except CompileError Statement}
    (ran : compiler.compileWithin depth query = some outcome) : compiler.compileQuery query = outcome := by
  obtain ⟨plan, laid, rfl⟩ := Option.map_eq_some_iff.mp ran
  unfold compileQuery
  exact Plan.ofStatement_of_within depth laid ▸ rfl

/-- A query is compiled to a statement with a property if it is evaluated to one. -/
theorem compiles_within {property : Statement → Prop} [DecidablePred property] (depth : Nat)
    (known : ((compiler.compileWithin depth query).bind Except.toOption).any property = true) :
    ∃ statement, compiler.compileQuery query = .ok statement ∧ property statement := by
  obtain ⟨statement, ran, holds⟩ := (Option.any_eq_true _ _).mp known
  obtain ⟨outcome, ran, ok⟩ := Option.bind_eq_some_iff.mp ran
  cases outcome with
  | error problem => cases ok
  | ok value =>
    cases ok
    exact ⟨statement, compileQuery_of_within ran, of_decide_eq_true holds⟩

/-- A query is refused if the error is evaluated. -/
theorem refuses_within {problem : CompileError} (depth : Nat)
    (failed : (compiler.compileWithin depth query).map (Except.map fun _ => ()) = some (.error problem)) :
    compiler.compileQuery query = .error problem := by
  obtain ⟨outcome, ran, same⟩ := Option.map_eq_some_iff.mp failed
  rw [compileQuery_of_within ran, Except.of_failed same]

end Compiler

end TabularSql
