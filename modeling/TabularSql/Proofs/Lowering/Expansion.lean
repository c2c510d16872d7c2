import Mathlib.Logic.Relation
import TabularSql.Proofs.Lowering.Framing
import TabularSql.Proofs.Lowering.Parallel
import TabularSql.Query.Equality

/-!
# Expansion of virtual tables

Compilation can be told in one recursion: it enters the object, compiles the query of the common table in
the same way, leaves the object again and compiles the parts. The chain of virtual tables is then part of
the state, which also a failure keeps. This module says that the recursion is compilation, that it ends for
every lookup, that the chain never holds a table twice and is restored on every way out, and that
definitions which lead back to a virtual table end in an error.
-/

namespace TabularSql

set_option autoImplicit false

/-! ## Compilation as one recursion -/

namespace IndexDescription

variable {description : IndexDescription} {context entered : BindingContext}

def leave (description : IndexDescription) (context : BindingContext) : BindingContext :=
  if description.isVirtual then context.leave else context

theorem enter_eq (enters : description.enter context = .ok entered) :
    entered = { context with expanding := entered.expanding } := by
  unfold IndexDescription.enter BindingContext.enter at enters
  split at enters
  · split at enters <;> cases enters
    rfl
  · cases enters
    rfl

theorem leave_enter (enters : description.enter context = .ok entered) (other : BindingContext) :
    description.leave { other with expanding := entered.expanding } =
      { other with expanding := context.expanding } := by
  unfold IndexDescription.leave
  cases virtual : description.isVirtual with
  | true =>
    rw [if_pos rfl, (Plan.enter_virtual virtual enters).2]
    simp [BindingContext.leave]
  | false =>
    rw [Plan.enter_stored virtual enters]
    rfl

/-- A virtual table that is on the chain is not entered again. -/
theorem nodup_enter (enters : description.enter context = .ok entered)
    (distinct : context.expanding.Nodup) : entered.expanding.Nodup := by
  cases virtual : description.isVirtual with
  | true =>
    obtain ⟨fresh, chain⟩ := Plan.enter_virtual virtual enters
    rw [chain, List.nodup_append]
    refine ⟨distinct, by simp, ?_⟩
    intro table member other same
    cases List.mem_singleton.mp same
    exact fun equal => fresh (equal ▸ member)
  | false => rwa [Plan.enter_stored virtual enters]

end IndexDescription

namespace Compiler

def surround (compiler : Compiler) (role : Role) (description : IndexDescription) (query : Query)
    (name : Identifier) (inner : CompiledQuery) : Lowering CompiledQuery := do
  let element ← Lowering.lift (inner.toCommonTable name)
  compiler.compileParts role description { query with commonTables := some [element] } (some inner)

/-- Compiles a query over an object that has been entered. The object that a common table reads is entered
before the query of the common table and left behind it. -/
def expand (compiler : Compiler) (role : Role) (description : IndexDescription) (query : Query)
    (state : LoweringState) : Except CompileError CompiledQuery × LoweringState :=
  match _prepared : description.prepareChecked compiler.context query with
  | .error problem => (.error problem, state)
  | .ok prepared =>
    match _clause : prepared.commonTables with
    | none => (compiler.compileParts role description prepared none).run state
    | some [element] =>
      match TableId.parse element.query.first.source.leading.name with
      | .error problem => (.error problem, state)
      | .ok table =>
        match _found : description.dependency compiler.lookup table with
        | .error problem => (.error problem, state)
        | .ok known =>
          match _entered : known.enter state.context with
          | .error problem => (.error problem, state)
          | .ok context =>
            let (result, after) := compiler.expand .definition known element.query
              { state with context }
            (Lowering.lift result >>=
              compiler.surround role description prepared element.name).run
                { after with context := known.leave after.context }
    | some _ => (.error (.unsupported .commonTables), state)
termination_by (Plan.unexpanded compiler.lookup state.context, if description.isVirtual then 1 else 0,
  sizeOf query)
decreasing_by
  exact Plan.layOut_decreases (by assumption) (by assumption) (by assumption) (by assumption)

def compile (compiler : Compiler) (role : Role) (description : IndexDescription) (query : Query)
    (state : LoweringState) : Except CompileError CompiledQuery × LoweringState :=
  match description.enter state.context with
  | .error problem => (.error problem, state)
  | .ok context =>
    let (result, after) := compiler.expand role description query { state with context }
    (result, { after with context := description.leave after.context })

open Lowering

variable {compiler : Compiler}

theorem run_entered {α : Type} {step : Lowering α} (framed : Framed step) {description : IndexDescription}
    {state : LoweringState} {entered : BindingContext}
    (enters : description.enter state.context = .ok entered) :
    (step.run { state with context := entered }).1 = (step.run state).1 ∧
      { (step.run { state with context := entered }).2 with
        context := description.leave (step.run { state with context := entered }).2.context } =
          (step.run state).2 := by
  have same : { state with context := entered } = state.under entered.expanding := by
    rw [LoweringState.under, ← IndexDescription.enter_eq enters]
  have left : description.leave ((step.run state).2.under entered.expanding).context =
      (step.run state).2.context := by
    have own := framed.expanding state
    exact (IndexDescription.leave_enter enters _).trans (by rw [← own])
  rw [same, framed state]
  exact ⟨rfl, by rw [left]; rfl⟩

theorem surround_plan (role : Role) (description : IndexDescription) (query : Query) (name : Identifier)
    (laid : Except CompileError Plan) :
    (lift laid >>= compiler.compilePlan .definition) >>=
        compiler.surround role description query name =
      lift (laid.map (.layered description query name)) >>= compiler.compilePlan role := by
  cases laid with
  | error problem => rfl
  | ok plan => rfl

theorem expand_eq (role : Role) (description : IndexDescription) (query : Query) (state : LoweringState) :
    compiler.expand role description query state =
      (lift (Plan.layOut compiler.lookup compiler.context state.context description query) >>=
        compiler.compilePlan role).run state := by
  fun_induction expand compiler role description query state with
  | case1 role description query state problem failed =>
    rw [Plan.layOut_eq, failed]
    rfl
  | case2 role description query state prepared checked none =>
    rw [Plan.layOut_plain checked none]
    rfl
  | case3 role description query state prepared checked element clause problem failed =>
    rw [Plan.layOut_eq, checked]
    simp only [Bind.bind, Except.bind, clause, failed]
    rfl
  | case4 role description query state prepared checked element clause table parsed problem failed =>
    rw [Plan.layOut_eq, checked]
    simp only [Bind.bind, Except.bind, clause, parsed, failed]
    rfl
  | case5 role description query state prepared checked element clause table parsed known found problem
      failed =>
      rw [Plan.layOut_eq, checked]
      simp only [Bind.bind, Except.bind, clause, parsed, found, failed]
      rfl
  | case6 role description query state prepared checked element clause table parsed known found entered
      enters result after ran ih =>
      have laid : Plan.layOut compiler.lookup compiler.context state.context description query =
          (Plan.layOut compiler.lookup compiler.context entered known element.query).map
            (.layered description prepared element.name) := by
        rw [Plan.layOut_eq, checked]
        simp only [Bind.bind, Except.bind, clause, parsed, found, enters]
        cases Plan.layOut compiler.lookup compiler.context entered known element.query <;> rfl
      have framed := framed_bind
        (framed_lift (Plan.layOut compiler.lookup compiler.context entered known element.query))
        (compiler.framed_compilePlan .definition)
      obtain ⟨same, left⟩ := run_entered framed enters
      rw [← ih, ran] at same left
      rw [laid, ← surround_plan, run_bind_eq, run_bind_eq]
      simp only at same left
      rw [left, same]
      rcases (lift (Plan.layOut compiler.lookup compiler.context entered known element.query) >>=
        compiler.compilePlan .definition).run state with ⟨problem | inner, between⟩ <;> rfl
  | case7 role description query state prepared checked elements several clause =>
    rw [Plan.layOut_eq, checked]
    simp only [Bind.bind, Except.bind, clause]
    rfl

theorem compile_eq (role : Role) (description : IndexDescription) (query : Query) (state : LoweringState) :
    compiler.compile role description query state =
      (lift (Plan.ofStatement compiler.lookup compiler.context state.context description query) >>=
        compiler.compilePlan role).run state := by
  rw [compile, Plan.ofStatement]
  cases enters : description.enter state.context with
  | error problem => rfl
  | ok entered =>
    have framed := framed_bind
      (framed_lift (Plan.layOut compiler.lookup compiler.context entered description query))
      (compiler.framed_compilePlan role)
    obtain ⟨same, left⟩ := run_entered framed enters
    simp only [expand_eq]
    rw [same, left]
    rfl

theorem compileQuery_eq_compile (compiler : Compiler) (query : Query) :
    compiler.compileQuery query = Statement.ofRun
      (compiler.compile .statement compiler.description query { context := compiler.start }) := by
  rw [compileQuery_eq, compile_eq]
  cases Plan.ofStatement compiler.lookup compiler.context compiler.start compiler.description query with
  | error problem => rfl
  | ok plan => rfl

theorem expanding_compile (compiler : Compiler) (role : Role) (description : IndexDescription)
    (query : Query) (state : LoweringState) :
    (compiler.compile role description query state).2.context.expanding = state.context.expanding := by
  rw [compile_eq]
  exact (framed_bind (framed_lift _) (compiler.framed_compilePlan role)).expanding state

end Compiler

/-! ## Nested calls -/

structure Call where
  description : IndexDescription
  query : Query
  context : BindingContext

namespace Call

variable {lookup : List IndexDescription} {sqlContext : SqlContext}

/-- The outer call compiles its common table by the inner call. -/
def Nested (lookup : List IndexDescription) (sqlContext : SqlContext) (inner outer : Call) : Prop :=
  ∃ prepared element table,
    outer.description.prepareChecked sqlContext outer.query = .ok prepared ∧
    prepared.commonTables = some [element] ∧
    TableId.parse element.query.first.source.leading.name = .ok table ∧
    outer.description.dependency lookup table = .ok inner.description ∧
    inner.description.enter outer.context = .ok inner.context ∧ inner.query = element.query

theorem wellFounded_nested (lookup : List IndexDescription) (sqlContext : SqlContext) :
    WellFounded (Nested lookup sqlContext) := by
  let measure (call : Call) : Nat × Nat × Nat :=
    (Plan.unexpanded lookup call.context, if call.description.isVirtual then 1 else 0,
      sizeOf call.query)
  have decreases {inner outer : Call} (nested : Nested lookup sqlContext inner outer) :
      Prod.Lex (· < ·) (Prod.Lex (· < ·) (· < ·)) (measure inner) (measure outer) := by
    obtain ⟨prepared, element, table, prepares, clause, _, found, enters, same⟩ := nested
    simp only [measure, same]
    exact Plan.layOut_decreases prepares clause found enters
  have order := (Prod.lex Nat.lt_wfRel (Prod.lex Nat.lt_wfRel Nat.lt_wfRel)).wf
  exact Subrelation.wf decreases (InvImage.wf measure order)

theorem nodup_of_reached {inner outer : Call}
    (reached : Relation.ReflTransGen (Nested lookup sqlContext) inner outer)
    (distinct : outer.context.expanding.Nodup) : inner.context.expanding.Nodup := by
  induction reached using Relation.ReflTransGen.head_induction_on with
  | refl => exact distinct
  | head nested _ ih =>
    obtain ⟨_, _, _, _, _, _, _, enters, _⟩ := nested
    exact IndexDescription.nodup_enter enters ih

/-- Below an object that is not virtual no virtual table is expanded. -/
theorem stored_of_reached {inner outer : Call}
    (reached : Relation.ReflTransGen (Nested lookup sqlContext) inner outer)
    (stored : outer.description.isVirtual = false) :
    inner.description.isVirtual = false ∧ inner.context = outer.context := by
  induction reached using Relation.ReflTransGen.head_induction_on with
  | refl => exact ⟨stored, rfl⟩
  | head nested _ ih =>
    obtain ⟨_, _, table, _, _, _, found, enters, _⟩ := nested
    have plain := Plan.dependency_of_stored ih.1 found
    rw [plain] at enters ⊢
    exact ⟨rfl, (Plan.enter_stored rfl enters).trans ih.2⟩

end Call

/-! ## Definitions that lead back -/

namespace IndexDescription

/-- The defining query of a virtual table reads an object of the lookup. -/
def Reads (lookup : List IndexDescription) (description known : IndexDescription) : Prop :=
  ∃ text defining table, description.definingText? = some text ∧ Query.parse text = .ok defining ∧
    TableId.parse defining.first.source.leading.name = .ok table ∧
    lookup.find? (fun entry => entry.id == table) = some known

theorem source_narrow {defining narrowed : Query} {condition : Option Expr}
    (narrows : narrow defining condition = .ok narrowed) :
    narrowed.first.source = defining.first.source := by
  unfold narrow at narrows
  split at narrows
  · cases narrows
    rfl
  · split at narrows <;> cases narrows
    rfl

end IndexDescription

namespace Plan

variable {lookup : List IndexDescription} {sqlContext : SqlContext}

variable {context : BindingContext} {description : IndexDescription} {query : Query} {plan : Plan}

theorem layOut_reads {known : IndexDescription}
    (ok : layOut lookup sqlContext context description query = .ok plan)
    (reads : description.Reads lookup known) :
    ∃ entered inside inner, known.enter context = .ok entered ∧
      layOut lookup sqlContext entered known inside = .ok inner := by
  obtain ⟨text, defining, table, own, parsed, leading, listed⟩ := reads
  cases description with
  | virtualTable id definition =>
    cases own
    obtain ⟨prepared, checked, rest⟩ := layOut_cases ok
    obtain ⟨given, narrowed, reading, narrows, _, rfl⟩ :=
      IndexDescription.prepare_virtual (IndexDescription.prepare_of_checked checked)
    rw [parsed] at reading
    cases reading
    rcases rest with ⟨none, _⟩ | ⟨element, other, entry, entered, inner, clause, named, found, enters,
      inside, _⟩
    · cases none
    · cases clause
      simp only [IndexDescription.source_narrow narrows, leading] at named
      cases named
      simp only [IndexDescription.dependency, IndexDescription.isVirtual, if_true, listed] at found
      cases found
      exact ⟨entered, narrowed, inner, enters, inside⟩
  | _ => cases own

/-- A plan is laid out only if no virtual table on the way comes twice. -/
theorem nodup_of_layOut {path : List IndexDescription}
    (ok : layOut lookup sqlContext context description query = .ok plan)
    (follows : List.IsChain (IndexDescription.Reads lookup) (description :: path))
    (virtual : ∀ known ∈ path, known.isVirtual = true) (distinct : context.expanding.Nodup) :
    (context.expanding ++ path.map IndexDescription.id).Nodup := by
  induction path generalizing context description query plan with
  | nil => simpa using distinct
  | cons known path ih =>
    obtain ⟨reads, follows⟩ := List.isChain_cons_cons.mp follows
    obtain ⟨entered, inside, inner, enters, laid⟩ := layOut_reads ok reads
    have chain := (enter_virtual (virtual known List.mem_cons_self) enters).2
    have rest := ih laid follows (fun other member => virtual other (List.mem_cons_of_mem _ member))
      (IndexDescription.nodup_enter enters distinct)
    rw [chain, List.append_assoc] at rest
    exact rest

theorem nodup_of_ofStatement {path : List IndexDescription} (fresh : context.expanding = [])
    (ok : ofStatement lookup sqlContext context description query = .ok plan)
    (follows : List.IsChain (IndexDescription.Reads lookup) (description :: path))
    (virtual : ∀ known ∈ path, known.isVirtual = true) :
    ((description :: path).map IndexDescription.id).Nodup := by
  obtain ⟨entered, enters, ok⟩ := Except.of_bind ok
  cases own : description.isVirtual with
  | true =>
    have chain := (enter_virtual own enters).2
    rw [fresh] at chain
    have distinct := nodup_of_layOut ok follows virtual (by simp [chain])
    rw [chain] at distinct
    exact distinct
  | false =>
    -- Only a virtual table has a definition to follow.
    cases path with
    | nil => simp
    | cons known path =>
      obtain ⟨⟨_, _, _, text, _⟩, _⟩ := List.isChain_cons_cons.mp follows
      cases description <;> simp_all [IndexDescription.isVirtual, IndexDescription.definingText?]

end Plan

namespace Compiler

/-- Expansion of virtual tables ends for every lookup. Calls do not nest for ever, no virtual table is on the
chain twice, and the chain is restored on every way out. An object that is not virtual is entered whether or not
its identifier is on the chain, and nothing below it is expanded. There is no statement if the definitions lead
from the queried virtual table to a virtual table that they already went through. -/
theorem virtual_expansion_ends (compiler : Compiler) (query : Query) :
    WellFounded (Call.Nested compiler.lookup compiler.context) ∧
      (∀ entered call, compiler.description.enter compiler.start = .ok entered →
        Relation.ReflTransGen (Call.Nested compiler.lookup compiler.context) call
          ⟨compiler.description, query, entered⟩ → call.context.expanding.Nodup) ∧
      compiler.compileQuery query = Statement.ofRun
        (compiler.compile .statement compiler.description query { context := compiler.start }) ∧
      (∀ role description inner state,
        (compiler.compile role description inner state).2.context.expanding =
          state.context.expanding) ∧
      (∀ call : Call, call.description.isVirtual = false →
        (∀ context, call.description.enter context = .ok context) ∧
          ∀ inner, Relation.ReflTransGen (Call.Nested compiler.lookup compiler.context) inner call →
            inner.description.isVirtual = false ∧ inner.context = call.context) ∧
      ∀ path, List.IsChain (IndexDescription.Reads compiler.lookup) (compiler.description :: path) →
        (∀ known ∈ path, known.isVirtual = true) →
        ¬ ((compiler.description :: path).map IndexDescription.id).Nodup →
          ∃ problem, compiler.compileQuery query = .error problem := by
  refine ⟨Call.wellFounded_nested _ _, ?_, compiler.compileQuery_eq_compile query,
    compiler.expanding_compile, ?_, ?_⟩
  · intro entered call enters reached
    exact Call.nodup_of_reached reached (IndexDescription.nodup_enter enters List.nodup_nil)
  · intro call stored
    refine ⟨fun context => ?_, fun inner reached => Call.stored_of_reached reached stored⟩
    rw [IndexDescription.enter, stored]
    rfl
  · intro path follows virtual repeated
    cases compiled : compiler.compileQuery query with
    | error problem => exact ⟨problem, rfl⟩
    | ok statement =>
      obtain ⟨plan, _, laid, _⟩ := run_of_compileQuery compiled
      exact absurd (Plan.nodup_of_ofStatement rfl laid follows virtual) repeated

def linkedCompiler (text : String) (lookup : List IndexDescription) : Compiler where
  schemas :=
    let columns : List ColumnModel := [{ id := some 1, name := "foo", type := .string, maxSize := some 50 }]
    (({} : Catalog).addTable ⟨1, none⟩ columns).schemas
  description := .virtualTable ⟨1, none⟩ text
  lookup
  userId := 1

/-- `SELECT foo FROM ..` -/
def linkedQuery (table : String) : Query :=
  .single (Select.simple (.items [⟨.named "foo", none⟩]) (.named table))

/-- Two virtual tables that read one another. -/
def cyclicLookup : List IndexDescription :=
  [.virtualTable ⟨2, none⟩ "select foo from syn3", .virtualTable ⟨3, none⟩ "select foo from syn2"]

theorem cyclicLookup_reads (id : TableId) :
    (IndexDescription.virtualTable id "select foo from syn2").Reads cyclicLookup
        (.virtualTable ⟨2, none⟩ "select foo from syn3") ∧
      (IndexDescription.virtualTable id "select foo from syn3").Reads cyclicLookup
        (.virtualTable ⟨3, none⟩ "select foo from syn2") := by
  have second : Query.parse "select foo from syn2" = .ok (linkedQuery "syn2") := by decide +kernel
  have third : Query.parse "select foo from syn3" = .ok (linkedQuery "syn3") := by decide +kernel
  exact ⟨⟨_, _, ⟨2, none⟩, rfl, second, by decide +kernel, rfl⟩,
    ⟨_, _, ⟨3, none⟩, rfl, third, by decide +kernel, rfl⟩⟩

/-- The queried table is on no cycle itself; the tables behind it are. -/
theorem virtual_expansion_ends_cyclic :
    List.IsChain (IndexDescription.Reads cyclicLookup)
        [.virtualTable ⟨1, none⟩ "select foo from syn2", .virtualTable ⟨2, none⟩ "select foo from syn3",
          .virtualTable ⟨3, none⟩ "select foo from syn2", .virtualTable ⟨2, none⟩ "select foo from syn3"] ∧
      ∃ problem, (linkedCompiler "select foo from syn2" cyclicLookup).compileQuery (linkedQuery "syn1") =
        .error problem := by
  have follows : List.IsChain (IndexDescription.Reads cyclicLookup)
      [.virtualTable ⟨1, none⟩ "select foo from syn2", .virtualTable ⟨2, none⟩ "select foo from syn3",
        .virtualTable ⟨3, none⟩ "select foo from syn2", .virtualTable ⟨2, none⟩ "select foo from syn3"] := by
    apply List.IsChain.cons_cons (cyclicLookup_reads _).1
    apply List.IsChain.cons_cons (cyclicLookup_reads _).2
    exact List.IsChain.cons_cons (cyclicLookup_reads _).1 (.singleton _)
  obtain ⟨_, _, _, _, _, repeats⟩ := virtual_expansion_ends
    (linkedCompiler "select foo from syn2" cyclicLookup) (linkedQuery "syn1")
  exact ⟨follows, repeats _ follows (by decide) (by decide)⟩

/-- A lookup may know the queried virtual table as a plain table. The definition then leads back to the same
identifier, but to no virtual table, and there is a statement. -/
theorem virtual_expansion_through_table :
    List.IsChain (IndexDescription.Reads [.table ⟨1, none⟩])
        [.virtualTable ⟨1, none⟩ "select foo from syn1", .table ⟨1, none⟩] ∧
      ¬ ([.virtualTable ⟨1, none⟩ "select foo from syn1", .table ⟨1, none⟩].map
        IndexDescription.id).Nodup ∧
      ∃ statement, (linkedCompiler "select foo from syn1" [.table ⟨1, none⟩]).compileText
          "select foo from syn1" = .ok statement ∧
        statement.text = "WITH T1 (_C1_) AS (SELECT _C1_ FROM T1) SELECT _C1_ FROM T1" := by
  have parsed : Query.parse "select foo from syn1" = .ok (linkedQuery "syn1") := by decide +kernel
  have leading : TableId.parse "syn1" = .ok ⟨1, none⟩ := by decide +kernel
  refine ⟨.cons_cons ⟨_, _, ⟨1, none⟩, rfl, parsed, leading, rfl⟩ (.singleton _), by decide, ?_⟩
  rw [compileText_eq _ parsed]
  exact compiles_within 2 (by decide +kernel)

end Compiler

end TabularSql
