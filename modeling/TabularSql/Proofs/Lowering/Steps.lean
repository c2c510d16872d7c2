import TabularSql.Part
import TabularSql.Proofs.Fragment
import TabularSql.Proofs.Outcome

/-!
# Steps of lowering

A lowering step changes the state and gives a value or fails. What a composed step did, when it did not
fail, is what its parts did one after the other. Two kinds of facts about steps are stated over this:
which placeholders a value shows, and what a value is like as long as the state keeps an invariant.
-/

namespace TabularSql

set_option autoImplicit false

namespace Lowering

variable {α β : Type}

theorem run_pure {value result : α} {state after : LoweringState}
    (ran : (pure value : Lowering α).run state = (.ok result, after)) :
    result = value ∧ after = state := by
  cases ran
  exact ⟨rfl, rfl⟩

/-- A failure ends the steps; it keeps the state that was reached. -/
theorem run_bind_eq (step : Lowering α) (next : α → Lowering β) (state : LoweringState) :
    (step >>= next).run state = match step.run state with
      | (.ok value, between) => (next value).run between
      | (.error problem, between) => (.error problem, between) := by
  show (ExceptT.bindCont next (step.run state).1) (step.run state).2 = _
  rcases step.run state with ⟨problem | value, between⟩ <;> rfl

theorem run_bind {step : Lowering α} {next : α → Lowering β} {state after : LoweringState} {result : β}
    (ran : (step >>= next).run state = (.ok result, after)) :
    ∃ value between, step.run state = (.ok value, between) ∧
      (next value).run between = (.ok result, after) := by
  rw [run_bind_eq] at ran
  rcases first : step.run state with ⟨problem | value, between⟩
  · rw [first] at ran
    cases ran
  · rw [first] at ran
    exact ⟨value, between, rfl, ran⟩

theorem run_lift {given : Except CompileError α} {state after : LoweringState} {value : α}
    (ran : (lift given).run state = (.ok value, after)) : given = .ok value ∧ after = state := by
  cases given with
  | error problem => cases ran
  | ok known =>
    cases ran
    exact ⟨rfl, rfl⟩

end Lowering

theorem Expr.lowerAll_eq_mapM (scope : Scope) (position : Position) (exprs : List Expr) :
    Expr.lowerAll scope position exprs = exprs.mapM (Expr.lower scope position) := by
  induction exprs with
  | nil => rfl
  | cons expr exprs ih => rw [Expr.lowerAll, List.mapM_cons, ih]

theorem Expr.lowerOption_eq_mapM (scope : Scope) (position : Position) (optional : Option Expr) :
    Expr.lowerOption scope position optional = optional.mapM (Expr.lower scope position) := by
  cases optional <;> rfl

def Expr.lowerBranch (scope : Scope) (tested result : Position) (branch : Expr × Expr) :
    Lowering (Expr × Expr) := do
  let condition ← branch.1.lower scope tested
  return (condition, ← branch.2.lower scope result)

theorem Expr.lowerBranches_eq_mapM (scope : Scope) (tested result : Position) (branches : List (Expr × Expr)) :
    Expr.lowerBranches scope tested result branches =
      branches.mapM (Expr.lowerBranch scope tested result) := by
  induction branches with
  | nil => rfl
  | cons branch branches ih => simp [Expr.lowerBranches, Expr.lowerBranch, List.mapM_cons, ih]

/-! ## What names become -/

theorem Number.toDigits_injective {first second : Nat}
    (same : Nat.toDigits 10 first = Nat.toDigits 10 second) : first = second := by
  rw [← @Nat.ofDigitChars_toDigits 10 first (by decide) (by decide), same,
    Nat.ofDigitChars_toDigits (by decide) (by decide)]

theorem ResolvedColumn.target_of_stored {resolved : ResolvedColumn} {column : BoundColumn}
    (stored : resolved.stored? = some column) : resolved.target = .stored column := by
  unfold stored? at stored
  split at stored
  · next own same =>
      cases stored
      exact same
  · cases stored

namespace ColumnRef

variable {scope : Scope} {position : Position} {reference : ColumnRef} {lowered : Expr}

/-- What becomes of a name that stands for no column. -/
inductive Unresolved (scope : Scope) (position : Position) (reference : ColumnRef) : Expr → Prop where
  | delimited (bare : reference.qualifier = none) (quoted : reference.name.isDelimited = true)
      (place : position = .sort ∨ position.isCondition = true) :
      Unresolved scope position reference (.column ⟨none, .backQuoted reference.name.name⟩)
  | named (bare : reference.qualifier = none) (plain : reference.name.isDelimited = false)
      (listed : reference.name.name ∈ scope.aliases) (place : position = .sort) :
      Unresolved scope position reference (.column reference)

theorem unresolved_of_ok
    (ok : reference.lowerUnresolved scope.aliases position = .ok lowered) :
    Unresolved scope position reference lowered := by
  have kept {test : Bool} {problem : CompileError}
      (given : (if test then Except.ok reference.leftToStore else .error problem) = .ok lowered) :
      test = true ∧ lowered = reference.leftToStore := by
    split at given <;> cases given
    next holds => exact ⟨holds, rfl⟩
  have back (quoted : reference.name.isDelimited = true) :
      reference.leftToStore = .column ⟨none, .backQuoted reference.name.name⟩ := if_pos quoted
  cases position with
  | select | argument => cases ok
  | condition compared =>
    obtain ⟨test, rfl⟩ := kept ok
    simp only [Bool.and_eq_true, Option.isNone_iff_eq_none] at test
    rw [back test.2]
    exact .delimited test.1 test.2 (.inr rfl)
  | sort =>
    obtain ⟨test, rfl⟩ := kept ok
    simp only [Bool.or_eq_true, Bool.and_eq_true, Option.isNone_iff_eq_none,
      List.contains_iff_mem] at test
    cases quoted : reference.name.isDelimited with
    | true =>
      rw [back quoted]
      exact .delimited (test.elim And.left And.left) quoted (.inl rfl)
    | false =>
      rw [leftToStore, if_neg (by simp [quoted])]
      simp only [quoted, Bool.false_eq_true, and_false, or_false] at test
      exact .named test.1 quoted test.2 rfl

inductive LowersTo (scope : Scope) (position : Position) (reference : ColumnRef) : Expr → Prop where
  | physical {resolved : ResolvedColumn}
      (found : scope.binding.resolve reference = .ok (some resolved)) :
      LowersTo scope position reference (.column resolved.physical)
  | guarded {resolved : ResolvedColumn} {column : BoundColumn}
      (found : scope.binding.resolve reference = .ok (some resolved))
      (stored : resolved.target = .stored column) (double : column.model.type = .double) :
      LowersTo scope position reference (Physical.guardedDouble resolved.qualifier column.id)
  | unresolved {lowered : Expr} (nothing : scope.binding.resolve reference = .ok none)
      (kept : Unresolved scope position reference lowered) : LowersTo scope position reference lowered

theorem lowersTo_of_ok (ok : reference.lower scope position = .ok lowered) :
    LowersTo scope position reference lowered := by
  obtain ⟨found, resolves, rest⟩ := Except.of_bind ok
  cases found with
  | none => exact .unresolved resolves (unresolved_of_ok rest)
  | some resolved =>
    simp only at rest
    split at rest
    · next column stored =>
        split at rest
        · next test =>
            cases rest
            simp only [Bool.and_eq_true, decide_eq_true_eq] at test
            exact .guarded resolves (ResolvedColumn.target_of_stored stored) test.2
        · cases rest
          exact .physical resolves
    · cases rest
      exact .physical resolves

theorem resolve_of_required {binding : Binding} {resolved : ResolvedColumn}
    (ok : binding.resolveRequired reference = .ok resolved) :
    binding.resolve reference = .ok (some resolved) := by
  obtain ⟨found, resolves, rest⟩ := Except.of_bind ok
  cases found with
  | none => cases rest
  | some known =>
    cases rest
    exact resolves

theorem listColumn_of_ok {form : ListForm} {column : ListColumn}
    (ok : reference.listColumn scope form = .ok column) :
    ∃ resolved stored, scope.binding.resolve reference = .ok (some resolved) ∧
      resolved.target = .stored stored ∧ stored.model.type.isList = true ∧
      column = ⟨resolved.table.id, resolved.qualifier, stored.id, stored.model.type.element⟩ := by
  obtain ⟨resolved, required, rest⟩ := Except.of_bind ok
  split at rest
  · cases rest
  · next stored own =>
      split at rest <;> cases rest
      next list =>
        exact ⟨resolved, stored, resolve_of_required required,
          ResolvedColumn.target_of_stored own, list, rfl⟩

end ColumnRef

theorem DoubleTest.lower_of_ok {scope : Scope} {test : DoubleTest} {reference : ColumnRef}
    {lowered : Expr} (ok : test.lower scope reference = .ok lowered) :
    ∃ resolved stored, scope.binding.resolve reference = .ok (some resolved) ∧
      resolved.target = .stored stored ∧ stored.model.type = .double ∧
      (lowered = Physical.nanTest resolved.qualifier stored.id ∨
        lowered = Physical.infinityTest resolved.qualifier stored.id) := by
  obtain ⟨resolved, required, rest⟩ := Except.of_bind ok
  split at rest
  · next stored own =>
      split at rest
      · next double =>
          refine ⟨resolved, stored, ColumnRef.resolve_of_required required,
            ResolvedColumn.target_of_stored own, double, ?_⟩
          cases test <;> cases rest
          · exact .inl rfl
          · exact .inr rfl
      · cases rest
  · cases rest

theorem CastTarget.lower_of_ok {schemas : Schemas} {target lowered : CastTarget}
    (ok : target.lower schemas = .ok lowered) : ∃ name, lowered = .physical name := by
  cases target with
  | type logical =>
    cases ok
    exact ⟨_, rfl⟩
  | column id =>
    simp only [CastTarget.lower] at ok
    split at ok <;> cases ok
    exact ⟨_, rfl⟩
  | physical name =>
    cases ok
    exact ⟨_, rfl⟩

theorem Expr.testedList_of_ok {scope : Scope} {form : ListForm} {tested : Expr} {column : ListColumn}
    (ok : tested.testedList scope form = .ok column) :
    ∃ reference, tested = .column reference ∧ reference.listColumn scope form = .ok column := by
  cases tested with
  | column reference => exact ⟨reference, rfl, ok⟩
  | _ => cases ok

/-- HAS is a list of values; HAS_LIKE is one pattern after the other. -/
theorem ListColumn.matching_of_ok {column : ListColumn} {pattern : Bool} {values : List Expr}
    {condition : Expr} (ok : column.matching pattern values = .ok condition) :
    condition = .inList column.elementExpr values false ∨ pattern = true ∧
      Expr.anyOf (values.map fun value => .like column.elementExpr value none false) =
        some condition := by
  unfold ListColumn.matching at ok
  split at ok
  · next patterns =>
      split at ok <;> cases ok
      next found => exact .inr ⟨patterns, found⟩
  · cases ok
    exact .inl rfl

/-! ## Lowered FROM clauses -/

theorem Source.conditions_mapTables (change : Nat → TableName → TableName) (source : Source) :
    (source.mapTables change).conditions = source.conditions := by
  match source with
  | .table only => rfl
  | .join left kind right condition =>
    have inner := conditions_mapTables change left
    simp [Source.mapTables, Source.conditions, inner]

theorem Binding.conditions_lowerTables (binding : Binding) (source : Source) :
    (binding.lowerTables source).conditions = source.conditions :=
  Source.conditions_mapTables _ source

theorem Source.conditions_withSideTables (source : Source) (columns : List ListColumn) :
    (source.withSideTables columns).conditions = source.conditions ++ columns.map fun column =>
      .equals (.column (Physical.metadataRef (some column.owner) .rowId))
        (.column (.plain (some column.sideTable) (Physical.elementRow column.id))) := by
  unfold withSideTables
  induction columns generalizing source with
  | nil => simp
  | cons column columns ih => simp [ih, ListColumn.joinTo, Source.conditions]

theorem Source.tables_withSideTables (source : Source) (columns : List ListColumn) :
    (source.withSideTables columns).tables =
      source.tables ++ columns.map fun column => ⟨column.sideTable, none⟩ := by
  unfold withSideTables
  induction columns generalizing source with
  | nil => simp
  | cons column columns ih => simp [ih, ListColumn.joinTo, Source.tables]

end TabularSql
