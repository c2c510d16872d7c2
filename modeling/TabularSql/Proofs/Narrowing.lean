import TabularSql.Combined.Query
import TabularSql.Proofs.Lowering.Plans
import TabularSql.Proofs.Selection
import TabularSql.Query.Equality

/-!
# Narrowing of defining queries

DEFINING_WHERE is a condition on the query that defines a virtual table. It goes into the first part of the
defining query, beside the WHERE clause that stands there, and into no other part. So it is a condition on
every row of the table exactly if the defining query has no UNION.
-/

namespace TabularSql

set_option autoImplicit false

/-! ## Rows -/

/-- Which conditions hold of which rows. Parentheses change nothing, and AND holds if both sides do. -/
structure Truth (Row : Type) where
  holds : Expr → Row → Prop
  nested : ∀ inner row, holds (.nested inner) row ↔ holds inner row
  and : ∀ left right row, holds (.and left right) row ↔ holds left row ∧ holds right row

namespace Truth

variable {Row : Type} (truth : Truth Row)

/-- The conditions that are true in a row, not false or unknown. -/
def ofReading (Value : Type) : Truth (RowReading Value) where
  holds condition row := row.Passes condition
  nested inner row := row.passes_nested inner
  and left right row := row.passes_and left right

def Passes (part : Select) (row : Row) : Prop := ∀ own ∈ part.filter, truth.holds own row

theorem holds_parenthesized (expr : Expr) (row : Row) :
    truth.holds expr.parenthesized row ↔ truth.holds expr row := by
  unfold Expr.parenthesized
  split
  · rfl
  · exact truth.nested _ row

theorem passes_narrowed (part : Select) (condition : Expr) (row : Row) :
    truth.Passes (part.narrowed none (some condition)) row ↔
      truth.Passes part row ∧ truth.holds condition row := by
  cases own : part.filter with
  | none => simp [Passes, Select.narrowed, Expr.narrowed, own]
  | some filter =>
    simp [Passes, Select.narrowed, Expr.narrowed, own, truth.and, holds_parenthesized]

end Truth

/-! ## Parts -/

theorem Select.narrowed_ne (part : Select) (condition : Expr) :
    part.narrowed none (some condition) ≠ part := by
  intro same
  have kept : some (Expr.narrowed part.filter condition) = part.filter := congrArg Select.filter same
  cases own : part.filter with
  | none =>
    rw [own] at kept
    cases kept
  | some filter =>
    rw [own] at kept
    have grows : sizeOf filter < sizeOf (Expr.narrowed (some filter) condition) := by
      have inside : sizeOf filter ≤ sizeOf filter.parenthesized := by
        unfold Expr.parenthesized
        split <;> simp
      simp only [Expr.narrowed, Expr.and, Expr.binary.sizeOf_spec]
      omega
    rw [Option.some.inj kept] at grows
    exact Nat.lt_irrefl _ grows

namespace IndexDescription

/-- Groups cannot be narrowed; any other defining query is narrowed in its first part. -/
theorem narrow_iff {defining narrowed : Query} {condition : Expr} :
    narrow defining (some condition) = .ok narrowed ↔ defining.first.groupBy = [] ∧
      narrowed = { defining with first := defining.first.narrowed none (some condition) } := by
  unfold narrow
  cases defining.first.groupBy with
  | nil => cases own : defining.first.filter <;> simp [Select.narrowed, Expr.narrowed, own, eq_comm]
  | cons key rest => simp

theorem narrowed_parts_iff {defining : Query} {condition : Expr} :
    ({ defining with first := defining.first.narrowed none (some condition) : Query }).parts =
        defining.parts.map (Select.narrowed none (some condition)) ↔ defining.unions = [] := by
  cases unions : defining.unions with
  | nil => simp [Query.parts, unions]
  | cons branch rest =>
    simp only [Query.parts, unions, List.map_cons, List.cons.injEq, reduceCtorEq, iff_false]
    rintro ⟨_, same, _⟩
    exact Select.narrowed_ne _ _ same.symm

/-- A query with DEFINING_WHERE over a virtual table. It is prepared exactly if it is one part over one table
without a WITH clause and the first part of the defining query has no GROUP BY. The condition then narrows
the first part of the defining query, nothing else of it changes, and the query keeps its own WHERE. All
parts are narrowed exactly if the defining query has no UNION. -/
theorem defining_filter_narrows_first (id : TableId) (text : String) (query : Query) (condition : Expr)
    (filtered : query.first.definingFilter = some condition) :
    ((∃ prepared, (virtualTable id text).prepare query = .ok prepared) ↔
      query.unions = [] ∧ query.first.source.isJoin = false ∧ query.commonTables = none ∧
        ∃ defining, Query.parse text = .ok defining ∧ defining.first.groupBy = []) ∧
    ∀ prepared, (virtualTable id text).prepare query = .ok prepared →
      ∃ defining narrowed, Query.parse text = .ok defining ∧
        prepared = { query with
          commonTables := some [⟨⟨Physical.table id, none⟩, [], narrowed⟩]
          first := { query.first with definingFilter := none } } ∧
        narrowed = { defining with first := defining.first.narrowed none (some condition) } ∧
        (∀ (Row : Type) (truth : Truth Row) (row : Row), truth.Passes narrowed.first row ↔
          truth.Passes defining.first row ∧ truth.holds condition row) ∧
        (narrowed.parts = defining.parts.map (Select.narrowed none (some condition)) ↔
          defining.unions = []) := by
  simp only [prepare_virtual_iff, filtered, narrow_iff]
  constructor
  · constructor
    · rintro ⟨_, single, one, plain, defining, _, parsed, ⟨ungrouped, _⟩, _⟩
      exact ⟨single, one, plain, defining, parsed, ungrouped⟩
    · rintro ⟨single, one, plain, defining, parsed, ungrouped⟩
      exact ⟨_, single, one, plain, defining, _, parsed, ⟨ungrouped, rfl⟩, rfl⟩
  · rintro prepared ⟨_, _, _, defining, _, parsed, ⟨_, rfl⟩, rfl⟩
    exact ⟨defining, _, parsed, rfl, rfl,
      fun Row truth row => truth.passes_narrowed defining.first condition row, narrowed_parts_iff⟩

/-- `SELECT foo FROM syn2 DEFINING_WHERE foo = 'a' WHERE foo = 'b'` -/
def narrowingQuery : Query :=
  .single { Select.simple (.items [⟨.named "foo", none⟩]) (.named "syn2") with
    definingFilter := some (.equals (.named "foo") (.string "a"))
    filter := some (.equals (.named "foo") (.string "b")) }

/-- `SELECT foo FROM ..`, perhaps with a condition. -/
def narrowedPart (table : String) (filter : Option Expr) : Select :=
  { Select.simple (.items [⟨.named "foo", none⟩]) (.named table) with filter }

/-- `SELECT foo FROM syn1 WHERE bar = 1 OR bar = 2` -/
def alternativeDefinition : Query :=
  let test (value : String) : Expr := .equals (.named "bar") (.literal (.number value))
  .single (narrowedPart "syn1" (some (.or (test "1") (test "2"))))

/-- `SELECT foo FROM syn1 UNION SELECT foo FROM syn3` -/
def unitedDefinition : Query :=
  { Query.single (narrowedPart "syn1" none) with unions := [⟨false, narrowedPart "syn3" none⟩] }

theorem narrowingQuery_prepared {text : String} {defining : Query} (parsed : Query.parse text = .ok defining)
    (ungrouped : defining.first.groupBy = []) :
    (virtualTable ⟨2, none⟩ text).prepare narrowingQuery = .ok { narrowingQuery with
      commonTables := some [⟨⟨Physical.table ⟨2, none⟩, none⟩, [], { defining with
        first := defining.first.narrowed none (some (.equals (.named "foo") (.string "a"))) }⟩]
      first := { narrowingQuery.first with definingFilter := none } } :=
  prepare_virtual_iff.mpr
    ⟨rfl, rfl, rfl, defining, _, parsed, narrow_iff.mpr ⟨ungrouped, rfl⟩, rfl⟩

theorem defining_filter_narrows_first_beside_or :
    ∃ prepared defining narrowed,
      (virtualTable ⟨2, none⟩ "select foo from syn1 where bar = 1 or bar = 2").prepare narrowingQuery =
        .ok prepared ∧
      prepared.text = "WITH T2 AS (SELECT foo FROM syn1 WHERE ( bar = 1 OR bar = 2 ) AND ( foo = 'a' )) " ++
        "SELECT foo FROM syn2 WHERE foo = 'b'" ∧
      Query.parse "select foo from syn1 where bar = 1 or bar = 2" = .ok defining ∧
      prepared.commonTables = some [⟨⟨Physical.table ⟨2, none⟩, none⟩, [], narrowed⟩] ∧
      narrowed.parts = defining.parts.map
        (Select.narrowed none (some (.equals (.named "foo") (.string "a")))) ∧
      ∀ (Value : Type) (row : RowReading Value), (Truth.ofReading Value).Passes narrowed.first row ↔
        (Truth.ofReading Value).Passes defining.first row ∧
          row.Passes (.equals (.named "foo") (.string "a")) := by
  have parsed : Query.parse "select foo from syn1 where bar = 1 or bar = 2" =
      .ok alternativeDefinition := by decide +kernel
  have prepares := narrowingQuery_prepared parsed rfl
  obtain ⟨defining, narrowed, also, _, narrows, rows, parts⟩ :=
    (defining_filter_narrows_first _ _ narrowingQuery _ rfl).2 _ prepares
  cases parsed.symm.trans also
  subst narrows
  exact ⟨_, alternativeDefinition, _, prepares, by decide +kernel, parsed, rfl, parts.mpr rfl,
    fun Value row => rows _ (Truth.ofReading Value) row⟩

/-- The rows of a UNION branch are not filtered. -/
theorem defining_filter_misses_branch :
    ∃ prepared defining narrowed,
      (virtualTable ⟨2, none⟩ "select foo from syn1 union select foo from syn3").prepare narrowingQuery =
        .ok prepared ∧
      prepared.text = "WITH T2 AS (SELECT foo FROM syn1 WHERE foo = 'a' UNION SELECT foo FROM syn3) " ++
        "SELECT foo FROM syn2 WHERE foo = 'b'" ∧
      Query.parse "select foo from syn1 union select foo from syn3" = .ok defining ∧
      prepared.commonTables = some [⟨⟨Physical.table ⟨2, none⟩, none⟩, [], narrowed⟩] ∧
      narrowed.parts ≠ defining.parts.map
        (Select.narrowed none (some (.equals (.named "foo") (.string "a")))) := by
  have parsed : Query.parse "select foo from syn1 union select foo from syn3" =
      .ok unitedDefinition := by decide +kernel
  refine ⟨_, unitedDefinition, _, narrowingQuery_prepared parsed rfl, by decide +kernel, parsed, rfl, ?_⟩
  exact narrowed_parts_iff.not.mpr (List.cons_ne_nil _ _)

end IndexDescription

end TabularSql
