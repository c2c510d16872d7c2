import TabularSql.Proofs.Fragment
import TabularSql.Proofs.Lowering.Plans

/-!
# Statements over the physical store

What a lowered statement may hold, said of the statement alone: tables of the store and side tables of
list columns in FROM, columns that these tables bring in, no form of expression that only a logical
query has, and no subquery but the lookups of list elements. The last sections say what binding the
tables of a FROM clause guarantees about them.
-/

namespace TabularSql

set_option autoImplicit false

/-! ## The form of lowered statements -/

namespace Source

/-- The qualifier, if there is one, is a table of the clause or the alias of one. -/
def Names (source : Source) (qualifier : Option String) : Prop :=
  ∀ name ∈ qualifier, ∃ table ∈ source.tables, table.name = name ∨ table.alias? = some ⟨name, none⟩

/-- The clause reads a table, and the table has a column with this id. -/
def Reads (schemas : Schemas) (source : Source) (owner : TableId) (id : ColumnId) : Prop :=
  (∃ table ∈ source.tables, table.name = Physical.table owner) ∧
    ∃ model ∈ schemas.columnsOf owner, model.id = some id

end Source

namespace TableName

/-- A table of the store, or the side table of a column that the clause reads. -/
def IsStored (schemas : Schemas) (source : Source) (table : TableName) : Prop :=
  (∃ id, table.name = Physical.table id) ∨
    ∃ owner id, source.Reads schemas owner id ∧ table.name = Physical.sideTable owner id

end TableName

namespace ColumnRef

/-- A metadata column, or a stored column of a table that the clause reads: the column itself, its
shadow, or the elements and rows of its side table. -/
def IsPhysical (schemas : Schemas) (source : Source) (reference : ColumnRef) : Prop :=
  ∃ qualifier name, reference = .plain qualifier name ∧ source.Names qualifier ∧
    ((∃ metadata : MetadataName, name = metadata.text) ∨
      ∃ owner id, source.Reads schemas owner id ∧
        name ∈ [Physical.column id, Physical.shadow id, Physical.element id, Physical.elementRow id])

/-- A back-quoted name that the logical select writes in quotes and that stands for none of its
columns. -/
def IsLeftOver (schemas : Schemas) (logical : Select) (reference : ColumnRef) : Prop :=
  ∃ written binding, Fragment.Within (.expr (.column written)) (.select logical) ∧
    written.qualifier = none ∧ written.name.isDelimited = true ∧
    Binding.ofSource schemas logical.source = .ok binding ∧ binding.resolve written = .ok none ∧
    reference = ⟨none, .backQuoted written.name.name⟩

def IsAlias (lowered : Select) (reference : ColumnRef) : Prop :=
  reference.qualifier = none ∧ ∃ item ∈ lowered.projection.itemList, ∃ name ∈ item.alias?,
    name.name = reference.name.name

/-- What a reference in a clause other than GROUP BY and ORDER BY may be. -/
def InClause (schemas : Schemas) (logical lowered : Select) (reference : ColumnRef) : Prop :=
  reference.IsPhysical schemas lowered.source ∨ reference.IsLeftOver schemas logical

/-- What a reference in a key of GROUP BY or ORDER BY may be. -/
def InKey (schemas : Schemas) (logical lowered : Select) (reference : ColumnRef) : Prop :=
  reference.InClause schemas logical lowered ∨ reference.IsAlias lowered

end ColumnRef

namespace Expr

/-- The expression is none of the forms that lowering replaces, and a column reference is an allowed one;
what is inside may still be of any form. A wildcard stands for no column and is kept: it is only where the query
has one, as the argument of a call such as COUNT. -/
def IsLowered (schemas : Schemas) (source : Source) (allowed : ColumnRef → Prop) : Expr → Prop
  | column reference => allowed reference
  | cast _ target => ∃ name, target = .physical name
  | inQuery tested candidates negated => ∃ lists : ListColumn, ∃ condition,
      source.Reads schemas lists.table lists.id ∧
        inQuery tested candidates negated = lists.rowsWith condition negated
  | has .. | unnest _ | doubleTest .. | textMatches _ | currentUser => False
  | _ => True

end Expr

namespace Fragment

/-- The same of the fragments of an expression, lookups of list elements included. -/
def IsLowered (schemas : Schemas) (source : Source) (allowed : ColumnRef → Prop) : Fragment → Prop
  | expr whole => whole.IsLowered schemas source allowed
  | select whole => whole.projection ≠ .all ∧ whole.definingFilter = none ∧
      ∀ table ∈ whole.source.tables, table.IsStored schemas source
  | query whole => whole.commonTables = none ∧ whole.unions = []

end Fragment

namespace Select

/-- The lowered select is one over the physical store. -/
structure Lowered (schemas : Schemas) (logical lowered : Select) : Prop where
  star : lowered.projection ≠ .all
  defining : lowered.definingFilter = none
  tables : ∀ table ∈ lowered.source.tables, table.IsStored schemas lowered.source
  clauses : ∀ expr ∈ { lowered with groupBy := [], orderBy := [] : Select }.exprs,
    Fragment.Everywhere (Fragment.IsLowered schemas lowered.source
      (ColumnRef.InClause schemas logical lowered)) (.expr expr)
  keys : ∀ expr ∈ lowered.groupBy ++ lowered.orderBy.map SortKey.expr,
    Fragment.Everywhere (Fragment.IsLowered schemas lowered.source
      (ColumnRef.InKey schemas logical lowered)) (.expr expr)

end Select

namespace Plan

/-- The parts of the lowered query, and those of its common tables at every depth, are related to the
parts of the plan. -/
def Lowers (related : Select → Select → Prop) : Plan → Query → Prop
  | plain _ query, lowered =>
    lowered.commonTables = none ∧ List.Forall₂ related query.parts lowered.parts
  | layered _ query _ inner, lowered =>
    (∃ element, lowered.commonTables = some [element] ∧ inner.Lowers related element.query) ∧
      List.Forall₂ related query.parts lowered.parts

end Plan

/-! ## Table identifiers -/

namespace TableId

theorem trimBlanks_cons {first : Char} (visible : Text.isBlank first = false) (rest : List Char) :
    ∃ kept, Text.trimBlanks (first :: rest) = first :: kept := by
  have front : (first :: rest).dropWhile Text.isBlank = first :: rest := by simp [visible]
  have back : ((first :: rest).reverse.dropWhile Text.isBlank).reverse =
      first :: (rest.reverse.dropWhile Text.isBlank).reverse := by
    rw [List.reverse_cons, List.dropWhile_append]
    split <;> simp_all
  exact ⟨_, by rw [Text.trimBlanks, front, back]⟩

theorem ofChars?_cons {first : Char} (visible : Text.isBlank first = false)
    (unmarked : first.toLower ≠ 's') (undigit : first.isDigit = false) (rest : List Char) :
    ofChars? (first :: rest) = none := by
  obtain ⟨kept, trimmed⟩ := trimBlanks_cons visible rest
  have whole : dropMark (first :: kept) = first :: kept := by
    match kept with
    | [] | [_] | _ :: _ :: _ => simp [dropMark, unmarked]
  rw [ofChars?, trimmed, whole]
  by_cases point : first = '.'
  · simp [readBody, point, readNumber, Number.readDigits]
  · unfold readBody
    split <;> simp [point, undigit, readNumber, Number.readDigits]

end TableId

/-! ## Bound tables -/

namespace Binding

variable {binding : Binding} {schemas : Schemas} {source : Source}

theorem bindTable_of_ok {several : Bool} {table : TableName} {index : Nat} {bound : BoundTable}
    (ok : bindTable schemas several table index = .ok bound) :
    BoundTable.bindColumns bound.id (schemas.columnsOf bound.id) = .ok bound.columns := by
  obtain ⟨id, _, ok⟩ := Except.of_bind ok
  obtain ⟨columns, binds, ok⟩ := Except.of_bind ok
  cases ok
  exact binds

theorem bindColumns_model {id : TableId} {models : List ColumnModel} {columns : List BoundColumn}
    (ok : BoundTable.bindColumns id models = .ok columns) {column : BoundColumn}
    (member : column ∈ columns) : column.model ∈ models ∧ column.model.id = some column.id := by
  have each : ∀ column ∈ columns, column.model ∈ models ∧ column.model.id = some column.id := by
    refine forall₂_right (Except.forall₂_of_mapM ok) fun model listed result own => ?_
    split at own <;> cases own
    next id same => exact ⟨listed, same⟩
  exact each column member

theorem forall₂_of_ofSource (ok : ofSource schemas source = .ok binding) :
    List.Forall₂ (fun (pair : TableName × Nat) bound =>
      bindTable schemas source.isJoin pair.1 pair.2 = .ok bound) source.tables.zipIdx
      binding.tables := by
  obtain ⟨tables, binds, ok⟩ := Except.of_bind ok
  cases ok
  exact Except.forall₂_of_mapM binds

theorem column_model (ok : ofSource schemas source = .ok binding) {bound : BoundTable}
    (member : bound ∈ binding.tables) {column : BoundColumn} (own : column ∈ bound.columns) :
    column.model ∈ schemas.columnsOf bound.id ∧ column.model.id = some column.id := by
  have binds := forall₂_right (forall₂_of_ofSource ok)
    (fun _ _ result given => bindTable_of_ok given) bound member
  exact bindColumns_model binds own

theorem length_tables (ok : ofSource schemas source = .ok binding) :
    binding.tables.length = source.tables.length := by
  have same := (forall₂_of_ofSource ok).length_eq
  rw [List.length_zipIdx] at same
  exact same.symm

theorem tables_mapTables (change : Nat → TableName → TableName) (source : Source) :
    (source.mapTables change).tables = source.tables.mapIdx change := by
  match source with
  | .table only => rfl
  | .join left kind right condition =>
    have inner := tables_mapTables change left
    simp [Source.mapTables, Source.tables, inner]

theorem tables_lowerTables (ok : ofSource schemas source = .ok binding) :
    (binding.lowerTables source).tables = binding.tables.map BoundTable.physicalName := by
  have same := length_tables ok
  rw [lowerTables, tables_mapTables]
  refine List.ext_getElem (by simp [same]) fun index first second => ?_
  simp only [List.length_map] at second
  simp [List.getElem?_eq_getElem second]

theorem resolve_table {reference : ColumnRef} {resolved : ResolvedColumn}
    (ok : binding.resolve reference = .ok (some resolved)) :
    resolved.table ∈ binding.tables ∧
      ∀ column, resolved.target = .stored column → column ∈ resolved.table.columns := by
  have candidate {table : BoundTable} (member : table ∈ binding.candidates reference) :
      table ∈ binding.tables := by
    unfold candidates at member
    split at member
    · exact List.mem_of_mem_filter member
    · exact member
  unfold resolve at ok
  simp only at ok
  split at ok
  · next found hits =>
      cases ok
      have hit := List.mem_singleton_self resolved
      rw [← hits] at hit
      obtain ⟨table, listed, found⟩ := List.mem_filterMap.mp hit
      obtain ⟨column, own, rfl⟩ := Option.map_eq_some_iff.mp found
      refine ⟨candidate listed, fun other same => ?_⟩
      cases same
      exact List.mem_of_find?_eq_some own
  · cases ok
  · simp only [Except.ok.injEq] at ok
    obtain ⟨name, _, rest⟩ := Option.bind_eq_some_iff.mp ok
    obtain ⟨table, head, same⟩ := Option.bind_eq_some_iff.mp rest
    cases same
    exact ⟨candidate (List.mem_of_mem_head? head), nofun⟩

end Binding

end TabularSql
