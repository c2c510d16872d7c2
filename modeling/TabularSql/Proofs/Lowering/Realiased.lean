import Mathlib.Data.List.Nodup
import TabularSql.Proofs.Lowering.Parallel
import TabularSql.Proofs.Lowering.Requalified

/-!
# Selects with other aliases

The aliases of a FROM clause are renamed, and the qualifiers of the select with them. If the renaming keeps
the qualifiers apart that the select uses, its tables are bound as before, its star stands for the same
columns, and it is lowered to the same select over the store: tables are known by their positions there.
Only the names of output columns can spell a qualifier out.
-/

namespace TabularSql

set_option autoImplicit false

/-! ## Renamed selects -/

def TableName.realias (names : Renaming) (table : TableName) : TableName :=
  { table with alias? := table.alias?.map names.qualifier }

namespace Source

def realias (names : Renaming) : Source → Source
  | table only => table (only.realias names)
  | join left kind right condition =>
    join (left.realias names) kind (right.realias names) (condition.requalify names)

def aliasNames (source : Source) : List String :=
  source.tables.filterMap fun listed => listed.alias?.map Identifier.name

def plainNames (source : Source) : List String :=
  source.tables.filterMap fun listed => if listed.alias?.isNone then some listed.name else none

end Source

def SelectItem.requalify (names : Renaming) (item : SelectItem) : SelectItem :=
  ⟨item.expr.requalify names, item.alias?⟩

def Projection.requalify (names : Renaming) : Projection → Projection
  | all => all
  | items list => items (list.map (SelectItem.requalify names))

def SortKey.requalify (names : Renaming) (key : SortKey) : SortKey :=
  ⟨key.expr.requalify names, key.direction⟩

def Page.requalify (names : Renaming) (page : Page) : Page :=
  ⟨page.limit.requalify names, page.offset.map (Expr.requalify names)⟩

namespace Select

/-- The select with new aliases, and with its qualifiers renamed. A condition on a defining query is left as
it is, since its qualifiers belong to that query. -/
def realias (names : Renaming) (part : Select) : Select :=
  { part with
    projection := part.projection.requalify names
    source := part.source.realias names
    filter := part.filter.map (Expr.requalify names)
    groupBy := part.groupBy.map (Expr.requalify names)
    orderBy := part.orderBy.map (SortKey.requalify names)
    page := part.page.map (Page.requalify names) }

def tableClauses (part : Select) : List Expr :=
  part.projection.itemList.map SelectItem.expr ++ part.source.conditions ++ part.filter.toList ++
    part.groupBy ++ part.orderBy.map SortKey.expr

theorem mem_tableClauses {part : Select} {expr : Expr} : expr ∈ part.tableClauses ↔
    (∃ item ∈ part.projection.itemList, item.expr = expr) ∨ expr ∈ part.source.conditions ∨
      expr ∈ part.filter ∨ expr ∈ part.groupBy ∨ ∃ key ∈ part.orderBy, key.expr = expr := by
  simp only [tableClauses, List.mem_append, List.mem_map, Option.mem_toList, Option.mem_def, or_assoc]

/-- The names that qualify columns in the select; a star qualifies the columns of every table. -/
def qualifiers (part : Select) : List String :=
  (part.tableClauses.flatMap Expr.references).filterMap (fun reference =>
    reference.qualifier.map Identifier.name) ++
    match part.projection with
    | .all => part.source.tables.map TableName.qualifierName
    | .items _ => []

end Select

/-- The renaming gives the aliases of a select new names, which differ from one another and from the names of
the other tables. -/
structure Renaming.Renames (names : Renaming) (part : Select) : Prop where
  /-- Only the name counts, not its quotes. -/
  consistent {one two : Identifier} : one.name = two.name →
    (names.qualifier one).name = (names.qualifier two).name
  /-- Only aliases are renamed. -/
  others {name : Identifier} : name.name ∉ part.source.aliasNames → names.qualifier name = name
  injective {one two : Identifier} : one.name ∈ part.source.aliasNames →
    two.name ∈ part.source.aliasNames →
    (names.qualifier one).name = (names.qualifier two).name → one.name = two.name
  /-- No new alias is the name of a table without alias. -/
  fresh {name : Identifier} : name.name ∈ part.source.aliasNames →
    (names.qualifier name).name ∉ part.source.plainNames

/-- The renaming also keeps the qualifiers apart that a select uses. -/
structure Renaming.Suits (names : Renaming) (part : Select) : Prop extends names.Renames part where
  /-- No new alias is a qualifier that did not name an alias. -/
  uncaptured {name : Identifier} : name.name ∈ part.source.aliasNames →
    (names.qualifier name).name ∈ part.qualifiers →
    (names.qualifier name).name ∈ part.source.aliasNames
  /-- No qualifier names both an alias and a table without alias. -/
  unshared {name : String} : name ∈ part.source.aliasNames → name ∈ part.source.plainNames →
    name ∉ part.qualifiers

namespace Renaming

/-- The renaming that is given by pairs of old and new names. -/
def of (pairs : List (String × String)) : Renaming where
  qualifier name := { name with name := (pairs.lookup name.name).getD name.name }
  subquery := id

variable {pairs : List (String × String)} {part : Select}

theorem qualifier_of {name : Identifier} (listed : name.name ∈ pairs.map Prod.fst) :
    (name.name, ((of pairs).qualifier name).name) ∈ pairs := by
  obtain ⟨pair, member, same⟩ := List.mem_map.mp listed
  obtain ⟨value, found⟩ := Option.isSome_iff_exists.mp
    (List.lookup_isSome_iff.mpr ⟨pair, member, beq_iff_eq.mpr same.symm⟩)
  obtain ⟨before, after, rfl, _⟩ := List.lookup_eq_some_iff.mp found
  simp [of, found]

theorem qualifier_of_absent {name : Identifier} (absent : name.name ∉ pairs.map Prod.fst) :
    (of pairs).qualifier name = name := by
  have missing : pairs.lookup name.name = none := by
    rw [List.lookup_eq_none_iff]
    intro pair member
    rw [bne_iff_ne]
    intro same
    exact absent (same ▸ List.mem_map_of_mem member)
  simp [of, missing]

theorem renames_of (keys : pairs.map Prod.fst = part.source.aliasNames)
    (distinct : (pairs.map Prod.snd).Nodup) (fresh : ∀ pair ∈ pairs, pair.2 ∉ part.source.plainNames) :
    (of pairs).Renames part where
  consistent same := by simp [of, same]
  others absent := qualifier_of_absent (keys ▸ absent)
  injective one two same := by
    rw [← keys] at one two
    exact congrArg Prod.fst (List.inj_on_of_nodup_map distinct (qualifier_of one) (qualifier_of two) same)
  fresh listed := by
    rw [← keys] at listed
    exact fresh _ (qualifier_of listed)

theorem suits_of (renames : (of pairs).Renames part) (keys : pairs.map Prod.fst = part.source.aliasNames)
    (uncaptured : ∀ pair ∈ pairs, pair.2 ∈ part.qualifiers → pair.2 ∈ part.source.aliasNames)
    (unshared : ∀ name ∈ part.source.aliasNames, name ∈ part.source.plainNames → name ∉ part.qualifiers) :
    (of pairs).Suits part where
  toRenames := renames
  uncaptured listed := by
    rw [← keys] at listed
    exact uncaptured _ (qualifier_of listed)
  unshared listed := unshared _ listed

end Renaming

/-! ## Bound tables under new aliases -/

namespace Binding

variable {names : Renaming} {schemas : Schemas}

theorem tables_realias (source : Source) :
    (source.realias names).tables = source.tables.map (TableName.realias names) := by
  match source with
  | .table only => rfl
  | .join left kind right condition =>
    have inner := tables_realias left
    simp [Source.realias, Source.tables, inner]

theorem isJoin_realias (source : Source) : (source.realias names).isJoin = source.isJoin := by
  cases source <;> rfl

theorem leading_realias (source : Source) : (source.realias names).leading.name = source.leading.name := by
  match source with
  | .table only => rfl
  | .join left kind right condition => exact leading_realias left

theorem alike_bindTable (several : Bool) (table : TableName) (index : Nat) :
    Except.Alike (fun bound other => other = BoundTable.realias names bound)
      (bindTable schemas several table index)
      (bindTable schemas several (table.realias names) index) := by
  apply Except.Alike.bind (.refl (fun _ => rfl) _)
  rintro id _ _ rfl
  apply Except.Alike.bind (.refl (fun _ => rfl) _)
  rintro columns _ _ rfl
  exact .ok rfl

theorem alike_ofSource (source : Source) :
    Except.Alike (fun binding other => other = realias names binding) (ofSource schemas source)
      (ofSource schemas (source.realias names)) := by
  have pairs : List.Forall₂ (fun pair other => other = Prod.map (TableName.realias names) id pair)
      source.tables.zipIdx (source.realias names).tables.zipIdx := by
    rw [tables_realias, List.zipIdx_map, List.forall₂_map_right_iff]
    exact List.forall₂_same.mpr fun _ _ => rfl
  unfold ofSource
  rw [isJoin_realias]
  apply Except.Alike.bind
  · apply Except.Alike.mapM pairs
    rintro pair _ rfl
    exact alike_bindTable source.isJoin pair.1 pair.2
  intro tables others _ listed
  exact .ok (congrArg Binding.mk (eq_map_of_forall₂ listed))

theorem listed_of_ofSource {source : Source} {binding : Binding}
    (binds : ofSource schemas source = .ok binding) {bound : BoundTable} (member : bound ∈ binding.tables) :
    ∃ table ∈ source.tables, bound.alias? = table.alias? ∧ bound.written = table.name := by
  have each : ∀ bound ∈ binding.tables, ∃ table ∈ source.tables, bound.alias? = table.alias? ∧
      bound.written = table.name := by
    refine forall₂_right (forall₂_of_ofSource binds) fun pair listed bound own => ?_
    obtain ⟨aliased, written, _⟩ := bound_of_bindTable own
    exact ⟨pair.1, List.fst_mem_of_mem_zipIdx listed, aliased, written⟩
  exact each bound member

end Binding

namespace Renaming.Suits

variable {names : Renaming} {schemas : Schemas} {part : Select} {binding : Binding}

theorem finds (suits : names.Suits part) (binds : Binding.ofSource schemas part.source = .ok binding)
    {reference : ColumnRef} (used : ∀ name ∈ reference.qualifier, name.name ∈ part.qualifiers) :
    names.Finds binding reference := by
  obtain ⟨_ | name, column⟩ := reference
  · rfl
  · have known := used name rfl
    show (binding.tables.map (BoundTable.realias names)).filter _ = (binding.tables.filter _).map _
    rw [List.filter_map]
    congr 1
    apply List.filter_congr
    intro bound member
    obtain ⟨table, listed, aliased, written⟩ := Binding.listed_of_ofSource binds member
    show (BoundTable.qualifierName (bound.realias names) == (names.qualifier name).name) =
      (bound.qualifierName == name.name)
    simp only [BoundTable.qualifierName, BoundTable.realias, aliased, written]
    rw [Bool.eq_iff_iff, beq_iff_eq, beq_iff_eq]
    cases given : table.alias? with
    | some own =>
      -- The table goes by its alias: no two aliases become the same, and no stray qualifier becomes one.
      have isAlias : own.name ∈ part.source.aliasNames :=
        List.mem_filterMap.mpr ⟨table, listed, by rw [given]; rfl⟩
      show (names.qualifier own).name = (names.qualifier name).name ↔ own.name = name.name
      by_cases renamed : name.name ∈ part.source.aliasNames
      · exact ⟨suits.injective isAlias renamed, suits.consistent⟩
      · rw [suits.others renamed]
        constructor
        · intro same
          exact absurd (same ▸ suits.uncaptured isAlias (same ▸ known)) renamed
        · intro same
          exact absurd (same ▸ isAlias) renamed
    | none =>
      -- The table goes by its own name, which no alias in use has before or afterwards.
      have isPlain : table.name ∈ part.source.plainNames :=
        List.mem_filterMap.mpr ⟨table, listed, by rw [given]; rfl⟩
      show table.name = (names.qualifier name).name ↔ table.name = name.name
      by_cases renamed : name.name ∈ part.source.aliasNames
      · constructor
        · intro same
          exact absurd (same ▸ isPlain) (suits.fresh renamed)
        · intro same
          exact absurd known (suits.unshared renamed (same ▸ isPlain))
      · rw [suits.others renamed]

theorem keeps (suits : names.Suits part) (binds : Binding.ofSource schemas part.source = .ok binding) :
    ∀ expr ∈ part.tableClauses, names.Keeps binding expr := by
  intro expr member reference found
  apply suits.finds binds
  intro name given
  apply List.mem_append_left
  exact List.mem_filterMap.mpr ⟨reference, List.mem_flatMap.mpr ⟨expr, member, found⟩, by rw [given]; rfl⟩

theorem mem_qualifiers (all : part.projection = .all) {table : TableName}
    (listed : table ∈ part.source.tables) : table.qualifierName ∈ part.qualifiers := by
  apply List.mem_append_right
  rw [all]
  exact List.mem_map_of_mem listed

theorem starQualifier (suits : names.Suits part) (all : part.projection = .all)
    (binds : Binding.ofSource schemas part.source = .ok binding) {bound : BoundTable}
    (member : bound ∈ binding.tables) :
    (binding.realias names).starQualifier (bound.realias names) =
      (binding.starQualifier bound).map names.qualifier := by
  obtain ⟨table, listed, aliased, written⟩ := Binding.listed_of_ofSource binds member
  have used := mem_qualifiers all listed
  have join : (binding.realias names).isJoin = binding.isJoin := by
    simp [Binding.isJoin, Binding.realias]
  simp only [Binding.starQualifier, BoundTable.realias, aliased, join, written]
  cases given : table.alias? with
  | some own => rfl
  | none =>
    have isPlain : table.name ∈ part.source.plainNames :=
      List.mem_filterMap.mpr ⟨table, listed, by rw [given]; rfl⟩
    have kept : names.qualifier ⟨table.name, none⟩ = ⟨table.name, none⟩ := by
      apply suits.others
      intro renamed
      exact suits.unshared renamed isPlain (by simpa [TableName.qualifierName, given] using used)
    cases binding.isJoin with
    | true => simp [kept]
    | false => rfl

theorem starItems (suits : names.Suits part) (all : part.projection = .all)
    (binds : Binding.ofSource schemas part.source = .ok binding) :
    (binding.realias names).starItems = binding.starItems.map (SelectItem.requalify names) := by
  rw [Binding.starItems, Binding.starItems, Binding.realias, List.flatMap_map, List.map_flatMap]
  apply List.flatMap_congr
  intro bound member
  have qualifier := suits.starQualifier all binds member
  rw [List.map_map]
  apply List.map_congr_left
  intro column _
  show SelectItem.mk (.column ⟨(binding.realias names).starQualifier (bound.realias names), _⟩) none = _
  rw [qualifier]
  rfl

theorem alike_star (suits : names.Suits part) (all : part.projection = .all)
    (binds : Binding.ofSource schemas part.source = .ok binding) :
    Except.Alike (fun items other => other = items.map (SelectItem.requalify names)) binding.star
      (binding.realias names).star := by
  have items := suits.starItems all binds
  obtain ⟨tables⟩ := binding
  cases tables with
  | nil => exact .ok rfl
  | cons first rest =>
    have empty : (((first :: rest).map (BoundTable.realias names)).all fun table =>
        table.columns.isEmpty) = (first :: rest).all fun table => table.columns.isEmpty := by
      rw [List.all_map]
      rfl
    show Except.Alike _ (if (first :: rest).all _ then _ else _)
      (if ((first :: rest).map (BoundTable.realias names)).all _ then _ else _)
    rw [empty, items]
    exact .ite (.error _ _) (.ok rfl)

end Renaming.Suits

/-- What a part was bound to, and what it was bound to after the renaming. -/
structure Renaming.Binds (names : Renaming) (one two : Binding × Select) : Prop where
  same : two = (one.1.realias names, one.2.realias names)
  keeps : ∀ expr ∈ one.2.tableClauses, names.Keeps one.1 expr
  listed : one.1.tables.length = one.2.source.tables.length

namespace Renaming.Suits

variable {names : Renaming} {schemas : Schemas} {part : Select} {binding : Binding}

theorem keeps_star (suits : names.Suits part) (all : part.projection = .all)
    (binds : Binding.ofSource schemas part.source = .ok binding) {items : List SelectItem}
    (star : binding.star = .ok items) : ∀ item ∈ items, names.Keeps binding item.expr := by
  intro item member
  obtain ⟨bound, inside, column, _, rfl⟩ := Binding.star_columns star item member
  obtain ⟨table, listed, aliased, written⟩ := Binding.listed_of_ofSource binds inside
  intro reference found
  obtain rfl : reference = _ := by simpa [Expr.references, Expr.subexpressions, Expr.reference?] using found
  apply suits.finds binds
  intro name given
  have named : name.name = table.qualifierName := by
    simp only [Binding.starQualifier, aliased, written, Option.mem_def] at given
    cases own : table.alias? with
    | some known =>
      rw [own] at given
      cases given
      simp [TableName.qualifierName, own]
    | none =>
      rw [own] at given
      simp only [Option.ite_none_right_eq_some, Option.some.injEq] at given
      rw [← given.2]
      simp [TableName.qualifierName, own]
  rw [named]
  exact mem_qualifiers all listed

theorem alike_bindTables (suits : names.Suits part) :
    Except.Alike names.Binds (part.bindTables schemas) ((part.realias names).bindTables schemas) := by
  apply Except.Alike.bind (Binding.alike_ofSource part.source)
  rintro binding _ binds rfl
  have keeps := suits.keeps binds
  have listed := Binding.length_tables binds
  have projection : (part.realias names).projection = part.projection.requalify names := rfl
  rw [projection]
  cases given : part.projection with
  | items list => exact .ok ⟨rfl, keeps, listed⟩
  | all =>
    apply Except.Alike.bind (suits.alike_star given binds)
    rintro items _ star rfl
    refine .ok ⟨rfl, ?_, listed⟩
    intro expr member
    rcases Select.mem_tableClauses.mp member with ⟨item, among, rfl⟩ | behind
    · exact suits.keeps_star given binds star item among
    · exact keeps expr (Select.mem_tableClauses.mpr (.inr behind))

end Renaming.Suits

/-! ## Output columns -/

def ColumnModel.unnamed (model : ColumnModel) : ColumnModel := { model with name := "" }

section

variable {names : Renaming} {schemas : Schemas} {binding : Binding}

theorem Expr.castSource_requalify (expr : Expr) :
    (expr.requalify names).castSource schemas = expr.castSource schemas := by
  have same : (Expr.castColumn? ∘ Expr.requalify names) = Expr.castColumn? := by
    funext part
    cases part with
    | cast operand target => cases target <;> rfl
    | _ => rfl
  rw [Expr.castSource, Expr.castSource, Expr.subexpressions_requalify, List.findSome?_map, same]

theorem Expr.containsSetFunction_requalify (expr : Expr) :
    (expr.requalify names).containsSetFunction = expr.containsSetFunction := by
  have same : (Expr.isSetFunction ∘ Expr.requalify names) = Expr.isSetFunction := by
    funext part
    cases part <;> rfl
  rw [Expr.containsSetFunction, Expr.containsSetFunction, Expr.subexpressions_requalify, List.any_map,
    same]

theorem Projection.itemList_requalify (projection : Projection) :
    (projection.requalify names).itemList = projection.itemList.map (SelectItem.requalify names) := by
  cases projection <;> rfl

theorem Select.isAggregate_realias (part : Select) :
    (part.realias names).isAggregate = part.isAggregate := by
  have items : (part.projection.requalify names).containsSetFunction =
      part.projection.containsSetFunction := by
    rw [Projection.containsSetFunction, Projection.itemList_requalify, List.any_map]
    congr 1
    funext item
    exact Expr.containsSetFunction_requalify item.expr
  simp only [Select.isAggregate, Select.realias, items, List.isEmpty_map]

theorem Select.aliases_realias (part : Select) : (part.realias names).aliases = part.aliases := by
  rw [Select.aliases, Select.realias, Projection.itemList_requalify, List.filterMap_map]
  rfl

theorem SelectItem.columnSource_requalify {reference : ColumnRef} (finds : names.Finds binding reference) :
    SelectItem.columnSource (binding.realias names) (reference.requalify names) =
      SelectItem.columnSource binding reference := by
  simp only [SelectItem.columnSource, Renaming.resolve?_requalify finds]
  cases binding.resolve? reference <;> rfl

theorem SelectItem.source_requalify {item : SelectItem} (keeps : names.Keeps binding item.expr) :
    ((item.requalify names).nameAndSource schemas (binding.realias names)).2 =
      (item.nameAndSource schemas binding).2 := by
  obtain ⟨expr, _ | name⟩ := item
  · have casts : (expr.requalify names).castSource schemas = expr.castSource schemas :=
      Expr.castSource_requalify expr
    cases expr with
    | column reference => exact SelectItem.columnSource_requalify (keeps.own rfl)
    | cast operand target =>
      cases target with
      | column id => rfl
      | _ => exact casts
    | _ => exact casts
  · exact Expr.castSource_requalify expr

theorem SelectItem.unnamed_describe (binding : Binding) (item : SelectItem) :
    (item.describe schemas binding).unnamed =
      { id := (item.nameAndSource schemas binding).2.bind ColumnModel.id
        name := ""
        type := (item.expr.infer schemas binding).getD .string
        maxSize := (item.nameAndSource schemas binding).2.bind ColumnModel.maxSize
        maxListLength := (item.nameAndSource schemas binding).2.bind ColumnModel.maxListLength } :=
  rfl

theorem SelectItem.describe_requalify {item : SelectItem} (keeps : names.Keeps binding item.expr) :
    ((item.requalify names).describe schemas (binding.realias names)).unnamed =
      (item.describe schemas binding).unnamed := by
  have type : (item.requalify names).expr.infer schemas (binding.realias names) =
      item.expr.infer schemas binding := Expr.infer_requalify schemas item.expr keeps
  rw [SelectItem.unnamed_describe, SelectItem.unnamed_describe, SelectItem.source_requalify keeps, type]

end

namespace Renaming.Binds

variable {names : Renaming} {one two : Binding × Select} (binds : names.Binds one two)

include binds

theorem binding_eq : two.1 = one.1.realias names := by rw [binds.same]

theorem part_eq : two.2 = one.2.realias names := by rw [binds.same]

theorem isAggregate : two.2.isAggregate = one.2.isAggregate := by
  rw [binds.part_eq, Select.isAggregate_realias]

theorem describe (schemas : Schemas) :
    (two.2.describe schemas two.1).map ColumnModel.unnamed =
      (one.2.describe schemas one.1).map ColumnModel.unnamed := by
  rw [binds.binding_eq, binds.part_eq, Select.describe, Select.describe, Select.realias,
    Projection.itemList_requalify, List.map_map, List.map_map, List.map_map]
  apply List.map_congr_left
  intro item member
  apply SelectItem.describe_requalify
  exact binds.keeps _ (Select.mem_tableClauses.mpr (.inl ⟨item, member, rfl⟩))

theorem paged (page : Option Page) :
    names.Binds (one.1, { one.2 with page }) (two.1, { two.2 with page := page.map (Page.requalify names) })
    where
  same := by rw [binds.same]; rfl
  keeps := binds.keeps
  listed := binds.listed

end Renaming.Binds

/-! ## Windows -/

section

variable {names : Renaming}

theorem Page.alike_rowCount (expr : Expr) :
    Except.Alike Eq (rowCount expr) (rowCount (expr.requalify names)) := by
  cases expr with
  | literal => exact .refl (fun _ => rfl) _
  | _ => exact .error _ _

theorem Page.alike_offset (offset : Option Expr) :
    Except.Alike Eq (offset.mapM rowCount) ((offset.map (Expr.requalify names)).mapM rowCount) := by
  cases offset with
  | none => exact .ok rfl
  | some expr =>
    apply Except.Alike.bind (Page.alike_rowCount expr)
    rintro count _ _ rfl
    exact .ok rfl

theorem Page.alike_window (page : Option Page) :
    Except.Alike Eq (window page) (window (page.map (Page.requalify names))) := by
  cases page with
  | none => exact .ok rfl
  | some page =>
    apply Except.Alike.bind (Page.alike_rowCount page.limit)
    rintro limit _ _ rfl
    apply Except.Alike.bind (Page.alike_offset page.offset)
    rintro offset _ _ rfl
    exact .ok rfl

theorem Page.alike_within (page : Option Page) (offset limit : Option UInt64) :
    Except.Alike (fun page other => other = Option.map (Page.requalify names) page)
      (within page offset limit) (within (page.map (Page.requalify names)) offset limit) := by
  cases offset with
  | none =>
    cases limit with
    | none => exact .ok rfl
    | some limit =>
      apply Except.Alike.bind (Page.alike_window page)
      rintro own _ _ rfl
      exact .ok rfl
  | some skipped =>
    apply Except.Alike.bind (Page.alike_window page)
    rintro own _ _ rfl
    exact .ok rfl

theorem Page.alike_capped (page : Option Page) (most : Option UInt64) :
    Except.Alike (fun page other => other = Option.map (Page.requalify names) page)
      (capped page most) (capped (page.map (Page.requalify names)) most) := by
  cases most with
  | none => exact .ok rfl
  | some most =>
    cases page with
    | none => exact .ok rfl
    | some page =>
      apply Except.Alike.bind (Page.alike_rowCount page.limit)
      rintro count _ _ rfl
      exact .ite (.ok rfl) (.ok rfl)

theorem Page.alike_lower (page : Page) :
    Lowering.Alike page.lower (page.requalify names).lower Eq := by
  have count (expr : Expr) :
      Lowering.Alike (lowerCount expr) (lowerCount (expr.requalify names)) Eq := by
    apply Lowering.alike_after (Page.alike_rowCount expr)
    rintro rows _ _ rfl
    exact Lowering.alike_self (fun _ => rfl) _
  apply Lowering.alike_then (count page.limit)
  intro limit
  apply Lowering.alike_then (Lowering.alike_optional count)
  intro offset
  exact Lowering.alike_pure rfl

end

/-! ## Lowering -/

section

variable {names : Renaming} {scope : Scope}

theorem SelectItem.alike_lower {item : SelectItem} (keeps : names.Keeps scope.binding item.expr) :
    Lowering.Alike (item.lower scope) ((item.requalify names).lower (scope.realias names)) Eq := by
  apply Lowering.alike_then (Expr.alike_lower item.expr keeps .select)
  intro lowered
  exact Lowering.alike_pure rfl

theorem SortKey.alike_lower {key : SortKey} (keeps : names.Keeps scope.binding key.expr) :
    Lowering.Alike (key.lower scope) ((key.requalify names).lower (scope.realias names)) Eq := by
  apply Lowering.alike_then (Expr.alike_lower key.expr keeps .sort)
  intro lowered
  exact Lowering.alike_pure rfl

/-- Tables are changed by their positions, which stay. -/
theorem Source.alike_lowerConditions {change other : Nat → TableName → TableName} (source : Source)
    (places : ∀ index < source.tables.length, ∀ table,
      other index (TableName.realias names table) = change index table)
    (keeps : ∀ condition ∈ source.conditions, names.Keeps scope.binding condition) :
    Lowering.Alike ((source.mapTables change).lowerConditions scope)
      (((source.realias names).mapTables other).lowerConditions (scope.realias names)) Eq := by
  match source with
  | .table only =>
    apply Lowering.alike_pure
    rw [places 0 Nat.zero_lt_one]
  | .join left kind right condition =>
    simp only [Source.tables, List.length_append, List.length_singleton] at places
    simp only [Source.conditions, List.mem_append, List.mem_singleton] at keeps
    have renamed : other (left.realias names).tables.length (right.realias names) =
        change left.tables.length right := by
      rw [Binding.tables_realias, List.length_map, places _ (Nat.lt_succ_self _)]
    apply Lowering.alike_then (alike_lowerConditions left
      (fun index below => places index (Nat.lt_succ_of_lt below))
      fun condition member => keeps condition (.inl member))
    intro lowered
    apply Lowering.alike_then (Expr.alike_lower condition (keeps condition (.inr rfl)) _)
    intro own
    apply Lowering.alike_pure
    rw [renamed]

theorem Source.alike_lowerTables (source : Source)
    (listed : scope.binding.tables.length = source.tables.length)
    (keeps : ∀ condition ∈ source.conditions, names.Keeps scope.binding condition) :
    Lowering.Alike ((scope.binding.lowerTables source).lowerConditions scope)
      (((scope.binding.realias names).lowerTables (source.realias names)).lowerConditions
        (scope.realias names)) Eq := by
  unfold Binding.lowerTables
  apply Source.alike_lowerConditions source _ keeps
  intro index below table
  rw [← listed] at below
  simp only [Binding.realias, List.getElem?_map, List.getElem?_eq_getElem below]
  rfl

theorem RowMetadata.expr_realias (binding : Binding) (column : RowMetadata) :
    column.expr (binding.realias names) = column.expr binding := by
  have first : ((binding.realias names).tables.head?.bind BoundTable.correlation) =
      binding.tables.head?.bind BoundTable.correlation := by
    rw [Binding.realias, List.head?_map]
    cases binding.tables.head? <;> rfl
  have found (id : TableId) : (binding.realias names).first? id =
      (binding.first? id).map (BoundTable.realias names) := by
    rw [Binding.first?, Binding.first?, Binding.realias, List.find?_map]
    rfl
  cases column with
  | benefactor view =>
    simp only [RowMetadata.expr, found]
    cases binding.first? view <;> rfl
  | _ => simp only [RowMetadata.expr, RowMetadata.ofFirst, first]

end

/-- A renamed part is lowered to what the part is lowered to. -/
theorem Renaming.Binds.alike_lower {names : Renaming} {one two : Binding × Select}
    (binds : names.Binds one two) (schemas : Schemas) (guardsDoubles : Bool)
    (metadata : List RowMetadata) :
    Lowering.Alike (one.2.lower schemas guardsDoubles metadata one.1)
      (two.2.lower schemas guardsDoubles metadata two.1) Eq := by
  obtain ⟨binding, part⟩ := one
  obtain ⟨same, keeps, listed⟩ := binds
  cases same
  have clauses := fun {expr : Expr} member => keeps expr (Select.mem_tableClauses.mpr member)
  unfold Select.lower
  dsimp only
  rw [Select.aliases_realias]
  apply Lowering.alike_then (Lowering.alike_self (fun _ => rfl) _)
  rintro ⟨⟩
  have projection : (part.realias names).projection.itemList =
      part.projection.itemList.map (SelectItem.requalify names) :=
    Projection.itemList_requalify part.projection
  rw [projection]
  apply Lowering.alike_then (Lowering.alike_each fun item member =>
    SelectItem.alike_lower (clauses (.inl ⟨item, member, rfl⟩)))
  intro items
  apply Lowering.alike_then (Source.alike_lowerTables part.source listed
    fun condition member => clauses (.inr (.inl member)))
  intro source
  apply Lowering.alike_then (Expr.alike_lowerOption fun condition given =>
    Expr.alike_lower condition (clauses (.inr (.inr (.inl given)))) _)
  intro filter
  apply Lowering.alike_then (Expr.alike_lowerAll fun expr member =>
    Expr.alike_lower expr (clauses (.inr (.inr (.inr (.inl member))))) _)
  intro groupBy
  apply Lowering.alike_then (Lowering.alike_each fun key member =>
    SortKey.alike_lower (clauses (.inr (.inr (.inr (.inr ⟨key, member, rfl⟩))))))
  intro orderBy
  apply Lowering.alike_then (Lowering.alike_optional Page.alike_lower)
  intro page
  apply Lowering.alike_then (Lowering.alike_self (fun _ => rfl) _)
  intro state
  apply Lowering.alike_pure
  simp only [RowMetadata.expr_realias]
  rfl

end TabularSql
