import TabularSql.Proofs.Lowering.Metadata
import TabularSql.Proofs.Lowering.References
import TabularSql.Proofs.RowCount

/-!
# Counted groups

The groups of a query are counted by its keys, and a key is looked up twice. The query that is answered looks
for a column first and leaves a name that has none to the store, which knows the aliases of the select list.
The counting query has no aliases, so that a key with the name of one is replaced by the item before anything
is looked up. Both mean the same by every key, unless an alias is written like a column that its item is not.
-/

namespace TabularSql

set_option autoImplicit false

/-! ## Lowered expressions -/

/-- What the expression is lowered to at the position for the user, whatever was lowered before it. -/
def Expr.LowersTo (scope : Scope) (user : Int64) (position : Position) (whole lowered : Expr) : Prop :=
  ∃ before after, LoweringState.Serves user scope.binding before ∧
    (whole.lower scope position).run before = (.ok lowered, after)

theorem Lowering.keeps_lowersTo (scope : Scope) (user : Int64) (position : Position) (whole : Expr) :
    Keeps (LoweringState.Serves user scope.binding) (whole.lower scope position)
      (whole.LowersTo scope user position) := by
  intro before lowered after serves ran
  have kept := (@keeps_relatedAt scope user (fun _ _ _ => True) (fun _ _ _ _ => trivial) position whole before
    lowered after serves ran).1
  exact ⟨kept, before, after, serves, ran⟩

namespace Expr.LowersTo

variable {scope : Scope} {user : Int64} {position : Position} {whole lowered : Expr}

theorem arises (lowers : whole.LowersTo scope user position lowered) :
    Arises scope (fun _ _ => True) whole lowered := by
  obtain ⟨before, after, serves, ran⟩ := lowers
  apply Becomes.arises
  refine (Lowering.keeps_becomes (fun part _ place _ => ?_) before lowered after serves ran).2
  exact (Lowering.keeps_lowersTo scope user place part).mono fun _ _ => trivial

theorem column {reference : ColumnRef} (lowers : (Expr.column reference).LowersTo scope user position lowered) :
    reference.lower scope position = .ok lowered := by
  obtain ⟨_, _, _, ran⟩ := lowers
  exact (Lowering.run_lift ran).1

theorem call {name : String} {distinct : Bool} {arguments : List Expr}
    (lowers : (Expr.call name distinct arguments).LowersTo scope user position lowered) :
    ∃ results, lowered = .call name distinct results ∧
      List.Forall₂ (LowersTo scope user .argument) arguments results := by
  obtain ⟨before, after, serves, ran⟩ := lowers
  obtain ⟨results, _, ran_arguments, ran⟩ := Lowering.run_bind ran
  cases ran
  refine ⟨results, rfl, ?_⟩
  exact (Lowering.keeps_lowerPairs (fun argument _ => Lowering.keeps_lowersTo scope user .argument argument)
    before results _ serves ran_arguments).2

end Expr.LowersTo

/-! ## Columns of the store -/

namespace Physical

theorem element_ne_column (id other : ColumnId) : element id ≠ column other := by
  intro same
  have last := congrArg (fun name => name.toList.reverse.head?) same
  simp [element, column] at last

theorem element_ne_metadata (id : ColumnId) (name : MetadataName) : element id ≠ name.text := by
  intro same
  have chars := congrArg String.toList same
  cases name <;> simp [element, column, MetadataName.text] at chars

end Physical

theorem ResolvedColumn.physical_ne_element (resolved : ResolvedColumn) (column : ListColumn) :
    column.elementExpr ≠ .column resolved.physical := by
  intro same
  have names : Physical.element column.id = resolved.physical.name.name :=
    congrArg (fun reference => reference.name.name) (Expr.column.inj same)
  unfold ResolvedColumn.physical at names
  split at names
  · exact Physical.element_ne_column _ _ names
  · exact Physical.element_ne_metadata _ _ names

/-- The expression is a reference to the column of the store. -/
def Expr.Reads (binding : Binding) (target : ColumnRef) (whole : Expr) : Prop :=
  ∃ reference resolved, whole = .column reference ∧
    binding.resolve reference = .ok (some resolved) ∧ resolved.physical = target

/-- Doubles are guarded in select items only. -/
theorem ColumnRef.lower_resolved {scope : Scope} {position : Position} {reference : ColumnRef}
    {resolved : ResolvedColumn} (found : scope.binding.resolve reference = .ok (some resolved))
    (place : position ≠ .select) : reference.lower scope position = .ok (.column resolved.physical) := by
  unfold lower
  rw [found]
  dsimp only [bind, Except.bind]
  split
  · rw [if_neg (by simp [place])]
    rfl
  · rfl

theorem Expr.LowersTo.reads_iff {scope : Scope} {user : Int64} {whole lowered : Expr}
    (lowers : whole.LowersTo scope user .argument lowered) (resolved : ResolvedColumn) :
    lowered = .column resolved.physical ↔ whole.Reads scope.binding resolved.physical := by
  have argument {reference : ColumnRef} {other : ResolvedColumn}
      (found : scope.binding.resolve reference = .ok (some other)) :
      reference.lower scope .argument = .ok (.column other.physical) :=
    ColumnRef.lower_resolved found (by simp)
  constructor
  · rintro rfl
    generalize same : Expr.column resolved.physical = target at lowers
    cases lowers.arises with
    | @column _ reference _ _ =>
      obtain ⟨found, resolves, rest⟩ := Except.of_bind lowers.column
      cases found with
      | none => cases rest
      | some other =>
        have own := (argument resolves).symm.trans lowers.column
        rw [← same] at own
        exact ⟨reference, other, rfl, resolves, Expr.column.inj (Except.ok.inj own)⟩
    | rows => cases same
    | doubleTest own =>
      obtain ⟨_, _, _, _, _, rfl | rfl⟩ := DoubleTest.lower_of_ok own <;> cases same
    | unnest => exact absurd same.symm (resolved.physical_ne_element _)
    | kept form =>
      rw [← same] at form
      exact form.elim
  · rintro ⟨reference, other, rfl, resolves, same⟩
    have own := lowers.column.symm.trans (argument resolves)
    rw [same] at own
    exact Except.ok.inj own

/-! ## Keys -/

/-- A key of GROUP BY, what the rows are grouped by, and what is counted for the key. -/
inductive Expr.CountedAs (scope : Scope) (user : Int64) (items : List SelectItem) :
    Expr → Expr → Expr → Prop where
  /-- A name of a column is that column. The same column is counted, unless the first item with an alias that
  is written like the key is something else, which then is what is counted. -/
  | column {reference : ColumnRef} {resolved : ResolvedColumn} {counted : Expr}
      (found : scope.binding.resolve reference = .ok (some resolved))
      (same : counted = .column resolved.physical ↔
        ∀ item ∈ items.find? (SelectItem.isNamed reference.unquoted),
          item.expr.Reads scope.binding resolved.physical)
      (captured : ∀ item ∈ items.find? (SelectItem.isNamed reference.unquoted),
        item.expr.LowersTo { scope with aliases := [] } user .argument counted) :
      CountedAs scope user items (.column reference) (.column resolved.physical) counted
  /-- A name without a column is an alias, and the first item with that alias is counted. -/
  | alias {reference : ColumnRef} {item : SelectItem} {counted : Expr}
      (nothing : scope.binding.resolve reference = .ok none) (bare : reference.qualifier = none)
      (first : items.find? (SelectItem.isNamed reference.name.name) = some item)
      (counts : item.expr.LowersTo { scope with aliases := [] } user .argument counted) :
      CountedAs scope user items (.column reference) reference.leftToStore counted
  /-- Any other key is counted as it is grouped by. -/
  | other {key grouped counted : Expr} (form : ∀ reference, key ≠ .column reference)
      (groups : key.LowersTo scope user .sort grouped)
      (counts : key.LowersTo { scope with aliases := [] } user .argument counted) :
      CountedAs scope user items key grouped counted

/-- A name that the store is left with is bare. -/
theorem ColumnRef.bare_of_unresolved {scope : Scope} {reference : ColumnRef} {lowered : Expr}
    (ok : reference.lowerUnresolved scope.aliases .sort = .ok lowered) :
    reference.qualifier = none ∧ lowered = reference.leftToStore := by
  cases ColumnRef.unresolved_of_ok ok with
  | delimited bare quoted _ => exact ⟨bare, (if_pos quoted).symm⟩
  | named bare plain _ _ => exact ⟨bare, (if_neg (by simp [plain])).symm⟩

theorem Expr.countedAs {scope : Scope} {user : Int64} {items : List SelectItem} {key grouped counted : Expr}
    (groups : key.LowersTo scope user .sort grouped)
    (counts : (Select.groupKey items key).LowersTo { scope with aliases := [] } user .argument counted) :
    key.CountedAs scope user items grouped counted := by
  by_cases form : ∃ reference, key = .column reference
  · obtain ⟨reference, rfl⟩ := form
    obtain ⟨found, resolves, rest⟩ := Except.of_bind groups.column
    cases found with
    | some resolved =>
      have own := (ColumnRef.lower_resolved resolves (by simp)).symm.trans groups.column
      obtain rfl := Except.ok.inj own
      cases first : items.find? (SelectItem.isNamed reference.unquoted) with
      | none =>
        rw [Select.groupKey_unnamed first] at counts
        have same : counted = .column resolved.physical :=
          (counts.reads_iff resolved).mpr ⟨reference, resolved, rfl, resolves, rfl⟩
        exact .column resolves (by simp [same, first]) (by simp [first])
      | some item =>
        rw [Select.groupKey_named first] at counts
        exact .column resolves (by simp [counts.reads_iff resolved, first]) (by simp [first, counts])
    | none =>
      obtain ⟨bare, rfl⟩ := ColumnRef.bare_of_unresolved rest
      have written : reference.unquoted = reference.name.name := by simp [ColumnRef.unquoted, bare]
      cases first : items.find? (SelectItem.isNamed reference.unquoted) with
      | none =>
        -- A name that is no alias has no meaning as an argument.
        rw [Select.groupKey_unnamed first] at counts
        obtain ⟨_, again, lowers⟩ := Except.of_bind counts.column
        cases resolves.symm.trans again
        cases lowers
      | some item =>
        rw [Select.groupKey_named first] at counts
        exact .alias resolves bare (written ▸ first) counts
  · have other : ∀ reference, key ≠ .column reference := fun reference same => form ⟨reference, same⟩
    rw [Select.groupKey_other other] at counts
    exact .other other groups counts

/-! ## Clauses of a statement -/

theorem Select.BoundAs.aliases {schemas : Schemas} {part : Select} {bound : Binding × Select}
    (boundAs : part.BoundAs schemas bound) : bound.2.aliases = part.aliases := by
  obtain ⟨_, projection, page, same, ⟨rfl, _⟩ | ⟨items, star, all, rfl⟩⟩ := boundAs
  · rw [same]
    rfl
  · have unnamed : items.filterMap (fun item => item.alias?.map Identifier.name) = [] := by
      apply List.filterMap_eq_nil_iff.mpr
      intro item member
      obtain ⟨_, _, _, _, rfl⟩ := Binding.star_columns star item member
      rfl
    rw [same, Select.aliases, Select.aliases, all]
    exact unnamed

theorem IndexDescription.metadata_aggregated {description : IndexDescription} {context : SqlContext}
    {etag : Bool} {tables : List TableId} {metadata : List RowMetadata}
    (ok : description.metadata context etag true tables = .ok metadata) : metadata = [] := by
  cases context with
  | query =>
    cases ok
    rfl
  | build =>
    simp only [IndexDescription.metadata, Bool.true_and] at ok
    split at ok <;> cases ok
    next none => simpa using none

namespace Compiler

open Lowering

variable {compiler : Compiler} {query count : Query} {statement counted : Statement}

theorem keeps_userId (compiler : Compiler) (user : Int64) (role : Role) (plan : Plan) :
    Keeps (fun state => state.context.userId = user) (compiler.compilePlan role plan) fun _ => True := by
  have parts (role : Role) (description : IndexDescription) (query : Query) (inner : Option CompiledQuery) :
      Keeps (fun state => state.context.userId = user) (compiler.compileParts role description query inner)
        fun _ => True :=
    (@keeps_compileParts compiler user (fun _ _ => True) (fun _ _ _ _ _ _ _ => trivial) role description query
      inner).mono fun _ _ => trivial
  induction plan generalizing role with
  | plain description query => exact parts role description query none
  | layered description query name inner ih =>
    apply keeps_bind (ih .definition)
    intro below _
    apply keeps_bind (keeps_lift fun element ok => ok)
    intro element _
    exact parts role description _ (some below)

theorem lowered_compileParts {role : Role} {description : IndexDescription} {inner : Option CompiledQuery}
    {compiled : CompiledQuery} {state after : LoweringState}
    (ran : (compiler.compileParts role description query inner).run state = (.ok compiled, after)) :
    ∃ metadata, compiler.metadata role description compiled.isAggregated compiled.tableIds = .ok metadata ∧
      List.Forall₂ (fun part lowered => ∃ bound, part.BoundAs compiler.schemas bound ∧
          bound.2.BecomesAt (Expr.LowersTo ⟨compiler.schemas, bound.1,
            role = .statement && compiler.context = .query, bound.2.aliases⟩ state.context.userId) metadata
            bound.1 lowered)
        query.parts compiled.query.parts := by
  obtain ⟨_, paged, metadata, lowered, own, ran⟩ := run_compileParts ran
  have each (user : Int64) (part : Binding × Select) := keeps_clauses compiler.schemas
    (role = .statement && compiler.context = .query) metadata part.1 part.2
    (keeps_lowersTo ⟨_, part.1, _, part.2.aliases⟩ user)
  have lowers := (@keeps_pairs _ _ _ _ _ paged (fun part _ => each _ part) _ lowered _ rfl ran).2
  refine ⟨metadata, own.adds, own.forall₂_parts lowers ?_⟩
  intro part _ bound result boundAs becomes
  exact ⟨bound, boundAs, becomes⟩

/-- The select list and the keys of the first part of a statement. Metadata columns do not follow the select
list if the part aggregates. -/
theorem first_of_query (compiled : compiler.compileQuery query = .ok statement) :
    ∃ binding items own metadata, Binding.ofSource compiler.schemas query.first.source = .ok binding ∧
      query.first.Spells binding items ∧
      statement.compiled.query.first.projection = .items (own ++ metadata) ∧
      (query.first.Aggregates → metadata = []) ∧
      List.Forall₂ (SelectItem.Becomes (Expr.LowersTo
        ⟨compiler.schemas, binding, compiler.context = .query, query.first.aliases⟩ compiler.userId .select))
        items own ∧
      List.Forall₂ (Expr.LowersTo
        ⟨compiler.schemas, binding, compiler.context = .query, query.first.aliases⟩ compiler.userId .sort)
        query.first.groupBy statement.compiled.query.first.groupBy := by
  obtain ⟨prepared, inner, start, after, asks, parts, ran⟩ :=
    compileParts_keeping (keeps_userId compiler compiler.userId .definition) rfl compiled
  obtain ⟨metadata, adds, lowers⟩ := lowered_compileParts ran
  rw [parts, List.forall₂_map_left_iff] at lowers
  obtain ⟨lowered, place, ⟨binding, bound⟩, boundAs, becomes⟩ :=
    forall₂_getElem? lowers (show query.parts[0]? = some query.first from rfl)
  obtain rfl : statement.compiled.query.first = lowered := Option.some.inj place
  have aliases : bound.aliases = query.first.aliases := boundAs.aliases
  have keys : bound.groupBy = query.first.groupBy := by
    obtain ⟨_, projection, page, rfl, _⟩ := boundAs
    rfl
  obtain ⟨own, projection, items⟩ := becomes.items
  have groups := becomes.groupBy
  rw [asks, aliases] at items groups
  rw [keys] at groups
  refine ⟨binding, bound.projection.itemList, own, _, boundAs.1, boundAs.spells, projection,
    fun aggregates => ?_, items, groups⟩
  have among : { query.first with definingFilter := none } ∈ prepared.parts := by
    rw [parts]
    exact .head _
  have aggregated := (aggregated_compileParts ran).mpr (.inr ⟨_, among, aggregates⟩)
  rw [Compiler.metadata, aggregated] at adds
  rw [IndexDescription.metadata_aggregated adds, List.map_nil]

/-- What is counted for the groups of a query, key by key. -/
theorem counted_of_query (counts : query.count? = some count) (grouped : query.first.groupBy ≠ [])
    (compiled : compiler.compileQuery count = .ok counted) :
    ∃ binding arguments, Binding.ofSource compiler.schemas query.first.source = .ok binding ∧
      counted.compiled.query.first.projection = .items [⟨.call "COUNT" true arguments, none⟩] ∧
      List.Forall₂ (Expr.LowersTo ⟨compiler.schemas, binding, compiler.context = .query, []⟩
          compiler.userId .argument)
        (query.first.groupBy.map (Select.groupKey query.first.projection.itemList)) arguments := by
  obtain ⟨_, expr, own, rfl⟩ := Query.count?_eq_some.mp counts
  obtain rfl : expr = .call "COUNT" true
      (query.first.groupBy.map (Select.groupKey query.first.projection.itemList)) := by
    rcases Select.countExpr?_cases own with ⟨single, _⟩ | ⟨_, same⟩ | ⟨ungrouped, _⟩
    · simp [Select.isAggregate, grouped] at single
    · exact same
    · exact absurd ungrouped grouped
  obtain ⟨binding, items, lowered, metadata, binds, spells, projection, nothing, listed, _⟩ :=
    first_of_query compiled
  have aggregates : (query.first.counting (.call "COUNT" true
      (query.first.groupBy.map (Select.groupKey query.first.projection.itemList)))).Aggregates :=
    .inr (.inr ⟨_, .head _, Fragment.holds_expr.mpr (.inl (show isSetFunctionName "COUNT" = true by decide))⟩)
  obtain rfl : items = [⟨.call "COUNT" true
      (query.first.groupBy.map (Select.groupKey query.first.projection.itemList)), none⟩] := by
    rcases spells with written | ⟨all, _⟩
    · exact (Projection.items.inj written).symm
    · cases all
  rw [nothing aggregates, List.append_nil] at projection
  cases listed with
  | @cons _ item _ _ first rest =>
    cases rest
    obtain ⟨expr, name⟩ := item
    obtain ⟨lowers, rfl⟩ : Expr.LowersTo _ _ _ _ expr ∧ name = none := first
    obtain ⟨arguments, rfl, each⟩ := lowers.call
    exact ⟨binding, arguments, binds, projection, each⟩

/-- A counting query has the same select list, whether it is compiled as it is or read from its text first. -/
theorem agree_count_text (compiler : Compiler) {overrides : Overrides} {base : Query}
    (ok : overrides.combine base = .ok query)
    (writable : Fragment.Everywhere Fragment.Writable (.query base)) (counts : query.count? = some count) :
    Except.Agree (fun one two : Statement =>
        one.compiled.query.first.projection = two.compiled.query.first.projection)
      (compiler.compileText count.text) (compiler.compileQuery count) := by
  obtain ⟨flat, read, related⟩ := Overrides.parse_count_text ok writable counts
  have compiles : compiler.compileText count.text = compiler.compileQuery flat := by
    rw [compileText, read]
    rfl
  rw [compiles]
  apply (compiler.agree_regrouped related).symm.mono
  intro one two statements
  rw [statements.compiled.query.parts.first.eq_outside]

/-! ## Groups that are counted -/

/-- The groups of a combined query are counted key by key. What is counted for a key is what the rows are
grouped by, with two exceptions: an alias is counted as the first item that it names, lowered as an argument,
and so is the name of a column if an alias is written like it and that item is not the column. -/
theorem groups_counted_by_keys (compiler : Compiler) (overrides : Overrides) (text : String) (query : Query)
    (statement : Statement) (ok : overrides.combineText text = .ok query)
    (base : ∀ base, Query.parse text = .ok base → Fragment.Everywhere Fragment.Restorable (.query base))
    (single : query.isUnion = false) (grouped : query.first.groupBy ≠ [])
    (compiled : compiler.compileQuery query = .ok statement) :
    ∃ count, query.count? = some count ∧
      ∀ counted, compiler.compileText count.text = .ok counted →
        ∃ binding arguments, Binding.ofSource compiler.schemas query.first.source = .ok binding ∧
          counted.compiled.query.first.projection = .items [⟨.call "COUNT" true arguments, none⟩] ∧
          arguments.length = query.first.groupBy.length ∧
          ∀ (index : Nat) (key : Expr), query.first.groupBy[index]? = some key →
            ∃ groups counts, statement.compiled.query.first.groupBy[index]? = some groups ∧
              arguments[index]? = some counts ∧
              key.CountedAs ⟨compiler.schemas, binding, compiler.context = .query, query.first.aliases⟩
                compiler.userId query.first.projection.itemList groups counts := by
  obtain ⟨read, parsed, ok⟩ := Except.of_bind ok
  have parsed := Except.of_mapError parsed
  have writable := (Query.grammatical_of_parse parsed).and (base read parsed)
  cases counts : query.count? with
  | none =>
    rcases Query.count?_eq_none.mp counts with union | nothing
    · rw [single] at union
      cases union
    · exact absurd (Select.countExpr?_eq_none.mp nothing).1 grouped
  | some count =>
    refine ⟨count, rfl, fun counted reads => ?_⟩
    obtain ⟨other, own, projection⟩ := (agree_count_text compiler ok writable counts).of_ok reads
    obtain ⟨binding, arguments, binds, listed, each⟩ := counted_of_query counts grouped own
    obtain ⟨known, _, _, _, again, _, _, _, _, keys⟩ := first_of_query compiled
    cases binds.symm.trans again
    refine ⟨binding, arguments, binds, projection.trans listed, by simpa using each.length_eq.symm, ?_⟩
    intro index key place
    obtain ⟨groups, placed, lowers⟩ := forall₂_getElem? keys place
    rw [List.forall₂_map_left_iff] at each
    obtain ⟨argument, among, counts⟩ := forall₂_getElem? each place
    exact ⟨groups, argument, placed, among, Expr.countedAs lowers counts⟩

def groupedCountQuery : Query :=
  { groupedNarrowedQuery with
    first := groupedNarrowedQuery.first.counting (.call "COUNT" true
      [.named "name", .binary .multiply (.named "weight") (.literal (.number "2"))]) }

/-- A column is counted as it is grouped by, and an alias as what it stands for. -/
theorem groups_counted_by_keys_aliased :
    narrowingOverrides.combineText groupedText = .ok groupedNarrowedQuery ∧
    (∀ base, Query.parse groupedText = .ok base →
      Fragment.Everywhere Fragment.Restorable (.query base)) ∧
    groupedNarrowedQuery.isUnion = false ∧ groupedNarrowedQuery.first.groupBy ≠ [] ∧
    groupedNarrowedQuery.count? = some groupedCountQuery ∧
    ∃ statement counted, weighedCompiler.compileQuery groupedNarrowedQuery = .ok statement ∧
      weighedCompiler.compileText groupedCountQuery.text = .ok counted ∧
      statement.compiled.query.first.groupBy = [.named "_C11_", .named "w"] ∧
      counted.compiled.query.first.projection.text = "COUNT(DISTINCT _C11_, _C13_*2)" ∧
      ∃ binding, ∃ arguments : List Expr,
        counted.compiled.query.first.projection = .items [⟨.call "COUNT" true arguments, none⟩] ∧
        Binding.ofSource weighedCompiler.schemas groupedNarrowedQuery.first.source = .ok binding ∧
        ∀ (index : Nat) (key : Expr), groupedNarrowedQuery.first.groupBy[index]? = some key →
          ∃ groups counts, statement.compiled.query.first.groupBy[index]? = some groups ∧
            arguments[index]? = some counts ∧
            key.CountedAs ⟨weighedCompiler.schemas, binding, true, ["w"]⟩ 7
              groupedNarrowedQuery.first.projection.itemList groups counts := by
  obtain ⟨read, parsed, combined⟩ := Except.of_bind groupedNarrowedQuery_combined
  have parsed := Except.of_mapError parsed
  have writable := (Query.grammatical_of_parse parsed).and (groupedText_restorable read parsed)
  have keyed : groupedNarrowedQuery.first.groupBy ≠ [] := by decide
  have counts : groupedNarrowedQuery.count? = some groupedCountQuery := rfl
  obtain ⟨statement, compiled, keys⟩ : ∃ statement, weighedCompiler.compileQuery groupedNarrowedQuery =
      .ok statement ∧ statement.compiled.query.first.groupBy = [.named "_C11_", .named "w"] :=
    compiles_within 1 (by decide +kernel)
  obtain ⟨other, own, shown⟩ : ∃ other, weighedCompiler.compileQuery groupedCountQuery = .ok other ∧
      other.compiled.query.first.projection.text = "COUNT(DISTINCT _C11_, _C13_*2)" :=
    compiles_within 1 (by decide +kernel)
  obtain ⟨counted, reads, same⟩ := (agree_count_text weighedCompiler combined writable counts).symm.of_ok own
  obtain ⟨count, given, each⟩ := groups_counted_by_keys weighedCompiler narrowingOverrides groupedText
    groupedNarrowedQuery statement groupedNarrowedQuery_combined groupedText_restorable rfl keyed compiled
  obtain rfl := Option.some.inj (counts.symm.trans given)
  obtain ⟨binding, arguments, binds, listed, _, each⟩ := each counted reads
  exact ⟨groupedNarrowedQuery_combined, groupedText_restorable, rfl, keyed, counts, statement, counted,
    compiled, reads, keys, same ▸ shown, binding, arguments, listed, binds, each⟩

def borrowedText : String := "select tags as name, count(*) from syn2 group by name"

/-- The tree of the text: the alias of the first item is the name of another column. -/
def borrowedQuery : Query :=
  .single { Select.simple (.items [⟨.named "tags", some ⟨"name", none⟩⟩,
      ⟨.call "COUNT" false [.wildcard], none⟩]) (.named "syn2") with groupBy := [.named "name"] }

def borrowedCountQuery : Query :=
  .single (Select.simple (.items [⟨.call "COUNT" true [.named "tags"], none⟩]) (.named "syn2"))

/-- Rows are grouped by the column with the name of the key, and the item with the alias is counted. -/
theorem captured_group_miscounted :
    ({} : Overrides).combineText borrowedText = .ok borrowedQuery ∧
      borrowedQuery.count? = some borrowedCountQuery ∧
      (weighedCompiler.compileQuery borrowedQuery).toOption.map Statement.text =
        some "SELECT _C12_ AS name, COUNT(*) FROM T2 GROUP BY _C11_" ∧
      (weighedCompiler.compileText borrowedCountQuery.text).toOption.map Statement.text =
        some "SELECT COUNT(DISTINCT _C12_) FROM T2" := by
  have parsed : Query.parse borrowedText = .ok borrowedQuery := by decide +kernel
  have reread : Query.parse borrowedCountQuery.text = .ok borrowedCountQuery := by decide +kernel
  obtain ⟨statement, compiled, text⟩ : ∃ statement, weighedCompiler.compileQuery borrowedQuery =
      .ok statement ∧ statement.text = "SELECT _C12_ AS name, COUNT(*) FROM T2 GROUP BY _C11_" :=
    compiles_within 1 (by decide +kernel)
  obtain ⟨counting, counted, written⟩ : ∃ counting, weighedCompiler.compileQuery borrowedCountQuery =
      .ok counting ∧ counting.text = "SELECT COUNT(DISTINCT _C12_) FROM T2" :=
    compiles_within 1 (by decide +kernel)
  refine ⟨?_, rfl, ?_, ?_⟩
  · rw [Overrides.combineText, parsed]
    rfl
  · rw [compiled, ← text]
    rfl
  · rw [compileText_eq _ reread, counted, ← written]
    rfl

end Compiler

end TabularSql
