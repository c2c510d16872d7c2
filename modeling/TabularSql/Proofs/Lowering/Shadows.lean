import TabularSql.Proofs.Lowering.Contexts
import TabularSql.Proofs.Lowering.References
import TabularSql.Proofs.Lowering.Written

/-!
# Shadows of double columns

A DOUBLE column has a shadow for its values that are no finite numbers. A query that is answered reads such a
column through a guard, an expression that chooses between the column and its shadow, but only where the value
of the column is selected as it is: a set function or a condition must not see the guard. The main result says
that shadows are read nowhere else, unless a query tests for such values itself, and that a guard stands
wherever it should.
-/

namespace TabularSql

set_option autoImplicit false

/-! ## Shadows and guards -/

/-- The reference is the shadow of a DOUBLE column. -/
def ColumnRef.IsShadow (reference : ColumnRef) : Prop :=
  ∃ qualifier id, reference = .plain qualifier (Physical.shadow id)

namespace Expr

def IsDoubleTest : Expr → Prop
  | doubleTest .. => True
  | _ => False

/-- No shadow is read at any depth. -/
def Unshadowed (whole : Expr) : Prop := (Fragment.expr whole).Refers fun reference => ¬ reference.IsShadow

/-- Shadows are read in complete guards only, none of them inside a call, a cast, a test on a list or a
search. -/
inductive Guarded : Expr → Prop where
  | guard (qualifier : Option String) (id : ColumnId) : Guarded (Physical.guardedDouble qualifier id)
  | unshadowed {whole : Expr} (plain : whole.Unshadowed) : Guarded whole
  | form {whole : Expr} (opens : whole.opens = true) (composed : ∀ reference, whole ≠ .column reference)
      (exprs : ∀ part ∈ whole.inside, ∃ expr, part = .expr expr)
      (each : ∀ part, .expr part ∈ whole.inside → Guarded part) : Guarded whole

/-- The column stands at the end of a path that leads into no call, no cast, no test on a list and no
search. -/
inductive Selects : Expr → List Nat → ColumnRef → Prop where
  | column (reference : ColumnRef) : Selects (.column reference) [] reference
  | inside {whole part : Expr} {index : Nat} {path : List Nat} {reference : ColumnRef}
      (opens : whole.opens = true) (stands : whole.inside[index]? = some (.expr part))
      (deeper : Selects part path reference) : Selects whole (index :: path) reference

end Expr

def Fragment.at? : Fragment → List Nat → Option Fragment
  | whole, [] => some whole
  | whole, index :: path => whole.inside[index]?.bind fun part => at? part path

/-- Every DOUBLE column that is selected becomes its guard, in its place. -/
def Expr.GuardsDoubles (binding : Binding) (whole lowered : Expr) : Prop :=
  ∀ path reference resolved column, whole.Selects path reference →
    binding.resolve reference = .ok (some resolved) → resolved.target = .stored column →
    column.model.type = .double →
    (Fragment.expr lowered).at? path = some (.expr (Physical.guardedDouble resolved.qualifier column.id))

/-! ## Names that are no shadows -/

theorem Physical.elementRow_ne_shadow (id : ColumnId) (rest : String) : elementRow id ≠ "_DBL" ++ rest := by
  intro same
  have chars := congrArg String.toList same
  simp [elementRow] at chars

namespace ColumnRef

theorem not_isShadow {qualifier : Option String} {name : String} (other : ∀ rest, name ≠ "_DBL" ++ rest) :
    ¬ (plain qualifier name).IsShadow := by
  rintro ⟨owner, id, same⟩
  rw [← Physical.shadow_column] at same
  exact plain_ne_shadow other _ same

theorem not_isShadow_metadata (qualifier : Option String) (name : MetadataName) :
    ¬ (Physical.metadataRef qualifier name).IsShadow := not_isShadow (Physical.metadata_ne_shadow name)

theorem not_isShadow_side (qualifier : Option String) (id : ColumnId) :
    ∀ name ∈ [Physical.element id, Physical.elementRow id], ¬ (plain qualifier name).IsShadow := by
  intro name member
  apply not_isShadow
  simp only [List.mem_cons, List.not_mem_nil, or_false] at member
  rcases member with rfl | rfl
  · exact Physical.element_ne_shadow id
  · exact Physical.elementRow_ne_shadow id

theorem not_isShadow_physical (resolved : ResolvedColumn) : ¬ resolved.physical.IsShadow := by
  unfold ResolvedColumn.physical
  split
  · exact not_isShadow (Physical.column_ne_shadow _)
  · exact not_isShadow_metadata _ _

/-- The reference is no shadow, although at the position of a sort key it may be an alias that is written like
one. -/
def PlainAt (aliases : List String) (position : Position) (reference : ColumnRef) : Prop :=
  reference.IsShadow → position = .sort ∧ reference.qualifier = none ∧ reference.name.name ∈ aliases

end ColumnRef

/-! ## Expressions -/

/-- The expressions inside are select items, or sort keys, only if the whole expression is one. -/
theorem Expr.Reaches.same {whole : Expr} {position place fixed : Position}
    (reaches : whole.Reaches position place) (given : fixed = .select ∨ fixed = .sort)
    (stands : place = fixed) : whole.opens = true ∧ position = fixed := by
  unfold Expr.Reaches at reaches
  split at reaches
  · next opens =>
      obtain ⟨type, rfl⟩ := reaches
      refine ⟨opens, ?_⟩
      cases position with
      | condition => rcases given with rfl | rfl <;> cases stands
      | _ => exact stands
  · rcases reaches with rfl | condition
    · rcases given with rfl | rfl <;> cases stands
    · rcases given with rfl | rfl <;> cases stands <;> cases condition

theorem Expr.Reaches.select {whole : Expr} {place : Position} (reaches : whole.Reaches .select place)
    (opens : whole.opens = true) : place = .select := by
  rw [Expr.Reaches, if_pos opens] at reaches
  obtain ⟨type, rfl⟩ := reaches
  rfl

namespace ColumnRef

variable {scope : Scope} {position : Position} {reference : ColumnRef} {lowered : Expr}

theorem refers_of_lower (ok : reference.lower scope position = .ok lowered)
    (plain : position = .select → scope.guardsDoubles = false) :
    (Fragment.expr lowered).Refers (PlainAt scope.aliases position) := by
  obtain ⟨found, resolves, rest⟩ := Except.of_bind ok
  cases found with
  | none =>
    cases unresolved_of_ok rest with
    | delimited =>
      refine Fragment.refers_column.mpr ?_
      rintro ⟨_, _, same⟩
      cases congrArg (fun reference => reference.name.quote) same
    | named bare _ listed place => exact Fragment.refers_column.mpr fun _ => ⟨place, bare, listed⟩
  | some resolved =>
    have physical : (Fragment.expr (.column resolved.physical)).Refers (PlainAt scope.aliases position) :=
      Fragment.refers_column.mpr fun shadow => absurd shadow (not_isShadow_physical resolved)
    simp only at rest
    split at rest
    · split at rest
      · next guarded =>
          simp only [Bool.and_eq_true, decide_eq_true_eq] at guarded
          cases (plain guarded.1.1).symm.trans guarded.1.2
      · cases rest
        exact physical
    · cases rest
      exact physical

/-- A selected DOUBLE column is guarded, and another one is read as it is. -/
theorem guarded_of_lower (ok : reference.lower scope .select = .ok lowered) : lowered.Guarded := by
  have lowers := lowersTo_of_ok ok
  cases lowers with
  | physical => exact .unshadowed (Fragment.refers_column.mpr (not_isShadow_physical _))
  | guarded => exact .guard _ _
  | unresolved _ kept =>
    cases kept with
    | delimited _ _ place => rcases place with place | place <;> cases place
    | named _ _ _ place => cases place

theorem guardedDouble_of_lower {resolved : ResolvedColumn} {column : BoundColumn}
    (ok : reference.lower scope .select = .ok lowered) (guards : scope.guardsDoubles = true)
    (resolves : scope.binding.resolve reference = .ok (some resolved))
    (stored : resolved.target = .stored column) (double : column.model.type = .double) :
    lowered = Physical.guardedDouble resolved.qualifier column.id := by
  have known : resolved.stored? = some column := by rw [ResolvedColumn.stored?, stored]
  obtain ⟨_, found, rest⟩ := Except.of_bind ok
  cases resolves.symm.trans found
  simp only [known, guards, double, decide_true, Bool.and_self, if_true] at rest
  exact (Except.ok.inj rest).symm

end ColumnRef

namespace Expr

variable {scope : Scope} {user : Int64} {position : Position} {whole lowered : Expr}

/-- The shadows in an expression without tests on doubles that was lowered at a position. -/
def ShadowsAt (scope : Scope) (position : Position) (whole lowered : Expr) : Prop :=
  ¬ Fragment.Holds IsDoubleTest (.expr whole) →
    ((position = .select → scope.guardsDoubles = false) →
      (Fragment.expr lowered).Refers (ColumnRef.PlainAt scope.aliases position)) ∧
    (position = .select → lowered.Guarded)

/-- An expression reads no shadows unless it is selected and guards are put into it. -/
theorem BecomesAt.refers (becomes : BecomesAt scope user (ShadowsAt scope) position whole lowered)
    (untested : ¬ Fragment.Holds IsDoubleTest (.expr whole))
    (plain : whole.opens = true → position = .select → scope.guardsDoubles = false) :
    (Fragment.expr lowered).Refers (ColumnRef.PlainAt scope.aliases position) := by
  have other {reference : ColumnRef} (own : ¬ reference.IsShadow) :
      reference.PlainAt scope.aliases position := fun shadow => absurd shadow own
  rw [Fragment.holds_expr, not_or] at untested
  refine becomes.1.arises.refers ?_ ?_ ?_ ?_ ?_
  · rintro _ reference rfl _
    exact ColumnRef.refers_of_lower (becomes.2 reference rfl) (plain rfl)
  · rintro _ _ rfl _
    exact absurd trivial untested.1
  · exact fun list _ => other (ColumnRef.not_isShadow_metadata _ _)
  · exact fun id name member => other (ColumnRef.not_isShadow_side none id name member)
  · rintro part result member ⟨place, reaches, own⟩
    have deeper := fun holds => untested.2 ⟨_, member, holds⟩
    refine ((own deeper).1 fun select => ?_).mono fun reference allowed shadow => ?_
    · obtain ⟨opens, same⟩ := reaches.same (.inl rfl) select
      exact plain opens same
    · obtain ⟨sorted, named⟩ := allowed shadow
      exact ⟨(reaches.same (.inr rfl) sorted).2, named⟩

theorem BecomesAt.shadowsAt (becomes : BecomesAt scope user (ShadowsAt scope) position whole lowered) :
    ShadowsAt scope position whole lowered := by
  intro untested
  refine ⟨fun plain => becomes.refers untested fun _ => plain, ?_⟩
  rintro rfl
  -- In a form that does not open there are no select items, so no guard is below it.
  cases opens : whole.opens with
  | false =>
    refine .unshadowed ((becomes.refers untested fun given => ?_).mono fun reference plain shadow => ?_)
    · cases opens.symm.trans given
    · cases (plain shadow).1
  | true =>
    obtain ⟨becomes, column⟩ := becomes
    cases becomes.arises with
    | column => exact ColumnRef.guarded_of_lower (column _ rfl)
    | rows => cases opens
    | doubleTest => exact absurd (Fragment.holds_expr.mpr (.inl trivial)) untested
    | @unnest _ list =>
      exact .unshadowed (Fragment.refers_column.mpr
        (ColumnRef.not_isShadow_side none list.id _ List.mem_cons_self))
    | kept form same inside =>
      refine .form (same.trans opens) ?_ form.inside fun result listed => ?_
      · rintro reference rfl
        exact form
      · obtain ⟨part, member, pair⟩ := forall₂_origin inside _ listed
        cases pair with
        | expr own =>
          obtain ⟨place, reaches, own⟩ := own
          have deeper := fun holds => untested (Fragment.holds_expr.mpr (.inr ⟨_, member, holds⟩))
          exact (own deeper).2 (reaches.select opens)

theorem ShadowsAt.unshadowed (shadows : ShadowsAt scope position whole lowered)
    (untested : ¬ Fragment.Holds IsDoubleTest (.expr whole)) (place : position ≠ .sort)
    (plain : position = .select → scope.guardsDoubles = false) : lowered.Unshadowed :=
  ((shadows untested).1 plain).mono fun _ allowed shadow => place (allowed shadow).1

theorem BecomesAt.guardsDoubles (guards : scope.guardsDoubles = true)
    (becomes : BecomesAt scope user (fun position whole lowered => position = .select →
      GuardsDoubles scope.binding whole lowered) position whole lowered) (select : position = .select) :
    GuardsDoubles scope.binding whole lowered := by
  subst select
  obtain ⟨becomes, column⟩ := becomes
  intro path reference resolved stored selects resolves target double
  cases selects with
  | column =>
    rw [ColumnRef.guardedDouble_of_lower (column _ rfl) guards resolves target double]
    rfl
  | @inside _ part index path _ opens stands deeper =>
    cases becomes.arises with
    | column | doubleTest | unnest => cases stands
    | rows => cases opens
    | kept _ _ pairs =>
      obtain ⟨_, place, own⟩ := forall₂_getElem? pairs stands
      cases own with
      | @expr _ result own =>
        obtain ⟨_, reaches, own⟩ := own
        have found := own (reaches.select opens) path reference resolved stored deeper resolves target double
        rw [Fragment.at?, Fragment.inside, place]
        exact found

end Expr

/-! ## Parts -/

/-- Where a part reads shadows: in its items as is said of them, and nowhere else. A key of GROUP BY or ORDER BY
may be an alias that is written like a shadow. -/
structure Select.ReadsShadows (inItem : Expr → Prop) (part : Select) : Prop where
  items : ∀ item ∈ part.projection.itemList, inItem item.expr
  source : ∀ condition ∈ part.source.conditions, condition.Unshadowed
  definingFilter : ∀ condition ∈ part.definingFilter, condition.Unshadowed
  filter : ∀ condition ∈ part.filter, condition.Unshadowed
  groupBy : ∀ key ∈ part.groupBy,
    (Fragment.expr key).Refers fun reference => reference.IsShadow → reference.IsAlias part
  orderBy : ∀ key ∈ part.orderBy,
    (Fragment.expr key.expr).Refers fun reference => reference.IsShadow → reference.IsAlias part
  page : ∀ page ∈ part.page, ∀ count ∈ page.exprs, count.Unshadowed

/-- The select list has the items of the part, with each DOUBLE column that they select as its guard, and
perhaps others behind them. -/
def Select.GuardsDoubles (schemas : Schemas) (part lowered : Select) : Prop :=
  ∃ binding items own behind, Binding.ofSource schemas part.source = .ok binding ∧
    part.Spells binding items ∧ lowered.projection = .items (own ++ behind) ∧
    List.Forall₂ (fun item result => item.expr.GuardsDoubles binding result.expr) items own

namespace Select.LoweredAs

open Lowering
open ColumnRef (not_isShadow_metadata not_isShadow_side)

variable {schemas : Schemas} {guards : Bool} {metadata : List RowMetadata} {known : List TableId}
  {part lowered : Select}

theorem readsShadows {inItem : Expr → Prop}
    (lowers : part.LoweredAs schemas guards metadata known lowered)
    (undefined : part.definingFilter = none)
    (untested : ¬ Fragment.Holds Expr.IsDoubleTest (.select part))
    (plain : ∀ expr : Expr, expr.Unshadowed → inItem expr)
    (guarded : guards = true → ∀ expr : Expr, expr.Guarded → inItem expr) :
    lowered.ReadsShadows inItem := by
  obtain ⟨⟨binding, bound⟩, searches, start, stop, boundAs, _, ran⟩ := lowers
  let scope : Scope := { schemas, binding, guardsDoubles := guards, aliases := bound.aliases }
  have becomes := (@keeps_selectAt start.context.userId (Expr.ShadowsAt scope) schemas guards metadata
    binding bound (fun _ _ _ becomes => becomes.shadowsAt) start _ stop rfl ran).2
  have aliases := (keeps_aliases start _ stop trivial ran).2
  have each : ∀ expr ∈ bound.clauses, ¬ Fragment.Holds Expr.IsDoubleTest (.expr expr) := by
    intro expr member holds
    rcases boundAs.clauses.2 expr member with own | ⟨qualifier, name, rfl⟩
    · exact untested (Fragment.holds_select.mpr ⟨expr, mem_exprs_iff.mpr (.inl own), holds⟩)
    · exact Fragment.not_holds_leaf not_false rfl holds
  have item {whole result : Expr} (member : whole ∈ bound.clauses)
      (own : Expr.ShadowsAt scope .select whole result) : inItem result := by
    cases given : guards with
    | false => exact plain result (own.unshadowed (each whole member) nofun fun _ => given)
    | true => exact guarded given result ((own (each whole member)).2 rfl)
  have condition {whole result : Expr} (member : whole ∈ bound.clauses)
      (own : Expr.ShadowsAt scope (.condition none) whole result) : result.Unshadowed :=
    own.unshadowed (each whole member) nofun nofun
  have key {whole result : Expr} (member : whole ∈ bound.clauses)
      (own : Expr.ShadowsAt scope .sort whole result) :
      (Fragment.expr result).Refers fun reference => reference.IsShadow → reference.IsAlias lowered :=
    ((own (each whole member)).1 nofun).mono fun reference allowed shadow =>
      ⟨(allowed shadow).2.1, aliases _ (allowed shadow).2.2⟩
  obtain ⟨⟨items, projection, listed⟩, ⟨clause, columns, source, conditions, of⟩, defining, filter, groupBy,
    orderBy, page⟩ := becomes
  constructor
  · rw [projection]
    refine List.forall_mem_append.mpr ⟨?_, List.forall_mem_map.mpr fun column _ => plain _ ?_⟩
    · exact forall₂_right listed fun before among result own =>
        item (mem_clauses.mpr (.inl ⟨before, among, rfl⟩)) own.1
    · exact column.refers (fun _ _ _ => not_isShadow_metadata _ _) fun _ => not_isShadow_metadata _ _
  · rw [source, Source.conditions_withSideTables]
    refine List.forall_mem_append.mpr ⟨?_, List.forall_mem_map.mpr fun column _ => ?_⟩
    · refine forall₂_right conditions.pairs fun before among result own => condition ?_ own
      rw [Binding.conditions_lowerTables] at among
      exact mem_clauses.mpr (.inr (.inl among))
    · exact column.refers_joined (not_isShadow_metadata _ _) (not_isShadow_side _ column.id _ (by simp))
  · rw [defining, boundAs.definingFilter.trans undefined]
    exact nofun
  · intro result given
    obtain ⟨before, among, own⟩ := Option.rel_right filter result given
    exact condition (mem_clauses.mpr (.inr (.inr (.inr (.inl among))))) own
  · exact forall₂_right groupBy fun before among result own =>
      key (mem_clauses.mpr (.inr (.inr (.inr (.inr (.inl among)))))) own
  · exact forall₂_right orderBy fun before among result own =>
      key (mem_clauses.mpr (.inr (.inr (.inr (.inr (.inr ⟨before, among, rfl⟩)))))) own.1
  · intro window given count among
    obtain ⟨before, _, limit, offset⟩ := Option.rel_right page window given
    have counts : ∃ index, count = .parameter (placeholderName index) := by
      rcases List.mem_cons.mp among with rfl | behind
      · exact limit.2
      · obtain ⟨_, _, own⟩ := Option.rel_right offset count (Option.mem_toList.mp behind)
        exact own.2
    obtain ⟨index, rfl⟩ := counts
    exact Fragment.refers_leaf (by simp) rfl

theorem guardsDoubles (lowers : part.LoweredAs schemas true metadata known lowered) :
    part.GuardsDoubles schemas lowered := by
  obtain ⟨⟨binding, bound⟩, searches, start, stop, boundAs, _, ran⟩ := lowers
  let scope : Scope := { schemas, binding, guardsDoubles := true, aliases := bound.aliases }
  have becomes := (@keeps_selectAt start.context.userId
    (fun position whole lowered => position = .select → whole.GuardsDoubles binding lowered) schemas true metadata
    binding bound (fun _ _ _ becomes => @becomes.guardsDoubles scope _ _ _ _ rfl) start _ stop rfl ran).2
  obtain ⟨own, projection, listed⟩ := becomes.items
  exact ⟨binding, bound.projection.itemList, own, _, boundAs.1, boundAs.spells, projection,
    listed.imp fun _ _ pair => pair.1 rfl⟩

end Select.LoweredAs

/-! ## Tests in the queries of a plan -/

namespace Fragment

/-- The test passes neither parentheses nor conjunctions, which is all that narrowing adds to a query. -/
structure SeesThrough (test : Expr → Prop) : Prop where
  nested : ∀ inner, ¬ test (.nested inner)
  and : ∀ left right, ¬ test (.and left right)

theorem seesThrough_doubleTest : SeesThrough Expr.IsDoubleTest :=
  ⟨fun _ => not_false, fun _ _ => not_false⟩

variable {test : Expr → Prop}

theorem holds_parenthesized (sees : SeesThrough test) {expr : Expr} :
    Holds test (.expr expr.parenthesized) ↔ Holds test (.expr expr) := by
  unfold Expr.parenthesized
  split
  · rfl
  · rw [holds_form (sees.nested _)]
    simp

theorem holds_narrowed (sees : SeesThrough test) {filter : Option Expr} {condition : Expr} :
    Holds test (.expr (Expr.narrowed filter condition)) ↔
      (∃ own ∈ filter, Holds test (.expr own)) ∨ Holds test (.expr condition) := by
  cases filter with
  | none => simp [Expr.narrowed]
  | some own =>
    have both : Holds test (.expr (.and own.parenthesized condition.parenthesized)) ↔
        Holds test (.expr own.parenthesized) ∨ Holds test (.expr condition.parenthesized) := by
      rw [holds_form (sees.and _ _)]
      simp [Expr.and]
    simp [Expr.narrowed, both, holds_parenthesized sees]

theorem holds_narrow (sees : SeesThrough test) {defining narrowed : Query} {condition : Option Expr}
    (narrows : IndexDescription.narrow defining condition = .ok narrowed) :
    Holds test (.query narrowed) ↔
      Holds test (.query defining) ∨ ∃ expr ∈ condition, Holds test (.expr expr) := by
  cases condition with
  | none =>
    cases narrows
    simp
  | some condition =>
    obtain ⟨_, rfl⟩ := IndexDescription.narrow_iff.mp narrows
    have filtered := @holds_narrowed test sees defining.first.filter condition
    have first : Holds test (.select (defining.first.narrowed none (some condition))) ↔
        Holds test (.select defining.first) ∨ Holds test (.expr condition) := by
      simp only [holds_select, Select.mem_exprs, Select.narrowed, Option.mem_def, Option.some.injEq]
        at filtered ⊢
      grind
    rw [holds_query, holds_query]
    simp only [Query.parts, List.mem_cons, exists_eq_or_imp, Option.mem_def, Option.some.injEq,
      exists_eq_left']
    grind [Query.elements]

theorem holds_definingFilter {part : Select} :
    Holds test (.select part) ↔ Holds test (.select { part with definingFilter := none }) ∨
      ∃ expr ∈ part.definingFilter, Holds test (.expr expr) := by
  simp only [holds_select, Select.mem_exprs, Option.not_mem_none]
  grind

/-- In a query that was prepared is nothing but what is in the query or in the defining query. -/
theorem holds_prepare (sees : SeesThrough test) {description : IndexDescription} {query prepared : Query}
    (prepares : description.prepare query = .ok prepared) (holds : Holds test (.query prepared)) :
    ∃ source ∈ query :: description.definition?.toList, Holds test (.query source) := by
  cases IndexDescription.prepares_of_ok prepares with
  | stored => exact ⟨_, List.mem_cons_self, holds⟩
  | @expanded _ _ defining _ single plain parsed narrows =>
    have here (own : Holds test (.select query.first)) : Holds test (.query query) :=
      holds_query.mpr (.inr ⟨_, List.mem_cons_self, own⟩)
    rw [holds_query] at holds
    simp only [Query.elements, Query.parts, single, Option.getD_some, List.map_nil, List.mem_singleton,
      exists_eq_left, holds_narrow sees narrows] at holds
    rcases holds with (defined | moved) | kept
    · exact ⟨defining, by simp [IndexDescription.definition_virtual parsed], defined⟩
    · exact ⟨query, List.mem_cons_self, here (holds_definingFilter.mpr (.inr moved))⟩
    · exact ⟨query, List.mem_cons_self, here (holds_definingFilter.mpr (.inl kept))⟩

end Fragment

/-- A test that no query of a statement has is in no part of its plan. -/
theorem Plan.every_not_holds {test : Expr → Prop} (sees : Fragment.SeesThrough test)
    {property : Select → Prop} {lookup : List IndexDescription} {sqlContext : SqlContext}
    {context : BindingContext} {description : IndexDescription} {query : Query} {plan : Plan}
    (laid : layOut lookup sqlContext context description query = .ok plan)
    (every : plan.Every fun query => ∀ part ∈ query.parts, property part)
    (nowhere : ∀ source ∈ query :: plan.definitions, ¬ Fragment.Holds test (.query source)) :
    plan.Every fun query => ∀ part ∈ query.parts, property part ∧ ¬ Fragment.Holds test (.select part) := by
  replace laid := laidOut_of_ok laid
  induction laid with
  | plain checked none =>
    refine ⟨none, fun part member => ⟨every.2 part member, fun holds => ?_⟩⟩
    obtain ⟨source, listed, own⟩ := Fragment.holds_prepare sees (IndexDescription.prepare_of_checked checked)
      (Fragment.holds_query.mpr (.inr ⟨part, member, holds⟩))
    exact nowhere source listed own
  | @layered _ _ _ _ _ prepared element _ inner checked clause _ _ _ _ ih =>
    have absent : ¬ Fragment.Holds test (.query prepared) := by
      intro holds
      obtain ⟨source, listed, own⟩ := Fragment.holds_prepare sees
        (IndexDescription.prepare_of_checked checked) holds
      exact nowhere source (List.mem_append_left inner.definitions listed) own
    refine ⟨fun part member => ⟨every.1 part member, fun holds => absent ?_⟩,
      ih every.2 fun source listed holds => ?_⟩
    · exact Fragment.holds_query.mpr (.inr ⟨part, member, holds⟩)
    · rcases List.mem_cons.mp listed with rfl | below
      · exact absent (Fragment.holds_query.mpr (.inl ⟨element, by simp [Query.elements, clause], holds⟩))
      · exact nowhere source (List.mem_cons_of_mem _ (List.mem_append_right _ below)) holds

/-! ## Statements -/

/-- The property holds of each part of the query and of the queries in its WITH clause, at any depth. -/
inductive Query.EveryPart (property : Select → Prop) : Query → Prop where
  | of {query : Query} (parts : ∀ part ∈ query.parts, property part)
      (elements : ∀ element ∈ query.elements, EveryPart property element.query) : EveryPart property query

namespace Plan

theorem Lowers.everyPart {related : Select → Select → Prop} {property : Select → Prop} {plan : Plan}
    {query : Query} (lowers : plan.Lowers related query)
    (each : ∀ part lowered, related part lowered → property lowered) : query.EveryPart property := by
  induction plan generalizing query with
  | plain description planned =>
    refine .of (forall₂_right lowers.2 fun part _ lowered => each part lowered) ?_
    simp [Query.elements, lowers.1]
  | layered description planned name inner ih =>
    obtain ⟨⟨element, clause, below⟩, parts⟩ := lowers
    refine .of (forall₂_right parts fun part _ lowered => each part lowered) ?_
    rw [Query.elements, clause]
    exact List.forall_mem_singleton.mpr (ih below)

end Plan

namespace Compiler

open Lowering

variable {compiler : Compiler} {compiled : CompiledQuery} {state after : LoweringState}

theorem unshadowed_elements {plan : Plan} {role : Role}
    (plain : plan.Every fun query => ∀ part ∈ query.parts,
      part.definingFilter = none ∧ ¬ Fragment.Holds Expr.IsDoubleTest (.select part))
    (ran : (compiler.compilePlan role plan).run state = (.ok compiled, after)) :
    ∀ element ∈ compiled.query.elements, element.query.EveryPart (Select.ReadsShadows Expr.Unshadowed) := by
  cases plan with
  | plain description query =>
    obtain ⟨_, _, _, clause, _⟩ := guarded_compileParts ran
    simp [Query.elements, clause, plain.1]
  | layered description query name inner =>
    obtain ⟨below, _, ran_below, ran⟩ := run_bind ran
    obtain ⟨element, _, ran_element, ran⟩ := run_bind ran
    obtain ⟨_, _, _, clause, _⟩ := guarded_compileParts ran
    have lowers : inner.Lowers (fun _ lowered => lowered.ReadsShadows Expr.Unshadowed) below.query := by
      apply related_compilePlan plain.2 _ ran_below
      rintro guards metadata tables part lowered guarded ⟨undefined, untested⟩ lowers
      refine lowers.readsShadows undefined untested (fun _ own => own) fun given => ?_
      cases (guarded given).1
    rw [Query.elements, clause]
    refine List.forall_mem_singleton.mpr ?_
    rw [CompiledQuery.toCommonTable_query (run_lift ran_element).1]
    exact lowers.everyPart fun _ _ own => own

theorem shadows_compileParts {description : IndexDescription} {query : Query} {inner : Option CompiledQuery}
    (plain : ∀ part ∈ query.parts,
      part.definingFilter = none ∧ ¬ Fragment.Holds Expr.IsDoubleTest (.select part))
    (ran : (compiler.compileParts .statement description query inner).run state = (.ok compiled, after)) :
    List.Forall₂ (fun part lowered => (lowered.ReadsShadows fun expr =>
        if compiler.context = .query then expr.Guarded else expr.Unshadowed) ∧
      (compiler.context = .query → part.GuardsDoubles compiler.schemas lowered))
      query.parts compiled.query.parts := by
  refine (related_compileParts plain ?_ ran).2
  rintro guards metadata tables part lowered guarded ⟨undefined, untested⟩ lowers
  constructor
  · refine lowers.readsShadows undefined untested ?_ ?_
    · intro expr plain
      split
      · exact .unshadowed plain
      · exact plain
    · intro given expr own
      rw [if_pos (guarded.mp given).2]
      exact own
  · intro context
    obtain rfl := guarded.mpr ⟨rfl, context⟩
    exact lowers.guardsDoubles

/-- The shadows in a statement for a query that does not test for values that are no finite numbers, neither
itself nor in the defining queries that it reads. The statement reads them only if it answers a query, and then
in the select lists of its own parts, in complete guards outside of calls, casts, tests on lists and searches.
In turn, each DOUBLE column that is selected outside of these is read through its guard. -/
theorem shadows_read_in_guards (compiler : Compiler) (query : Query) (statement : Statement)
    (compiled : compiler.compileQuery query = .ok statement) :
    ∃ plan, Plan.ofStatement compiler.lookup compiler.context compiler.start compiler.description
        query = .ok plan ∧
      ((∀ source ∈ query :: plan.definitions, ¬ Fragment.Holds Expr.IsDoubleTest (.query source)) →
        (∀ part ∈ statement.compiled.query.parts, part.ReadsShadows
          fun expr => if compiler.context = .query then expr.Guarded else expr.Unshadowed) ∧
        (∀ element ∈ statement.compiled.query.elements,
          element.query.EveryPart (Select.ReadsShadows Expr.Unshadowed)) ∧
        (compiler.context = .query →
          List.Forall₂ (Select.GuardsDoubles compiler.schemas) query.parts statement.compiled.query.parts)) := by
  obtain ⟨plan, stop, planned, ran_plan⟩ := run_of_compileQuery compiled
  refine ⟨plan, planned, fun untested => ?_⟩
  obtain ⟨prepared, inner, start, after, parts, ran⟩ := compileParts_of_query compiled
  obtain ⟨entered, _, laid⟩ := Except.of_bind planned
  have own : ∀ part ∈ prepared.parts,
      part.definingFilter = none ∧ ¬ Fragment.Holds Expr.IsDoubleTest (.select part) := by
    rw [parts, List.forall_mem_map]
    refine fun part member => ⟨rfl, fun holds => untested query List.mem_cons_self ?_⟩
    exact Fragment.holds_query.mpr (.inr ⟨part, member, Fragment.holds_definingFilter.mpr (.inl holds)⟩)
  have lowers := shadows_compileParts own ran
  rw [parts, List.forall₂_map_left_iff] at lowers
  refine ⟨forall₂_right lowers fun _ _ _ own => own.1, ?_,
    fun context => lowers.imp fun _ _ own => own.2 context⟩
  exact unshadowed_elements (Plan.every_not_holds Fragment.seesThrough_doubleTest laid
    (Plan.definingFilter_ofStatement planned) untested) ran_plan

/-- `SELECT weight*2, SUM(weight) FROM syn2 WHERE weight > 1 GROUP BY weight` -/
def doubledQuery : Query :=
  .single { Select.simple (.items [⟨.binary .multiply (.named "weight") (.integer 2), none⟩,
      ⟨.apply "SUM" [.named "weight"], none⟩]) (.named "syn2") with
    filter := some (.binary .greater (.named "weight") (.integer 1))
    groupBy := [.named "weight"] }

theorem doubledQuery_untested : ¬ Fragment.Holds Expr.IsDoubleTest (.query doubledQuery) := by
  have exprs : doubledQuery.first.exprs = [.binary .multiply (.named "weight") (.integer 2),
      .apply "SUM" [.named "weight"], .binary .greater (.named "weight") (.integer 1), .named "weight"] := rfl
  intro holds
  obtain ⟨expr, listed, holds⟩ := Fragment.holds_select.mp (Fragment.holds_single.mp holds)
  replace listed : expr ∈ doubledQuery.first.exprs := listed
  rw [exprs] at listed
  simp only [List.mem_cons, List.not_mem_nil, or_false] at listed
  rcases listed with rfl | rfl | rfl | rfl
  all_goals
    simp [Fragment.holds_expr, Expr.IsDoubleTest, Expr.named, Expr.integer, Expr.apply] at holds

theorem shadows_read_in_guards_doubled :
    ∃ statement, weighedCompiler.compileQuery doubledQuery = .ok statement ∧
      statement.text = "SELECT CASE WHEN _DBL_C13_ IS NULL THEN _C13_ ELSE _DBL_C13_ END*2, SUM(_C13_) " ++
        "FROM T2 WHERE _C13_ > :b0 GROUP BY _C13_" ∧
      (∀ part ∈ statement.compiled.query.parts, part.ReadsShadows Expr.Guarded) ∧
      List.Forall₂ (Select.GuardsDoubles weighedCompiler.schemas) doubledQuery.parts
        statement.compiled.query.parts := by
  obtain ⟨statement, compiled, text⟩ : ∃ statement,
      weighedCompiler.compileQuery doubledQuery = .ok statement ∧
      statement.text = "SELECT CASE WHEN _DBL_C13_ IS NULL THEN _C13_ ELSE _DBL_C13_ END*2, SUM(_C13_) " ++
        "FROM T2 WHERE _C13_ > :b0 GROUP BY _C13_" := compiles_within 1 (by decide +kernel)
  obtain ⟨_, planned, shadows⟩ := shadows_read_in_guards weighedCompiler doubledQuery statement compiled
  cases planned.symm.trans (Plan.layOut_plain rfl rfl)
  obtain ⟨parts, _, guards⟩ := shadows (List.forall_mem_singleton.mpr doubledQuery_untested)
  exact ⟨statement, compiled, text, parts, guards rfl⟩

/-- `SELECT MATCH(ROW_SEARCH_CONTENT) AGAINST(weight) FROM syn2` -/
def matchedQuery : Query :=
  .single (Select.simple (.items [⟨.matchAgainst (.named "weight"), none⟩]) (.named "syn2"))

/-- A DOUBLE column that is searched for is selected outside of calls, but is read without a guard. -/
theorem searched_double_unguarded :
    ∃ statement, weighedCompiler.compileQuery matchedQuery = .ok statement ∧
      statement.text =
        "SELECT MATCH(ROW_SEARCH_CONTENT) AGAINST(_C13_), ROW_ID, ROW_VERSION FROM T2" ∧
      statement.compiled.query.first.projection.itemList.head?.map SelectItem.expr =
        some (.matchAgainst (.column (Physical.columnRef none 13))) := by
  exact compiles_within 1 (by decide +kernel)

end Compiler

end TabularSql
