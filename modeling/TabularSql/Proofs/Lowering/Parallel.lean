import TabularSql.Proofs.Lowering.Pairs
import TabularSql.Proofs.Lowering.Related
import TabularSql.Proofs.Lowering.Statements

/-!
# Statements that differ in their conditions

Two plans of the same shape whose expressions are equal outside conditions are compiled side by side. If
related conditions are lowered to related conditions again, then the two statements fail with the same
error, or they are related in turn and differ otherwise in their bound values at most.
-/

namespace TabularSql

set_option autoImplicit false

/-! ## Lowering related parts -/

/-- Conditions that are related by `conditions` become conditions that are related by `lowered`, and an
expression is always lowered in the same way; values that are bound in the place of one another are
related by `same`. -/
structure Lowering.Parallel (same : ParameterValue → ParameterValue → Prop)
    (conditions lowered : Expr → Expr → Prop) : Prop where
  value : ∀ value, same value value
  expr : ∀ (scope : Scope) (position : Position) (expr : Expr),
    Matches same (expr.lower scope position) (expr.lower scope position) Eq
  condition : ∀ (scope : Scope) {one two : Expr}, conditions one two →
    Matches same (one.lower scope (.condition none)) (two.lower scope (.condition none)) lowered
  refl : ∀ expr, lowered expr expr

theorem Source.Related.withSideTables {conditions : Expr → Expr → Prop}
    (alike : ∀ expr, conditions expr expr) {one two : Source} (related : one.Related conditions two)
    (columns : List ListColumn) :
    (one.withSideTables columns).Related conditions (two.withSideTables columns) := by
  unfold Source.withSideTables
  induction columns generalizing one two with
  | nil => exact related
  | cons column columns ih => exact ih (.join .left _ related (alike _))

theorem UnionBranch.Related.zipWith {conditions lowered : Expr → Expr → Prop}
    {unions branches : List UnionBranch} {parts others : List Select}
    (related : List.Forall₂ (UnionBranch.Related Eq conditions) unions branches)
    (selects : List.Forall₂ (Select.Related Eq lowered) parts others) :
    List.Forall₂ (UnionBranch.Related Eq lowered)
      (List.zipWith (fun branch select => { branch with select }) unions parts)
      (List.zipWith (fun branch select => { branch with select }) branches others) := by
  induction related generalizing parts others with
  | nil => exact .nil
  | cons branch _ ih =>
    cases selects with
    | nil => exact .nil
    | cons own behind => exact .cons ⟨branch.1, own⟩ (ih behind)

theorem Query.RelatedParts.withParts {conditions lowered : Expr → Expr → Prop} {one two : Query}
    {parts others : List Select} (related : one.RelatedParts Eq conditions two)
    (selects : List.Forall₂ (Select.Related Eq lowered) parts others)
    (counted : parts.length = one.parts.length) :
    (one.withParts parts).RelatedParts Eq lowered (two.withParts others) := by
  cases selects with
  | nil => simp [Query.parts] at counted
  | cons own rest => exact ⟨own, UnionBranch.Related.zipWith related.unions rest⟩

namespace Lowering

open Lowering

variable {same : ParameterValue → ParameterValue → Prop} {conditions lowered : Expr → Expr → Prop}
  (parallel : Parallel same conditions lowered)

include parallel

theorem matches_lowerConditions (scope : Scope) {one two : Source}
    (related : one.Related conditions two) :
    Matches same (one.lowerConditions scope) (two.lowerConditions scope) (Source.Related lowered) := by
  induction related with
  | table only => exact matches_pure (.table only)
  | join kind right _ condition ih =>
    apply matches_bind ih
    intro left left' lefts
    apply matches_bind (parallel.condition scope condition)
    intro own own' owns
    exact matches_pure (.join kind right lefts owns)

theorem matches_lowerFilter (scope : Scope) {one two : Option Expr}
    (related : Option.Rel conditions one two) :
    Matches same (Expr.lowerOption scope (.condition none) one)
      (Expr.lowerOption scope (.condition none) two) (Option.Rel lowered) := by
  cases related with
  | none => exact matches_pure .none
  | some own =>
    apply matches_bind (parallel.condition scope own)
    intro left right both
    exact matches_pure (.some both)

theorem matches_lowerPage (page : Page) :
    Matches same page.lower page.lower Eq := by
  have count (expr : Expr) : Matches same (Page.lowerCount expr) (Page.lowerCount expr) Eq := by
    apply matches_after (.refl (fun _ => rfl) _)
    rintro left _ _ _ rfl
    exact matches_bound (parallel.value _)
  apply matches_then (count page.limit)
  intro limit
  apply matches_then (matches_optional fun offset _ => count offset)
  intro offset
  exact matches_pure rfl

theorem matches_lowerSelect (schemas : Schemas) (guardsDoubles : Bool) (metadata : List RowMetadata)
    (binding : Binding) {one two : Select} (related : one.Related Eq conditions two)
    (undefined : one.definingFilter = none) :
    Matches same (one.lower schemas guardsDoubles metadata binding)
      (two.lower schemas guardsDoubles metadata binding)
      fun left right => left.1.Related Eq lowered right.1 ∧ left.2 = right.2 := by
  have shape := related.eq_outside
  have defining := related.definingFilter
  obtain ⟨distinct, projection, source, definingFilter, filter, groupBy, orderBy, page⟩ := one
  obtain ⟨_, _, source', definingFilter', filter', _, _, _⟩ := two
  cases shape
  cases undefined
  cases defining
  have sources := related.source.lowerTables binding
  have reset : Matches same
      (modify fun state : LoweringState => { state with unnested := [], searches := false })
      (modify fun state => { state with unnested := [], searches := false }) Eq :=
    matches_modify fun first second paired =>
      ⟨paired.userId, paired.expanding, paired.values, rfl, rfl⟩
  unfold Select.lower
  dsimp only [Select.aliases]
  apply matches_then reset
  rintro ⟨⟩
  apply matches_then (matches_mapM_same fun item _ => matches_then (parallel.expr _ _ item.expr)
    fun value => matches_pure rfl)
  intro items
  apply matches_bind (matches_lowerConditions parallel _ sources)
  intro tables tables' from_related
  apply matches_bind (matches_lowerFilter parallel _ related.filter)
  intro condition condition' where_related
  rw [Expr.lowerAll_eq_mapM]
  apply matches_then (matches_mapM_same fun expr _ => parallel.expr _ _ expr)
  intro groups
  apply matches_then (matches_mapM_same fun key _ => matches_then (parallel.expr _ _ key.expr)
    fun value => matches_pure rfl)
  intro keys
  apply matches_then (matches_optional fun page _ => matches_lowerPage parallel page)
  intro window
  apply matches_bind matches_get
  intro state state' paired
  apply matches_pure
  rw [← paired.unnested, ← paired.searches]
  refine ⟨{ Select.Related.refl (fun _ => rfl) parallel.refl _ with source := ?_, filter := ?_ }, rfl⟩
  · exact from_related.withSideTables parallel.refl _
  · exact where_related

end Lowering

/-! ## Compiling related plans -/

structure CompiledQuery.Related (lowered : Expr → Expr → Prop) (one two : CompiledQuery) : Prop where
  query : one.query.Related Eq lowered two.query
  rest : two = { one with query := two.query }

theorem CompiledQuery.agree_toCommonTable {lowered : Expr → Expr → Prop} (name : Identifier)
    {one two : CompiledQuery} (related : one.Related lowered two) :
    Except.Agree (CommonTable.Related Eq lowered) (one.toCommonTable name)
      (two.toCommonTable name) := by
  have columns : one.commonColumns name = two.commonColumns name := by
    rw [related.rest]
    rfl
  unfold CompiledQuery.toCommonTable
  rw [columns]
  apply Except.Agree.bind (.refl (fun _ => rfl) _)
  rintro columns _ _ _ rfl
  exact .ok (.mk _ columns related.query)

structure Statement.Related (same : ParameterValue → ParameterValue → Prop)
    (lowered : Expr → Expr → Prop) (one two : Statement) : Prop where
  compiled : one.compiled.Related lowered two.compiled
  values : List.Forall₂ same one.parameters.values two.parameters.values

/-- The statement that the run of a plan ends in. -/
def Statement.ofRun (outcome : Except CompileError CompiledQuery × LoweringState) :
    Except CompileError Statement := do
  return ⟨← outcome.1, outcome.2.context.parameters⟩

theorem Compiler.compileQuery_eq (compiler : Compiler) (query : Query) :
    compiler.compileQuery query = (do
      let plan ← Plan.ofStatement compiler.lookup compiler.context compiler.start compiler.description
        query
      Statement.ofRun ((compiler.compilePlan .statement plan).run { context := compiler.start })) :=
  rfl

section Compiling

variable {conditions : Expr → Expr → Prop} {one two : Select}

theorem Select.Related.eq_page (related : one.Related Eq conditions two) : one.page = two.page := by
  rw [related.eq_outside]

theorem Select.Related.isAggregate (related : one.Related Eq conditions two) :
    one.isAggregate = two.isAggregate := by
  rw [related.eq_outside]
  rfl

theorem Select.Related.describe (related : one.Related Eq conditions two) (schemas : Schemas)
    (binding : Binding) : one.describe schemas binding = two.describe schemas binding := by
  rw [related.eq_outside]
  rfl

inductive Select.BoundAlike (conditions : Expr → Expr → Prop) :
    Binding × Select → Binding × Select → Prop where
  | mk (binding : Binding) {one two : Select} (related : one.Related Eq conditions two)
      (undefined : one.definingFilter = none) : Select.BoundAlike conditions (binding, one) (binding, two)

namespace Select.BoundAlike

variable {one two : Binding × Select} (alike : BoundAlike conditions one two)

include alike

theorem eq_binding : one.1 = two.1 := by
  cases alike
  rfl

theorem isAggregate : one.2.isAggregate = two.2.isAggregate := by
  cases alike with
  | mk binding related _ => exact related.isAggregate

theorem describe (schemas : Schemas) :
    one.2.describe schemas one.1 = two.2.describe schemas two.1 := by
  cases alike with
  | mk binding related _ => exact related.describe schemas binding

end Select.BoundAlike

theorem Select.agree_bindTables (schemas : Schemas) (related : one.Related Eq conditions two)
    (undefined : one.definingFilter = none) :
    Except.Agree (Select.BoundAlike conditions) (one.bindTables schemas) (two.bindTables schemas) := by
  have tables : Binding.ofSource schemas one.source = Binding.ofSource schemas two.source := by
    rw [Binding.ofSource, Binding.ofSource, related.source.tables, related.source.isJoin]
  unfold Select.bindTables
  rw [tables]
  apply Except.Agree.bind (.refl (fun _ => rfl) _)
  rintro binding _ _ _ rfl
  have projection : one.projection = two.projection := by rw [related.eq_outside]
  rw [projection]
  cases given : two.projection with
  | items list => exact .ok (.mk binding related undefined)
  | all =>
    apply Except.Agree.bind (.refl (fun _ => rfl) _)
    rintro items _ _ _ rfl
    exact .ok (.mk binding { related with projection := .refl (fun _ => rfl) _ } undefined)

end Compiling

namespace Compiler

open Lowering

variable {same : ParameterValue → ParameterValue → Prop} {conditions lowered : Expr → Expr → Prop}
  (parallel : Parallel same conditions lowered) (compiler : Compiler)

theorem agree_pageLast (rowsPerPage : Option UInt64) {parts others : List (Binding × Select)}
    (related : List.Forall₂ (Select.BoundAlike conditions) parts others) :
    Except.Agree (List.Forall₂ (Select.BoundAlike conditions)) (compiler.pageLast rowsPerPage parts)
      (compiler.pageLast rowsPerPage others) := by
  induction related with
  | nil => exact .ok .nil
  | @cons part other rest behind own listed ih =>
    obtain ⟨binding, related, undefined⟩ := own
    cases listed with
    | nil =>
      simp only [pageLast]
      rw [related.eq_page]
      apply Except.Agree.bind (.refl (fun _ => rfl) _)
      rintro requested _ _ _ rfl
      apply Except.Agree.bind (.refl (fun _ => rfl) _)
      rintro capped _ _ _ rfl
      refine .ok (.cons (.mk binding { related with page := ?_ } undefined) .nil)
      exact Option.rel_refl fun page _ => ⟨rfl, Option.rel_refl fun _ _ => rfl⟩
    | cons second rest =>
      apply Except.Agree.bind ih
      intro paged paged' _ _ last
      exact .ok (.cons (.mk binding related undefined) last)

theorem agree_page (role : Role) (rowsPerPage : Option UInt64) {parts others : List (Binding × Select)}
    (related : List.Forall₂ (Select.BoundAlike conditions) parts others) :
    Except.Agree (List.Forall₂ (Select.BoundAlike conditions)) (compiler.page role rowsPerPage parts)
      (compiler.page role rowsPerPage others) := by
  cases role with
  | statement => exact agree_pageLast compiler rowsPerPage related
  | definition => exact .ok related

include parallel in
theorem matches_compileParts (role : Role) (description : IndexDescription) {one two : Query}
    (related : one.RelatedParts Eq conditions two)
    (clauses : Option.Rel (List.Forall₂ (CommonTable.Related Eq lowered)) one.commonTables
      two.commonTables)
    (undefined : ∀ part ∈ one.parts, part.definingFilter = none) {inner other : Option CompiledQuery}
    (inners : Option.Rel (CompiledQuery.Related lowered) inner other) :
    Matches same (compiler.compileParts role description one inner)
      (compiler.compileParts role description two other) (CompiledQuery.Related lowered) := by
  have tables : inner.map CompiledQuery.tableIds = other.map CompiledQuery.tableIds := by
    cases inners with
    | none => rfl
    | some own => rw [own.rest]; rfl
  have aggregates : inner.map CompiledQuery.isAggregated = other.map CompiledQuery.isAggregated := by
    cases inners with
    | none => rfl
    | some own => rw [own.rest]; rfl
  unfold compileParts
  rw [tables, aggregates]
  apply matches_after (Except.Agree.mapM
    ((List.forall₂_and_left one.parts two.parts).mpr ⟨undefined, related.parts⟩)
    fun part other both => Select.agree_bindTables compiler.schemas both.2 both.1)
  intro parts others bound _ pairs
  have counted := (Except.forall₂_of_mapM bound).length_eq
  have bindings : parts.map Prod.fst = others.map Prod.fst :=
    map_eq_of_forall₂ pairs fun _ _ alike => alike.eq_binding
  have aggregate : (parts.any fun part => part.2.isAggregate) =
      others.any fun part => part.2.isAggregate :=
    any_eq_of_forall₂ pairs fun _ _ alike => alike.isAggregate
  have described : (parts.map fun part => part.2.describe compiler.schemas part.1) =
      others.map fun part => part.2.describe compiler.schemas part.1 :=
    map_eq_of_forall₂ pairs fun _ _ alike => alike.describe compiler.schemas
  dsimp only
  rw [bindings, aggregate, described]
  apply matches_after (.refl (fun _ => rfl) _)
  rintro metadata _ _ _ rfl
  apply matches_after (compiler.agree_page role _ pairs)
  intro paged paged' paging _ pages
  apply matches_bind
  · apply matches_mapM pages
    rintro _ _ ⟨binding, related, undefined⟩
    exact matches_lowerSelect parallel _ _ _ binding related undefined
  intro selects selects' results
  have pairs : List.Forall₂ (Select.Related Eq lowered) (selects.map Prod.fst)
      (selects'.map Prod.fst) := by
    rw [List.forall₂_map_left_iff, List.forall₂_map_right_iff]
    exact results.2.imp fun _ _ result => result.1
  have count : (selects.map Prod.fst).length = one.parts.length := by
    rw [List.length_map, results.1, counted, (page_of_ok paging).length_eq]
  have searches : selects.any Prod.snd = selects'.any Prod.snd :=
    any_eq_of_forall₂ results.2 fun _ _ result => result.2
  apply matches_pure
  refine ⟨.mk ?_ (related.withParts pairs count), ?_⟩
  · rwa [Query.commonTables_withParts, Query.commonTables_withParts]
  · rw [searches]

include parallel in
/-- Plans that differ in related conditions only are compiled alike. -/
theorem matches_compilePlan (role : Role) {one two : Plan} (related : one.Related Eq conditions two)
    (undefined : one.Every fun query => ∀ part ∈ query.parts, part.definingFilter = none) :
    Matches same (compiler.compilePlan role one) (compiler.compilePlan role two)
      (CompiledQuery.Related lowered) := by
  induction related generalizing role with
  | plain description clause other parts =>
    apply matches_compileParts parallel compiler role description parts _ undefined.2 .none
    rw [clause, other]
    exact .none
  | @layered description name own opposite _ _ parts inside ih =>
    apply matches_bind (ih .definition undefined.2)
    intro inner deeper both
    apply matches_after (CompiledQuery.agree_toCommonTable name both)
    intro element other _ _ elements
    have changed : Query.RelatedParts Eq conditions { own with commonTables := some [element] }
        { opposite with commonTables := some [other] } := ⟨parts.first, parts.unions⟩
    exact matches_compileParts parallel compiler role description changed
      (.some (.cons elements .nil)) undefined.1 (.some both)

include parallel in
/-- Plans that differ in related conditions only end in the same error or in such statements. -/
theorem agree_ofRun {one two : Plan} (related : one.Related Eq conditions two)
    (undefined : one.Every fun query => ∀ part ∈ query.parts, part.definingFilter = none) :
    Except.Agree (Statement.Related same lowered)
      (Statement.ofRun ((compiler.compilePlan .statement one).run { context := compiler.start }))
      (Statement.ofRun ((compiler.compilePlan .statement two).run { context := compiler.start })) := by
  obtain ⟨states, outcomes⟩ := matches_compilePlan parallel compiler .statement related undefined _ _
    (.refl parallel.value { context := compiler.start })
  apply Except.Agree.bind outcomes
  intro first second _ _ both
  exact .ok ⟨both, states.values⟩

end Compiler

end TabularSql
