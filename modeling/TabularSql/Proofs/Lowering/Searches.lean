import TabularSql.Proofs.Lowering.Notes
import TabularSql.Query.Equality

/-!
# Searches

A statement says whether it searches. What it says is about its own parts: they hold a search exactly if the
parts of the query that was written do, the condition on a defining query apart. The WITH clause is not
counted. A search that comes from the definition of a virtual table, or that DEFINING_WHERE puts there, is
in the statement and is not reported.
-/

namespace TabularSql

set_option autoImplicit false

/-! ## Searches in trees -/

namespace Expr

/-- A search, as it is written in a query or as the store runs it. -/
def IsSearch : Expr → Prop
  | textMatches _ | matchAgainst _ => True
  | _ => False

/-- A search that the store runs, `MATCH(ROW_SEARCH_CONTENT) AGAINST(..)`. -/
def IsMatch : Expr → Prop
  | matchAgainst _ => True
  | _ => False

abbrev Searches (whole : Expr) : Prop := Fragment.Holds IsSearch (.expr whole)

end Expr

abbrev Fragment.Matches (whole : Fragment) : Prop := Fragment.Holds Expr.IsMatch whole

theorem Lowering.tracks_searches (scope : Scope) :
    Tracks scope (fun state => state.searches = true) Expr.IsSearch := by
  have search : Notes (fun state => state.searches = true) noteSearch True := by
    intro state value after ran
    cases ran
    simp
  refine ⟨fun _ _ => Iff.rfl, fun _ => search, fun _ => search, fun reference column _ => ?_, fun whole => ?_⟩
  · apply notes_nothing not_false
    intro state value after ran
    cases ran
    dsimp only
    split <;> rfl
  · cases whole <;> simp [Expr.IsSearch, Expr.LeavesNote]

/-! ## What becomes of searches -/

namespace Expr

theorem matches_anyOf {list : List Expr} {whole : Expr} (any : anyOf list = some whole) :
    (Fragment.expr whole).Matches ↔ ∃ expr ∈ list, (Fragment.expr expr).Matches := by
  have disjoined (rest : List Expr) (first : Expr) : (Fragment.expr (rest.foldl or first)).Matches ↔
      (Fragment.expr first).Matches ∨ ∃ expr ∈ rest, (Fragment.expr expr).Matches := by
    induction rest generalizing first with
    | nil => simp
    | cons second rest ih =>
      have pair : (Fragment.expr (or first second)).Matches ↔
          (Fragment.expr first).Matches ∨ (Fragment.expr second).Matches := by
        rw [Fragment.Matches, @Fragment.holds_form _ (or first second) not_false]
        simp [or]
      rw [List.foldl_cons, ih, pair]
      simp [or_assoc]
  cases list with
  | nil => cases any
  | cons first rest =>
    cases any
    simp [disjoined]

/-- What the expression becomes searches the store exactly if the expression searches. -/
abbrev MatchesAs (whole lowered : Expr) : Prop := whole.Searches ↔ (Fragment.expr lowered).Matches

namespace MatchesAs

variable {whole lowered : Expr}

theorem leaf (written : ¬ whole.Searches) (result : ¬ (Fragment.expr lowered).Matches) :
    whole.MatchesAs lowered :=
  iff_of_false written result

theorem form (written : ¬ whole.IsSearch) (result : ¬ lowered.IsMatch)
    (same : (∃ part ∈ whole.inside, Fragment.Holds IsSearch part) ↔
      ∃ part ∈ lowered.inside, Fragment.Holds IsMatch part) : whole.MatchesAs lowered := by
  rw [MatchesAs, Searches, Fragment.holds_form written, same, Fragment.Matches, Fragment.holds_form result]

end MatchesAs

theorem not_matches_column (reference : ColumnRef) : ¬ (Fragment.expr (column reference)).Matches :=
  Fragment.not_holds_leaf not_false rfl

theorem not_matches_lowersTo {scope : Scope} {position : Position} {reference : ColumnRef} {lowered : Expr}
    (lowers : reference.LowersTo scope position lowered) : ¬ (Fragment.expr lowered).Matches := by
  cases lowers with
  | physical found => exact not_matches_column _
  | guarded =>
    simp [Fragment.holds_expr, Physical.guardedDouble, Physical.shadowExpr, IsMatch]
  | unresolved nothing kept => cases kept <;> exact not_matches_column _

theorem not_matches_doubleTest {scope : Scope} {test : DoubleTest} {reference : ColumnRef} {lowered : Expr}
    (ok : test.lower scope reference = .ok lowered) : ¬ (Fragment.expr lowered).Matches := by
  obtain ⟨resolved, stored, _, _, _, rfl | rfl⟩ := DoubleTest.lower_of_ok ok
  · simp [Fragment.holds_expr, Physical.nanTest, Physical.shadowExpr, Expr.and, Expr.equals, Expr.string,
      inside, IsMatch]
  · simp [Fragment.holds_expr, Physical.infinityTest, Physical.shadowExpr, Expr.and, Expr.string, inside,
      IsMatch]

theorem matches_rowsWith (column : ListColumn) (condition : Expr) (negated : Bool) :
    (Fragment.expr (column.rowsWith condition negated)).Matches ↔ (Fragment.expr condition).Matches := by
  rw [Fragment.Matches, @Fragment.holds_form _ (column.rowsWith condition negated) not_false]
  simp [ListColumn.rowsWith, inside, Fragment.holds_single, Fragment.holds_select, Select.exprs,
    Select.simple, Projection.itemList, Source.named, Source.conditions, named, not_matches_column]

theorem matches_matching {column : ListColumn} {pattern : Bool} {values : List Expr} {condition : Expr}
    (ok : column.matching pattern values = .ok condition) :
    (Fragment.expr condition).Matches ↔ ∃ value ∈ values, (Fragment.expr value).Matches := by
  rcases ListColumn.matching_of_ok ok with rfl | ⟨_, any⟩
  · rw [Fragment.Matches, Fragment.holds_form (by exact not_false)]
    simp [ListColumn.elementExpr, named, not_matches_column]
  · rw [matches_anyOf any]
    simp only [List.mem_map, exists_exists_and_eq_and]
    refine exists_congr fun value => and_congr_right fun _ => ?_
    rw [Fragment.Matches, Fragment.holds_form (by exact not_false)]
    simp [ListColumn.elementExpr, named, not_matches_column]

theorem matchesAs_of_becomes {scope : Scope} {user : Int64} {whole lowered : Expr}
    (becomes : Becomes scope user MatchesAs whole lowered) : whole.MatchesAs lowered := by
  cases becomes with
  | literal | bound | parameter | wildcard | user | boundUser =>
    exact .leaf (Fragment.not_holds_leaf not_false rfl) (Fragment.not_holds_leaf not_false rfl)
  | column own => exact .leaf (Fragment.not_holds_leaf not_false rfl) (not_matches_lowersTo own)
  | doubleTest own => exact .leaf (Fragment.not_holds_leaf not_false rfl) (not_matches_doubleTest own)
  | unnest listed => exact .leaf (Fragment.not_holds_leaf not_false rfl) (not_matches_column _)
  | call name distinct each =>
    refine .form not_false not_false ?_
    simpa using forall₂_exists each
  | cast own | unary _ own | nested own | isNull _ own | isTruth _ _ own =>
    refine .form not_false not_false ?_
    simpa using own
  | @caseWhen _ _ branches pairs _ _ before each behind =>
    refine .form not_false not_false ?_
    rw [exists_caseWhen, exists_caseWhen]
    have both : (∃ branch ∈ branches, branch.1.Searches ∨ branch.2.Searches) ↔
        ∃ pair ∈ pairs, (Fragment.expr pair.1).Matches ∨ (Fragment.expr pair.2).Matches :=
      forall₂_exists (each.imp fun _ _ pair => or_congr pair.1 pair.2)
    exact or_congr (Option.rel_exists before) (or_congr both (Option.rel_exists behind))
  | binary operator one two =>
    refine .form not_false not_false ?_
    simpa using or_congr one two
  | between negated one two three =>
    refine .form not_false not_false ?_
    simpa using or_congr one (or_congr two three)
  | inList negated own each =>
    refine .form not_false not_false ?_
    simpa using or_congr own (forall₂_exists each)
  | like negated one two three =>
    refine .form not_false not_false ?_
    simpa using or_congr one (or_congr two (Option.rel_exists three))
  | has negated listed each matched =>
    obtain ⟨reference, rfl, _⟩ := testedList_of_ok listed
    have never : ¬ (Expr.column reference).Searches := Fragment.not_holds_leaf not_false rfl
    rw [MatchesAs, matches_rowsWith, matches_matching matched, Searches,
      Fragment.holds_form (by exact not_false)]
    simpa [never] using forall₂_exists each
  | textMatches own | matchAgainst own =>
    exact iff_of_true (Fragment.holds_expr.mpr (.inl trivial)) (Fragment.holds_expr.mpr (.inl trivial))

end Expr

/-! ## Parts -/

/-- Whether a part searches, the condition on a defining query and the row counts apart. -/
def Select.Searches (part : Select) : Prop :=
  ∃ expr ∈ { part with definingFilter := none : Select }.clauses, expr.Searches

theorem Lowering.searches_of_lower {schemas : Schemas} {guardsDoubles : Bool} {metadata : List RowMetadata}
    {binding : Binding} {part : Select} {result : Select × Bool} {state after : LoweringState}
    (ran : (part.lower schemas guardsDoubles metadata binding).run state = (.ok result, after)) :
    result.2 = true ↔ part.Searches := by
  rw [(notes_of_lower ran).1]
  exact noted_of_lower (tracks_searches _) (by simp) ran

namespace RowMetadata

theorem not_matches (column : RowMetadata) (binding : Binding) :
    ¬ (Fragment.expr (column.expr binding)).Matches := by
  cases column with
  | id | version | etag => exact Expr.not_matches_column _
  | benefactor view =>
    rw [RowMetadata.expr]
    split
    · simp [Physical.benefactor, Expr.apply, Fragment.holds_expr, Expr.IsMatch, Expr.integer]
    · exact Fragment.not_holds_leaf not_false rfl

end RowMetadata

namespace Select

theorem searches_iff {part : Select} (undefined : part.definingFilter = none) :
    part.Searches ↔ ∃ expr ∈ part.clauses, expr.Searches := by
  obtain ⟨distinct, projection, source, definingFilter, filter, groupBy, orderBy, page⟩ := part
  cases undefined
  rfl

theorem BoundAs.searches {schemas : Schemas} {part : Select} {bound : Binding × Select}
    (boundAs : part.BoundAs schemas bound) (undefined : part.definingFilter = none) :
    bound.2.Searches ↔ part.Searches := by
  rw [searches_iff undefined, searches_iff (boundAs.definingFilter.trans undefined)]
  constructor
  · rintro ⟨expr, member, searches⟩
    rcases boundAs.clauses.2 expr member with own | ⟨qualifier, name, rfl⟩
    · exact ⟨expr, own, searches⟩
    · exact absurd searches (Fragment.not_holds_leaf not_false rfl)
  · rintro ⟨expr, member, searches⟩
    exact ⟨expr, boundAs.clauses.1 expr member, searches⟩

/-- A lowered part searches the store exactly if the part searches. -/
theorem Becomes.matches {metadata : List RowMetadata} {binding : Binding} {part lowered : Select}
    (becomes : part.Becomes Expr.MatchesAs metadata binding lowered)
    (undefined : part.definingFilter = none) :
    (Fragment.select lowered).Matches ↔ part.Searches := by
  rw [searches_iff undefined, Fragment.Matches, Fragment.holds_select]
  constructor
  · rintro ⟨expr, member, searches⟩
    rcases becomes.exprs undefined member with ⟨own, inPart, same⟩ | ⟨column, _, rfl⟩ |
      ⟨column, _, _, rfl⟩ | ⟨index, rfl⟩
    · exact ⟨own, inPart, same.mpr searches⟩
    · exact absurd searches (column.not_matches binding)
    · simp [ListColumn.joined, Expr.equals, Fragment.holds_expr, Expr.IsMatch] at searches
    · exact absurd searches (Fragment.not_holds_leaf not_false rfl)
  · rintro ⟨expr, member, searches⟩
    obtain ⟨result, inLowered, same⟩ := becomes.lowers undefined member
    exact ⟨result, inLowered, same.mp searches⟩

theorem matches_of_lower {schemas : Schemas} {guardsDoubles : Bool} {metadata : List RowMetadata}
    {binding : Binding} {part : Select} {result : Select × Bool} {state after : LoweringState}
    (ran : (part.lower schemas guardsDoubles metadata binding).run state = (.ok result, after))
    (undefined : part.definingFilter = none) :
    result.2 = true ↔ (Fragment.select result.1).Matches := by
  have becomes := (Lowering.keeps_select schemas guardsDoubles metadata binding part
    (fun _ _ _ _ _ => Expr.matchesAs_of_becomes) state result after rfl ran).2
  rw [Lowering.searches_of_lower ran, becomes.matches undefined]

end Select

/-! ## Statements -/

/-- Whether a part of the query searches. The WITH clause is not counted. -/
def Query.Searches (query : Query) : Prop := ∃ part ∈ query.parts, part.Searches

namespace Plan

def Searches : Plan → Prop
  | plain _ query => query.Searches
  | layered _ query _ inner => inner.Searches ∨ query.Searches

/-- The query that is compiled last searches where the query that was written does. -/
theorem searches_query {lookup : List IndexDescription} {sqlContext : SqlContext} {context : BindingContext}
    {description : IndexDescription} {query : Query} {plan : Plan}
    (laid : ofStatement lookup sqlContext context description query = .ok plan) :
    plan.query.Searches ↔ query.Searches := by
  have prepares := IndexDescription.prepare_of_checked (prepared_query laid)
  cases description with
  | virtualTable id text =>
    obtain ⟨defining, narrowed, _, _, single, same⟩ := IndexDescription.prepare_virtual prepares
    simp [same, Query.Searches, Query.parts, single, Select.Searches]
  | table | view | materializedView => rw [(IndexDescription.prepare_stored rfl prepares).1]

end Plan

namespace Compiler

open Lowering

variable {compiler : Compiler} {compiled : CompiledQuery} {state after : LoweringState}

theorem searches_compileParts {role : Role} {description : IndexDescription} {query : Query}
    {inner : Option CompiledQuery}
    (ran : (compiler.compileParts role description query inner).run state = (.ok compiled, after))
    (undefined : ∀ part ∈ query.parts, part.definingFilter = none) :
    compiled.query.commonTables = query.commonTables ∧ (compiled.searches = true ↔ query.Searches) ∧
      (compiled.searches = true ↔ ∃ part ∈ compiled.query.parts, (Fragment.select part).Matches) := by
  obtain ⟨_, paged, _, lowered, own, ran⟩ := run_compileParts ran
  have pairs : List.Forall₂ (fun part result => (part.Searches ↔ result.2 = true) ∧
      (result.2 = true ↔ (Fragment.select result.1).Matches)) query.parts lowered := by
    apply forall₂_compose own.boundAs (run_mapM ran)
    rintro part member bound result boundAs ⟨start, stop, ran⟩
    have plain := undefined part member
    exact ⟨((searches_of_lower ran).trans (boundAs.searches plain)).symm,
      Select.matches_of_lower ran (boundAs.definingFilter.trans plain)⟩
  have written : query.Searches ↔ ∃ result ∈ lowered, result.2 = true :=
    forall₂_exists (pairs.imp fun _ _ pair => pair.1)
  rw [own.searches, own.parts]
  refine ⟨own.clause, by simp [written], ?_⟩
  have each : ∀ result ∈ lowered, result.2 = true ↔ (Fragment.select result.1).Matches :=
    forall₂_right pairs fun _ _ _ pair => pair.2
  simp only [List.any_eq_true, List.mem_map, exists_exists_and_eq_and]
  exact exists_congr fun result => and_congr_right fun member => each result member

/-- A plan is compiled from the inside out; only the query that is compiled last is reported. -/
theorem searches_compilePlan {plan : Plan} {role : Role}
    (undefined : plan.Every fun query => ∀ part ∈ query.parts, part.definingFilter = none)
    (ran : (compiler.compilePlan role plan).run state = (.ok compiled, after)) :
    (compiled.searches = true ↔ plan.query.Searches) ∧
      (compiled.searches = true ↔ ∃ part ∈ compiled.query.parts, (Fragment.select part).Matches) ∧
      ((Fragment.query compiled.query).Matches ↔ plan.Searches) := by
  induction plan generalizing role compiled state after with
  | plain description query =>
    obtain ⟨clause, written, shown⟩ := searches_compileParts ran undefined.2
    refine ⟨written, shown, ?_⟩
    rw [Fragment.Matches, Fragment.holds_query, ← shown, written, Query.elements, clause, undefined.1]
    simp [Plan.Searches]
  | layered description query name inner ih =>
    obtain ⟨below, _, ran_below, ran⟩ := run_bind ran
    obtain ⟨element, _, ran_element, ran⟩ := run_bind ran
    obtain ⟨clause, written, shown⟩ := searches_compileParts ran undefined.1
    refine ⟨written, shown, ?_⟩
    obtain ⟨_, _, deeper⟩ := ih undefined.2 ran_below
    rw [← CompiledQuery.toCommonTable_query (run_lift ran_element).1] at deeper
    rw [Fragment.Matches, Fragment.holds_query, ← shown, written, Query.elements, clause]
    exact or_congr (by simpa using deeper) Iff.rfl

/-- What a statement reports about searches. It reports one exactly if a part of the query searches, the
condition on a defining query apart, and exactly if a part of the statement outside of its WITH clause
searches the store. The whole statement may search without saying so: it does exactly if a query of the plan
does, the defining queries with their conditions included. Without a virtual table and a WITH clause there is
no such query, and the report is about the whole statement. -/
theorem search_reported_for_parts (compiler : Compiler) (query : Query) (statement : Statement)
    (compiled : compiler.compileQuery query = .ok statement) :
    (statement.compiled.searches = true ↔ query.Searches) ∧
      (statement.compiled.searches = true ↔
        ∃ part ∈ statement.compiled.query.parts, (Fragment.select part).Matches) ∧
      ((Fragment.query statement.compiled.query).Matches ↔ statement.compiled.searches = true ∨
        ∃ element ∈ statement.compiled.query.elements, (Fragment.query element.query).Matches) ∧
      (∃ plan, Plan.ofStatement compiler.lookup compiler.context compiler.start compiler.description
          query = .ok plan ∧ ((Fragment.query statement.compiled.query).Matches ↔ plan.Searches)) ∧
      (compiler.description.isVirtual = false → query.commonTables = none →
        (statement.compiled.searches = true ↔ (Fragment.query statement.compiled.query).Matches)) := by
  obtain ⟨plan, state, laid, ran⟩ := run_of_compileQuery compiled
  obtain ⟨written, shown, whole⟩ := searches_compilePlan (Plan.definingFilter_ofStatement laid) ran
  rw [Plan.searches_query laid] at written
  refine ⟨written, shown, ?_, ⟨plan, laid, whole⟩, ?_⟩
  · rw [Fragment.Matches, Fragment.holds_query, ← shown, or_comm]
  · intro stored none
    have plain : plan.Searches ↔ plan.query.Searches := by rw [Plan.plain_of_stored laid stored none]; rfl
    rw [whole, plain, Plan.searches_query laid, written]

def searchedCompiler : Compiler where
  schemas :=
    let columns : List ColumnModel := [{ id := some 1, name := "foo", type := .string, maxSize := some 50 }]
    ((({} : Catalog).addTable ⟨1, none⟩ columns).addTable ⟨2, none⟩ columns).schemas
  description := .virtualTable ⟨2, none⟩ "select foo from syn1 where text_matches('cats')"
  lookup := [.table ⟨1, none⟩]
  userId := 1

/-- `SELECT foo FROM ..`, perhaps with a condition. -/
def searchedQuery (table : String) (filter : Option Expr) : Query :=
  .single { Select.simple (.items [⟨.named "foo", none⟩]) (.named table) with filter }

def searchedPlan (filter : Option Expr) : Plan :=
  let defining := searchedQuery "syn1" (some (.textMatches (.string "cats")))
  .layered searchedCompiler.description
    { searchedQuery "syn2" filter with commonTables := some [⟨⟨"T2", none⟩, [], defining⟩] } ⟨"T2", none⟩
    (.plain (.table ⟨1, none⟩) defining)

theorem searchedPlan_laid (filter : Option Expr) :
    Plan.ofStatement searchedCompiler.lookup searchedCompiler.context searchedCompiler.start
      searchedCompiler.description (searchedQuery "syn2" filter) = .ok (searchedPlan filter) := by
  have parsed : Query.parse "select foo from syn1 where text_matches('cats')" =
      .ok (searchedQuery "syn1" (some (.textMatches (.string "cats")))) := by decide +kernel
  have leading : TableId.parse "syn1" = .ok ⟨1, none⟩ := by decide +kernel
  have physical : Physical.table ⟨2, none⟩ = "T2" := by decide +kernel
  have prepares : searchedCompiler.description.prepareChecked .query (searchedQuery "syn2" filter) =
      .ok (searchedPlan filter).query := by
    unfold IndexDescription.prepareChecked
    dsimp only [searchedCompiler, IndexDescription.prepare, IndexDescription.expandQuery]
    rw [parsed, physical]
    rfl
  exact @Plan.layOut_layered _ _ _ _ _ (.table ⟨1, none⟩) _ _
    ⟨⟨"T2", none⟩, [], searchedQuery "syn1" (some (.textMatches (.string "cats")))⟩ ⟨1, none⟩ _ prepares rfl
    leading rfl rfl (Plan.layOut_plain rfl rfl)

theorem search_reported_for_parts_dogs :
    ∃ statement, searchedCompiler.compileQuery
        (searchedQuery "syn2" (some (.textMatches (.string "dogs")))) = .ok statement ∧
      statement.text = "WITH T2 (_C1_) AS (SELECT _C1_ FROM T1 " ++
        "WHERE MATCH(ROW_SEARCH_CONTENT) AGAINST(:b0)) " ++
        "SELECT _C1_ FROM T2 WHERE MATCH(ROW_SEARCH_CONTENT) AGAINST(:b1)" ∧
      statement.compiled.searches = true ∧
      ∃ part ∈ statement.compiled.query.parts, (Fragment.select part).Matches := by
  obtain ⟨statement, compiled, text, flag⟩ : ∃ statement, searchedCompiler.compileQuery
      (searchedQuery "syn2" (some (.textMatches (.string "dogs")))) = .ok statement ∧
      statement.text = "WITH T2 (_C1_) AS (SELECT _C1_ FROM T1 " ++
        "WHERE MATCH(ROW_SEARCH_CONTENT) AGAINST(:b0)) " ++
        "SELECT _C1_ FROM T2 WHERE MATCH(ROW_SEARCH_CONTENT) AGAINST(:b1)" ∧
      statement.compiled.searches = true := compiles_within 2 (by decide +kernel)
  obtain ⟨_, parts, _⟩ := search_reported_for_parts _ _ statement compiled
  exact ⟨statement, compiled, text, flag, parts.mp flag⟩

/-- A search in the definition of a virtual table is in the statement and is not reported. -/
theorem search_in_definition_unreported :
    ∃ statement, searchedCompiler.compileQuery (searchedQuery "syn2" none) = .ok statement ∧
      statement.text = "WITH T2 (_C1_) AS (SELECT _C1_ FROM T1 " ++
        "WHERE MATCH(ROW_SEARCH_CONTENT) AGAINST(:b0)) SELECT _C1_ FROM T2" ∧
      statement.compiled.searches = false ∧ (Fragment.query statement.compiled.query).Matches := by
  obtain ⟨statement, compiled, text, flag⟩ : ∃ statement,
      searchedCompiler.compileQuery (searchedQuery "syn2" none) = .ok statement ∧
      statement.text = "WITH T2 (_C1_) AS (SELECT _C1_ FROM T1 " ++
        "WHERE MATCH(ROW_SEARCH_CONTENT) AGAINST(:b0)) SELECT _C1_ FROM T2" ∧
      statement.compiled.searches = false := compiles_within 2 (by decide +kernel)
  obtain ⟨plan, state, laid, ran⟩ := run_of_compileQuery compiled
  obtain ⟨_, _, whole⟩ := searches_compilePlan (Plan.definingFilter_ofStatement laid) ran
  rw [searchedPlan_laid] at laid
  cases laid
  have defining : (Expr.textMatches (.string "cats")).Searches := Fragment.holds_expr.mpr (.inl trivial)
  refine ⟨statement, compiled, text, flag, whole.mpr (.inl ⟨_, List.mem_cons_self, _, ?_, defining⟩)⟩
  exact Select.mem_clauses.mpr (.inr (.inr (.inr (.inl rfl))))

end Compiler

end TabularSql
