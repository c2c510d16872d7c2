import TabularSql.Proofs.Lowering.Forms
import TabularSql.Proofs.Lowering.Parameters

/-!
# Bind parameters of queries

A query may have bind parameters of its own, and so may the defining queries that it reads. They are in the
statement unchanged, in the order of their text, among the placeholders of the bound values. These have fixed
names, `b0`, `b1`, ..., whatever the query has written. So a bind parameter of the query stands for a bound
value exactly if it has one of these names.
-/

namespace TabularSql

set_option autoImplicit false

/-! ## Written names -/

namespace Fragment

/-- The bind parameter is written in the fragment, at any depth. -/
def Mentions (name : String) (whole : Fragment) : Prop := Holds (fun expr => expr = .parameter name) whole

/-- The placeholders in the text of a fragment are the bind parameters that are written in it. -/
theorem mem_placeholders {name : String} {whole : Fragment} :
    name ∈ whole.placeholders ↔ Mentions name whole := by
  induction whole using Fragment.induction with
  | step whole ih =>
    cases own : whole.isParameter with
    | false =>
      have other : ∀ expr, whole = .expr expr → expr ≠ .parameter name := by
        rintro expr rfl rfl
        cases own
      rw [placeholders_inside own, List.mem_flatMap, Mentions, holds_inside other]
      exact exists_congr fun part => and_congr_right fun member => ih part member
    | true =>
      unfold isParameter at own
      split at own
      · next written =>
          show name ∈ [written] ↔ _
          simp [Mentions, holds_expr, eq_comm]
      · cases own

end Fragment

open Fragment (Mentions)

/-! ## Names in their order -/

namespace Select

/-- The bind parameters of the select stand in the list in their order, and so do those of its condition on a
defining query, which moves into that query. -/
def OrderedIn (part : Select) (names : List String) : Prop :=
  { part with definingFilter := none }.written.Sublist names ∧
    ∀ condition ∈ part.definingFilter, condition.shown.Sublist names

theorem OrderedIn.mono {part : Select} {names others : List String} (ordered : part.OrderedIn names)
    (longer : names.Sublist others) : part.OrderedIn others :=
  ⟨ordered.1.trans longer, fun condition given => (ordered.2 condition given).trans longer⟩

theorem OrderedIn.of_narrowed {part : Select} {condition : Expr} {names : List String}
    (ordered : (part.narrowed none (some condition)).OrderedIn names) :
    part.OrderedIn names ∧ condition.shown.Sublist names := by
  obtain ⟨front, back, own, added⟩ := written_narrowed { part with definingFilter := none } condition
  have whole : (front ++ (condition.shown ++ back)).Sublist names := added ▸ ordered.1
  refine ⟨⟨?_, ordered.2⟩, ?_⟩
  · rw [own]
    exact ((List.sublist_append_right _ _).append_left front).trans whole
  · exact ((List.sublist_append_left _ _).trans (List.sublist_append_right _ _)).trans whole

end Select

theorem Page.shown_of_counted {page : Page} (counted : page.Counted) : Expr.allShown page.exprs = [] := by
  rw [List.flatMap_eq_nil_iff]
  intro expr member
  have counts : ∃ count, rowCount expr = .ok count := by
    rcases List.mem_cons.mp member with rfl | behind
    · exact counted.1
    · exact counted.2 expr (Option.mem_toList.mp behind)
  obtain ⟨count, ok⟩ := counts
  unfold rowCount at ok
  split at ok
  · simp [Fragment.placeholders, Expr.lexemes]
  · cases ok

namespace Query

/-- Every page of the query is a window of row counts. -/
def Counted (query : Query) : Prop := ∀ part ∈ query.parts, ∀ page ∈ part.page, page.Counted

theorem placeholders_counted {query : Query} (counted : query.Counted) :
    (Fragment.query query).placeholders =
      (query.elements.flatMap fun element => (Fragment.query element.query).placeholders) ++
        query.written := by
  rw [placeholders_parts, written]
  congr 1
  apply List.flatMap_congr
  intro part member
  rw [Select.placeholders_written]
  cases given : part.page with
  | none => simp
  | some page =>
    have silent := Page.shown_of_counted (counted part member page given)
    simp [silent]

/-- The select is a part of the query, or of a query of its WITH clause at any depth. -/
inductive HasPart (part : Select) : Query → Prop where
  | own {query : Query} (member : part ∈ query.parts) : HasPart part query
  | within {query : Query} {element : CommonTable} (member : element ∈ query.elements)
      (deeper : HasPart part element.query) : HasPart part query

end Query

/-! ## The queries behind a statement -/

namespace IndexDescription

theorem orderedIn_narrow {defining narrowed : Query} {condition : Option Expr}
    (narrows : narrow defining condition = .ok narrowed) {names : List String}
    (ordered : ∀ part, narrowed.HasPart part → part.OrderedIn names) :
    (∀ part, defining.HasPart part → part.OrderedIn names) ∧
      ∀ expr ∈ condition, expr.shown.Sublist names := by
  cases condition with
  | none =>
    cases narrows
    exact ⟨ordered, by simp⟩
  | some condition =>
    obtain ⟨_, rfl⟩ := narrow_iff.mp narrows
    have first := (ordered _ (.own List.mem_cons_self)).of_narrowed
    refine ⟨fun part has => ?_, fun expr given => Option.mem_some.mp given ▸ first.2⟩
    cases has with
    | own member =>
      rcases List.mem_cons.mp member with rfl | behind
      · exact first.1
      · exact ordered part (.own (List.mem_cons_of_mem _ behind))
    | within member deeper => exact ordered part (.within member deeper)

/-- What keeps the order of a prepared query keeps that of the query and of the defining query. -/
theorem orderedIn_prepare {description : IndexDescription} {query prepared : Query}
    (prepares : description.prepare query = .ok prepared) {names : List String}
    (ordered : ∀ part, prepared.HasPart part → part.OrderedIn names) :
    ∀ source ∈ query :: description.definition?.toList, ∀ part, source.HasPart part →
      part.OrderedIn names := by
  cases prepares_of_ok prepares with
  | stored stored _ => simpa [definition_stored stored] using ordered
  | @expanded _ _ defining _ single plain parsed narrows =>
    obtain ⟨defined, moved⟩ := orderedIn_narrow narrows fun part has =>
      ordered part (.within List.mem_cons_self has)
    rw [definition_virtual parsed]
    intro source listed part has
    rcases List.mem_cons.mp listed with rfl | listed
    · cases has with
      | own member =>
        rw [Query.parts, single] at member
        obtain rfl := List.mem_singleton.mp member
        exact ⟨(ordered _ (.own List.mem_cons_self)).1, moved⟩
      | within member _ =>
        rw [Query.elements, plain] at member
        cases member
    · obtain rfl : source = defining := by simpa using listed
      exact defined part has

end IndexDescription

namespace Plan

/-- The defining queries that a plan expands, the outermost first. -/
def definitions : Plan → List Query
  | plain description _ => description.definition?.toList
  | layered description _ _ inner => description.definition?.toList ++ inner.definitions

variable {lookup : List IndexDescription} {sqlContext : SqlContext} {context : BindingContext}
  {description : IndexDescription} {query : Query} {plan : Plan}

/-- The bind parameters of a plan are those of the query and of the defining queries that it expands, each as
often as it is written. -/
theorem perm_written (laid : layOut lookup sqlContext context description query = .ok plan)
    (counted : plan.Every Query.Counted) :
    plan.written.Perm ((query :: plan.definitions).flatMap fun source =>
      (Fragment.query source).placeholders) := by
  replace laid := laidOut_of_ok laid
  induction laid with
  | plain checked none =>
    have prepares := IndexDescription.perm_prepare (IndexDescription.prepare_of_checked checked)
    rw [Query.placeholders_counted counted.2, Query.elements, none] at prepares
    simpa [written, definitions] using prepares
  | layered checked clause _ _ _ _ ih =>
    have prepares := IndexDescription.perm_prepare (IndexDescription.prepare_of_checked checked)
    rw [Query.placeholders_counted counted.1, Query.elements, clause] at prepares
    have inner := List.perm_iff_count.mp (ih counted.2)
    rw [List.perm_iff_count] at prepares ⊢
    intro name
    have own := prepares name
    have deeper := inner name
    simp only [written, definitions, Option.getD_some, List.flatMap_cons, List.flatMap_nil, List.append_nil,
      List.flatMap_append, List.count_append] at own deeper ⊢
    omega

/-- The bind parameters of every part stand in the plan in their order. -/
theorem orderedIn_written (laid : layOut lookup sqlContext context description query = .ok plan) :
    ∀ source ∈ query :: plan.definitions, ∀ part, source.HasPart part → part.OrderedIn plan.written := by
  have own {part : Select} {prepared : Query} (member : part ∈ prepared.parts)
      (undefined : part.definingFilter = none) {names : List String}
      (all : prepared.written.Sublist names) : part.OrderedIn names := by
    have same : { part with definingFilter := none } = part := by
      cases part
      cases undefined
      rfl
    refine ⟨?_, by simp [undefined]⟩
    rw [same]
    rw [Query.written, List.flatMap_def] at all
    exact (List.sublist_flatten_of_mem (List.mem_map_of_mem member)).trans all
  replace laid := laidOut_of_ok laid
  induction laid with
  | @plain context description query prepared checked none =>
    have prepares := IndexDescription.prepare_of_checked checked
    have undefined := IndexDescription.prepare_definingFilter prepares
    apply IndexDescription.orderedIn_prepare prepares
    intro part has
    cases has with
    | own member => exact own member (undefined part member) (List.Sublist.refl _)
    | within member _ =>
      rw [Query.elements, none] at member
      cases member
  | @layered _ _ _ _ _ prepared element _ inner checked clause _ _ _ _ ih =>
    have prepares := IndexDescription.prepare_of_checked checked
    have undefined := IndexDescription.prepare_definingFilter prepares
    have inside (source : Query) (listed : source ∈ element.query :: inner.definitions) (part : Select)
        (has : source.HasPart part) : part.OrderedIn (inner.written ++ prepared.written) :=
      (ih source listed part has).mono (List.sublist_append_left _ _)
    have kept : ∀ part, prepared.HasPart part → part.OrderedIn (inner.written ++ prepared.written) := by
      intro part has
      cases has with
      | own member => exact own member (undefined part member) (List.sublist_append_right _ _)
      | within member deeper =>
        rw [Query.elements, clause] at member
        obtain rfl := List.mem_singleton.mp member
        exact inside _ List.mem_cons_self part deeper
    intro source listed
    rw [definitions, ← List.cons_append] at listed
    rcases List.mem_append.mp listed with here | below
    · exact IndexDescription.orderedIn_prepare prepares kept source here
    · exact inside source (List.mem_cons_of_mem _ below)

end Plan

/-! ## Statements -/

namespace Compiler

open Lowering

variable {compiler : Compiler} {compiled : CompiledQuery} {state after : LoweringState}

/-- A query with anything else than row counts in a page is not compiled. -/
theorem counted_compileParts {role : Role} {description : IndexDescription} {query : Query}
    {inner : Option CompiledQuery}
    (ran : (compiler.compileParts role description query inner).run state = (.ok compiled, after)) :
    query.Counted := by
  have compiles := (@keeps_compileParts compiler state.context.userId (fun _ _ => True)
    (fun _ _ _ _ _ _ _ => trivial) role description query inner state compiled after rfl ran).2.2
  intro part member
  obtain ⟨_, _, _, _, _, counted, _⟩ := forall₂_left compiles part member
  exact counted

theorem counted_compilePlan {plan : Plan} {property : Query → Prop} {role : Role}
    (ends : plan.Every property)
    (ran : (compiler.compilePlan role plan).run state = (.ok compiled, after)) :
    plan.Every Query.Counted := by
  induction plan generalizing role compiled state after with
  | plain description query => exact ⟨ends.1, counted_compileParts ran⟩
  | layered description query name inner ih =>
    obtain ⟨below, _, ran_below, ran⟩ := run_bind ran
    obtain ⟨element, _, _, ran⟩ := run_bind ran
    have own : ({ query with commonTables := some [element] } : Query).Counted := counted_compileParts ran
    exact ⟨own, ih ends.2 ran_below⟩

/-- The placeholders of a statement. The bound values have the names `b0`, `b1`, ... whatever is written. The
placeholders of the statement are these and the bind parameters of the plan, each in their order. The bind
parameters of the plan are those of the query and of the defining queries that it expands, each as often as it
is written, and those of one part in their order. So no bind parameter stands for a bound value exactly if none
of them has one of those names. -/
theorem bound_names_among_written (compiler : Compiler) (query : Query) (statement : Statement)
    (compiled : compiler.compileQuery query = .ok statement) :
    let names := placeholderNames 0 statement.parameters.values.length
    ∃ plan, Plan.ofStatement compiler.lookup compiler.context compiler.start compiler.description
        query = .ok plan ∧
      statement.parameters.entries.map Prod.fst = names ∧
      Interleaved plan.written names (Fragment.query statement.compiled.query).placeholders ∧
      plan.written.Perm ((query :: plan.definitions).flatMap fun source =>
        (Fragment.query source).placeholders) ∧
      (∀ source ∈ query :: plan.definitions, ∀ part, source.HasPart part →
        part.OrderedIn plan.written) ∧
      ((∀ source ∈ query :: plan.definitions, ∀ name, Mentions name (.query source) →
          name ∉ statement.parameters.entries.map Prod.fst) ↔
        ∀ source ∈ query :: plan.definitions, ∀ index < statement.parameters.values.length,
          ¬ Mentions (placeholderName index) (.query source)) := by
  intro names
  obtain ⟨plan, state, laid, ran, bound⟩ := run_of_statement compiled
  have ends := Plan.definingFilter_ofStatement laid
  obtain ⟨added, behind, values, shows, interleaved⟩ := weaves_compilePlan compiler ends .statement _ _ _ ran
  have all : statement.parameters.values = added := by simpa [bound, start] using values
  have listed : statement.parameters.entries.map Prod.fst = names := by
    rw [Parameters.entries_names, List.range_eq_range']
    rfl
  obtain ⟨entered, _, laidOut⟩ := Except.of_bind laid
  refine ⟨plan, laid, listed, ?_, Plan.perm_written laidOut (counted_compilePlan ends ran),
    Plan.orderedIn_written laidOut, ?_⟩
  · have shown : (Fragment.query statement.compiled.query).placeholders = behind := shows
    have begins : compiler.start.parameters.values.length = 0 := rfl
    simpa [names, all, begins, shown] using interleaved
  · rw [listed]
    simp only [names, placeholderNames, List.mem_map, List.mem_range'_1]
    grind

/-- A table with a name, and a virtual table over it. -/
def askedCompiler (description : IndexDescription) : Compiler where
  schemas :=
    let columns : List ColumnModel := [{ id := some 1, name := "foo", type := .string, maxSize := some 50 }]
    ((({} : Catalog).addTable ⟨1, none⟩ columns).addTable ⟨2, none⟩ columns).schemas
  description
  lookup := [.table ⟨1, none⟩]
  userId := 1

def askedTable : IndexDescription :=
  .virtualTable ⟨2, none⟩ "select foo from syn1 where foo = :q or foo = 'x'"

/-- `SELECT foo FROM ..` with a condition on the rows and perhaps one on the defining query. -/
def askedQuery (table : String) (definingFilter : Option Expr) (filter : Expr) : Query :=
  .single { Select.simple (.items [⟨.named "foo", none⟩]) (.named table) with
    definingFilter, filter := some filter }

/-- `foo = ..` -/
def askedTest (value : Expr) : Expr := .equals (.named "foo") value

def askedDefinition : Query :=
  askedQuery "syn1" none (.or (askedTest (.parameter "q")) (askedTest (.string "x")))

/-- `SELECT foo FROM syn2 DEFINING_WHERE foo = :r WHERE foo = 'y' AND foo = :b1` -/
def askedOuter : Query :=
  askedQuery "syn2" (some (askedTest (.parameter "r")))
    (.and (askedTest (.string "y")) (askedTest (.parameter "b1")))

def askedNarrowed : Query :=
  askedQuery "syn1" none (.and (.nested (.or (askedTest (.parameter "q")) (askedTest (.string "x"))))
    (.nested (askedTest (.parameter "r"))))

def askedPrepared : Query :=
  { askedQuery "syn2" none (.and (askedTest (.string "y")) (askedTest (.parameter "b1"))) with
    commonTables := some [⟨⟨"T2", none⟩, [], askedNarrowed⟩] }

theorem askedDefinition_parsed :
    Query.parse "select foo from syn1 where foo = :q or foo = 'x'" = .ok askedDefinition := by
  decide +kernel

theorem askedOuter_plan : Plan.ofStatement (askedCompiler askedTable).lookup
    (askedCompiler askedTable).context (askedCompiler askedTable).start (askedCompiler askedTable).description
    askedOuter =
      .ok (.layered askedTable askedPrepared ⟨"T2", none⟩ (.plain (.table ⟨1, none⟩) askedNarrowed)) := by
  have leading : TableId.parse "syn1" = .ok ⟨1, none⟩ := by decide +kernel
  have physical : Physical.table ⟨2, none⟩ = "T2" := by decide +kernel
  have prepares : askedTable.prepareChecked .query askedOuter = .ok askedPrepared := by
    unfold IndexDescription.prepareChecked
    dsimp only [askedTable, IndexDescription.prepare, IndexDescription.expandQuery]
    rw [askedDefinition_parsed, physical]
    rfl
  exact @Plan.layOut_layered _ _ _ _ _ (.table ⟨1, none⟩) _ _ ⟨⟨"T2", none⟩, [], askedNarrowed⟩ ⟨1, none⟩ _
    prepares rfl leading rfl rfl (Plan.layOut_plain rfl rfl)

theorem bound_names_among_written_asked :
    ∃ statement, (askedCompiler askedTable).compileQuery askedOuter = .ok statement ∧
      statement.text = "WITH T2 (_C1_) AS (SELECT _C1_ FROM T1 " ++
        "WHERE ( _C1_ = :q OR _C1_ = :b0 ) AND ( _C1_ = :r )) " ++
        "SELECT _C1_ FROM T2 WHERE _C1_ = :b1 AND _C1_ = :b1" ∧
      Interleaved ["q", "r", "b1"] ["b0", "b1"] (Fragment.query statement.compiled.query).placeholders ∧
      ["q", "r", "b1"].Perm ((Fragment.query askedOuter).placeholders ++
        (Fragment.query askedDefinition).placeholders) := by
  obtain ⟨statement, compiled, text, count⟩ : ∃ statement,
      (askedCompiler askedTable).compileQuery askedOuter = .ok statement ∧
      statement.text = "WITH T2 (_C1_) AS (SELECT _C1_ FROM T1 " ++
        "WHERE ( _C1_ = :q OR _C1_ = :b0 ) AND ( _C1_ = :r )) " ++
        "SELECT _C1_ FROM T2 WHERE _C1_ = :b1 AND _C1_ = :b1" ∧
      statement.parameters.values.length = 2 := compiles_within 2 (by decide +kernel)
  obtain ⟨plan, laid, _, interleaved, sources, _⟩ := bound_names_among_written _ _ statement compiled
  cases laid.symm.trans askedOuter_plan
  have written : (Plan.layered askedTable askedPrepared ⟨"T2", none⟩
      (.plain (.table ⟨1, none⟩) askedNarrowed)).written = ["q", "r", "b1"] := by decide +kernel
  have definitions : askedTable.definition? = some askedDefinition :=
    IndexDescription.definition_virtual askedDefinition_parsed
  have stored : (IndexDescription.table ⟨1, none⟩).definition? = none := rfl
  rw [written, count] at interleaved
  rw [written, Plan.definitions, definitions] at sources
  exact ⟨statement, compiled, text, interleaved, by simpa [Plan.definitions, stored] using sources⟩

/-- `SELECT foo FROM syn1 WHERE foo = 'x' AND foo = :b0` -/
def capturedQuery : Query :=
  askedQuery "syn1" none (.and (askedTest (.string "x")) (askedTest (.parameter "b0")))

/-- A bind parameter with the name of a bound value stands for that value. -/
theorem bound_name_captures_written :
    ∃ statement, (askedCompiler (.table ⟨1, none⟩)).compileQuery capturedQuery = .ok statement ∧
      statement.text = "SELECT _C1_, ROW_ID, ROW_VERSION FROM T1 WHERE _C1_ = :b0 AND _C1_ = :b0" ∧
      statement.parameters.entries = [("b0", .string "x")] ∧ Mentions "b0" (.query capturedQuery) := by
  obtain ⟨statement, compiled, text, entries⟩ : ∃ statement,
      (askedCompiler (.table ⟨1, none⟩)).compileQuery capturedQuery = .ok statement ∧
      statement.text = "SELECT _C1_, ROW_ID, ROW_VERSION FROM T1 WHERE _C1_ = :b0 AND _C1_ = :b0" ∧
      statement.parameters.entries = [("b0", .string "x")] := compiles_within 1 (by decide +kernel)
  refine ⟨statement, compiled, text, entries, Fragment.mem_placeholders.mp ?_⟩
  decide +kernel

end Compiler

end TabularSql
