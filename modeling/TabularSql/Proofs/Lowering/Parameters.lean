import Mathlib.Data.List.Nodup
import TabularSql.Proofs.Lowering.Numbering
import TabularSql.Proofs.Narrowing

/-!
# Parameters of a statement

The placeholders of a compiled statement, read from left to right with those of its common tables, are
`b0`, `b1`, ... without gaps, one for each bound value, as long as neither the query nor a defining query
brings bind parameters of its own. Those that they bring are neither lost nor repeated when a query over a
virtual table is prepared.
-/

namespace TabularSql

set_option autoImplicit false

open Fragment (Free)

/-! ## Queries that are prepared -/

namespace Fragment

theorem placeholders_parenthesized (expr : Expr) :
    (Fragment.expr expr.parenthesized).placeholders = (Fragment.expr expr).placeholders := by
  unfold Expr.parenthesized
  split
  · rfl
  · simp [placeholders, Expr.lexemes]

theorem placeholders_narrowed (filter : Option Expr) (condition : Expr) :
    (Fragment.expr (Expr.narrowed filter condition)).placeholders =
      Expr.allShown filter.toList ++ (Fragment.expr condition).placeholders := by
  cases filter with
  | none => rfl
  | some own =>
    have both := Expr.placeholders_inside
      (show (Fragment.expr (.and own.parenthesized condition.parenthesized)).isParameter = false from rfl)
    simpa [Expr.and, Expr.narrowed, placeholders_parenthesized] using both

end Fragment

namespace Select

theorem placeholders_written (part : Select) : (Fragment.select part).placeholders =
    part.written ++ Expr.allShown ((part.page.map Page.exprs).getD []) := by
  rw [placeholders_inside, written_eq]
  simp [Fragment.inside, exprs, List.flatMap_map]

/-- A condition that narrows a select stands behind its own condition. -/
theorem written_narrowed (part : Select) (condition : Expr) : ∃ front back,
    part.written = front ++ back ∧
      (part.narrowed none (some condition)).written = front ++ (condition.shown ++ back) := by
  have filtered := Fragment.placeholders_narrowed part.filter condition
  rw [written_eq, written_eq]
  refine ⟨(part.projection.itemList.flatMap fun item => item.expr.shown) ++
    (Expr.allShown part.source.conditions ++ (Expr.allShown part.definingFilter.toList ++
      Expr.allShown part.filter.toList)),
    Expr.allShown part.groupBy ++ part.orderBy.flatMap fun key => key.expr.shown, ?_, ?_⟩
  · simp only [List.append_assoc]
  · simp [narrowed, filtered]

theorem perm_narrowed (part : Select) (condition : Expr) :
    (Fragment.select (part.narrowed none (some condition))).placeholders.Perm
      ((Fragment.select part).placeholders ++ condition.shown) := by
  obtain ⟨front, back, own, added⟩ := written_narrowed part condition
  rw [placeholders_written, placeholders_written, own, added, List.perm_iff_count]
  intro name
  simp only [narrowed, List.count_append]
  omega

theorem perm_definingFilter (part : Select) : (Fragment.select part).placeholders.Perm
    ((Fragment.select { part with definingFilter := none }).placeholders ++
      Expr.allShown part.definingFilter.toList) := by
  rw [placeholders_written, placeholders_written, written_eq, written_eq, List.perm_iff_count]
  intro name
  simp only [List.count_append, Option.toList_none, List.flatMap_nil, List.count_nil]
  omega

end Select

theorem Query.placeholders_parts (query : Query) : (Fragment.query query).placeholders =
    (query.elements.flatMap fun element => (Fragment.query element.query).placeholders) ++
      query.parts.flatMap fun part => (Fragment.select part).placeholders := by
  rw [placeholders_inside, Fragment.inside, List.flatMap_append, List.flatMap_map, List.flatMap_map]

namespace IndexDescription

def definition? (description : IndexDescription) : Option Query :=
  description.definingText?.bind fun text => (Query.parse text).toOption

theorem mem_definition {description : IndexDescription} {defining : Query} :
    defining ∈ description.definition? ↔
      ∃ text ∈ description.definingText?, Query.parse text = .ok defining := by
  rw [Option.mem_def, definition?, Option.bind_eq_some_iff]
  refine exists_congr fun text => and_congr_right fun _ => ?_
  cases Query.parse text <;> simp [Except.toOption]

theorem definition_stored {description : IndexDescription}
    (stored : description.isVirtual = false) : description.definition? = none := by
  cases description with
  | virtualTable id text => cases stored
  | _ => rfl

theorem definition_virtual {id : TableId} {text : String} {defining : Query}
    (parsed : Query.parse text = .ok defining) : (virtualTable id text).definition? = some defining :=
  mem_definition.mpr ⟨text, rfl, parsed⟩

theorem perm_narrow {defining narrowed : Query} {condition : Option Expr}
    (narrows : narrow defining condition = .ok narrowed) :
    (Fragment.query narrowed).placeholders.Perm
      ((Fragment.query defining).placeholders ++ Expr.allShown condition.toList) := by
  cases condition with
  | none =>
    cases narrows
    simp
  | some condition =>
    obtain ⟨_, rfl⟩ := narrow_iff.mp narrows
    have first := List.perm_iff_count.mp (Select.perm_narrowed defining.first condition)
    rw [Query.placeholders_parts, Query.placeholders_parts, List.perm_iff_count]
    intro name
    have own := first name
    simp only [Query.parts, Query.elements, List.flatMap_cons, List.count_append, Option.toList_some,
      List.flatMap_nil, List.append_nil] at own ⊢
    omega

/-- A query that was prepared has the bind parameters of the query and of the defining query, each as often as
it was written. -/
theorem perm_prepare {description : IndexDescription} {query prepared : Query}
    (prepares : description.prepare query = .ok prepared) :
    (Fragment.query prepared).placeholders.Perm ((Fragment.query query).placeholders ++
      description.definition?.toList.flatMap fun defining => (Fragment.query defining).placeholders) := by
  cases prepares_of_ok prepares with
  | stored stored _ => simp [definition_stored stored]
  | expanded single plain parsed narrows =>
    have inner := List.perm_iff_count.mp (perm_narrow narrows)
    have moved := List.perm_iff_count.mp (Select.perm_definingFilter query.first)
    rw [Query.placeholders_parts, Query.placeholders_parts, definition_virtual parsed, List.perm_iff_count]
    intro name
    have added := inner name
    have taken := moved name
    simp only [Query.parts, Query.elements, single, plain, Option.getD_some, Option.getD_none, List.map_nil,
      Option.toList_some, List.flatMap_cons, List.flatMap_nil, List.append_nil, List.nil_append,
      List.count_append] at added taken ⊢
    omega

/-- The defining query brings no bind parameters. -/
def DefinesFree (description : IndexDescription) : Prop :=
  ∀ text ∈ description.definingText?, ∀ defining, Query.parse text = .ok defining →
    Free (.query defining)

theorem silent_prepare {description : IndexDescription} {query prepared : Query}
    (ok : description.prepare query = .ok prepared) (silent : (Fragment.query query).placeholders = [])
    (defines : description.DefinesFree) : (Fragment.query prepared).placeholders = [] := by
  have nothing : (description.definition?.toList.flatMap fun defining =>
      (Fragment.query defining).placeholders) = [] := by
    rw [List.flatMap_eq_nil_iff]
    intro defining given
    obtain ⟨text, defined, parsed⟩ := mem_definition.mp (Option.mem_toList.mp given)
    exact (defines text defined defining parsed).placeholders
  have perm := perm_prepare ok
  rwa [silent, nothing, List.append_nil, List.perm_nil] at perm

end IndexDescription

/-! ## Compilation -/

namespace Select

theorem BoundAs.written {schemas : Schemas} {part : Select} {bound : Binding × Select}
    (boundAs : part.BoundAs schemas bound) : bound.2.written = part.written := by
  obtain ⟨_, projection, page, same, ⟨rfl, _⟩ | ⟨items, star, all, rfl⟩⟩ := boundAs
  · rw [same]
    rfl
  · have silent : (items.flatMap fun item => item.expr.shown) = [] := by
      rw [List.flatMap_eq_nil_iff]
      intro item listed
      obtain ⟨table, _, column, _, rfl⟩ := Binding.star_columns star item listed
      simp [Fragment.placeholders, Expr.lexemes]
    rw [same, written_eq, written_eq, all]
    simp only [Projection.itemList, silent, List.flatMap_nil]

end Select

/-- The bind parameters in the parts of a query, row counts apart, from left to right. -/
def Query.written (query : Query) : List String := query.parts.flatMap Select.written

namespace Plan

/-- The bind parameters in the queries of a plan, row counts apart, the innermost query first. -/
def written : Plan → List String
  | plain _ query => query.written
  | layered _ query _ inner => inner.written ++ query.written

theorem written_of_silent {plan : Plan}
    (silent : plan.Every fun query => (Fragment.query query).placeholders = []) : plan.written = [] := by
  have own {query : Query} (silent : (Fragment.query query).placeholders = []) : query.written = [] := by
    rw [Query.placeholders_parts, List.append_eq_nil_iff] at silent
    rw [Query.written, List.flatMap_eq_nil_iff]
    intro part member
    have none := (List.flatMap_eq_nil_iff.mp silent.2) part member
    rw [Select.placeholders_written, List.append_eq_nil_iff] at none
    exact none.1
  induction plan with
  | plain description query => exact own silent.2
  | layered description query name inner ih => rw [written, ih silent.2, own silent.1, List.append_nil]

end Plan

namespace Compiler

open Lowering

theorem weaves_compileParts (compiler : Compiler) (role : Role) (description : IndexDescription)
    (query : Query) (inner : Option CompiledQuery) :
    Weaves query.written
      (query.elements.flatMap fun element => (Fragment.query element.query).placeholders)
      (compiler.compileParts role description query inner) fun compiled =>
        (Fragment.query compiled.query).placeholders := by
  unfold compileParts
  refine weaves_lift fun parts bound => ?_
  refine weaves_lift fun metadata _ => ?_
  refine weaves_lift fun paged pages => ?_
  have boundAs := boundAs_of_ok bound pages
  have same : paged.flatMap (fun part => part.2.written) = query.written := by
    have each := map_eq_of_forall₂ boundAs fun part bound own => own.written.symm
    rw [Query.written, List.flatMap_def, List.flatMap_def, each]
  refine (weaves_bind_of (weaves_mapM fun part _ => weaves_select _ _ _ _ part.2)
    (fun _ _ _ ran => (run_mapM ran).length_eq) fun lowered length => weaves_last ?_).congr
      ((List.append_nil _).trans same)
  have count : (lowered.map Prod.fst).length = query.parts.length := by
    rw [List.length_map, ← length, boundAs.length_eq]
  rw [Query.placeholders_inside, Fragment.inside, Query.elements_withParts,
    Query.parts_withParts count]
  simp [List.flatMap_map]

/-- A plan is compiled from the inside out, which is the order of its text. -/
theorem weaves_compilePlan (compiler : Compiler) {plan : Plan} {property : Query → Prop}
    (ends : plan.Every property) (role : Role) :
    Weaves plan.written [] (compiler.compilePlan role plan) fun compiled =>
      (Fragment.query compiled.query).placeholders := by
  induction plan generalizing role with
  | plain description query =>
    have parts := weaves_compileParts compiler role description query none
    rwa [Query.elements, ends.1] at parts
  | layered description query name inner ih =>
    refine weaves_bind (ih ends.2 .definition) fun compiled => weaves_lift fun element ok => ?_
    have parts := weaves_compileParts compiler role description
      { query with commonTables := some [element] } (some compiled)
    simp only [Query.elements, Option.getD_some, List.flatMap_singleton,
      CompiledQuery.toCommonTable_query ok] at parts
    exact parts

theorem numbers_compilePlan (compiler : Compiler) {plan : Plan}
    (silent : plan.Every fun query => (Fragment.query query).placeholders = []) (role : Role) :
    Numbers [] (compiler.compilePlan role plan) fun compiled =>
      (Fragment.query compiled.query).placeholders :=
  ((weaves_compilePlan compiler silent role).congr (Plan.written_of_silent silent)).numbers

end Compiler

/-! ## The statement -/

theorem placeholderName_injective {first second : Nat}
    (same : placeholderName first = placeholderName second) : first = second := by
  apply Number.toDigits_injective
  simpa [placeholderName, Number.decimal, String.ext_iff] using same

theorem Parameters.entries_names (parameters : Parameters) :
    parameters.entries.map Prod.fst = (List.range parameters.values.length).map placeholderName := by
  rw [Parameters.entries, List.map_map]
  have indices : parameters.values.zipIdx.map Prod.snd = List.range parameters.values.length := by
    rw [List.zipIdx_map_snd, List.range_eq_range']
  rw [← indices, List.map_map]
  rfl

namespace Plan

theorem silent_ofStatement {lookup : List IndexDescription} {sqlContext : SqlContext}
    {context : BindingContext} {description : IndexDescription} {query : Query} {plan : Plan}
    (silent : (Fragment.query query).placeholders = [])
    (defines : ∀ known ∈ description :: lookup, known.DefinesFree)
    (ok : ofStatement lookup sqlContext context description query = .ok plan) :
    plan.Every fun query => (Fragment.query query).placeholders = [] := by
  obtain ⟨entered, _, ok⟩ := Except.of_bind ok
  refine @layOut_every lookup sqlContext
    (fun description query => (Fragment.query query).placeholders = [] ∧ description.DefinesFree) _ ?_ ?_ _ _ _ _
    ⟨silent, defines description List.mem_cons_self⟩ ok
  · intro description query prepared given prepares
    exact IndexDescription.silent_prepare prepares given.1 given.2
  · intro description query prepared element table known given prepares clause found
    have whole := IndexDescription.silent_prepare prepares given.1 given.2
    rw [Query.placeholders_parts, Query.elements, clause, List.append_eq_nil_iff] at whole
    refine ⟨by simpa using whole.1, ?_⟩
    cases virtual : description.isVirtual with
    | true => exact defines known (List.mem_cons_of_mem _ (mem_of_dependency virtual found))
    | false =>
      rw [dependency_of_stored virtual found]
      simp [IndexDescription.DefinesFree, IndexDescription.definingText?]

end Plan

namespace Compiler

/-- The placeholders of a statement, read from left to right, are `b0`, `b1`, ... up to the number of
bound values, each once, and the bound values are listed under the same names. -/
theorem statement_placeholders_numbered (compiler : Compiler) (query : Query) (statement : Statement)
    (free : Free (.query query))
    (defines : ∀ description ∈ compiler.description :: compiler.lookup, description.DefinesFree)
    (compiled : compiler.compileQuery query = .ok statement) :
    let names := (List.range statement.parameters.values.length).map placeholderName
    statement.text = String.ofList (Lexeme.spelling statement.compiled.query.lexemes) ∧
      Lexeme.placeholders statement.compiled.query.lexemes = names ∧ names.Nodup ∧
      statement.parameters.entries.map Prod.fst = names := by
  obtain ⟨plan, state, laid, ran, bound⟩ := run_of_statement compiled
  have numbers := numbers_compilePlan compiler (Plan.silent_ofStatement free.placeholders defines laid) .statement
  obtain ⟨added, values, shown⟩ := numbers _ _ _ ran
  have all : statement.parameters.values = added := by simpa [bound, start] using values
  refine ⟨Query.text_eq statement.compiled.query, ?_, ?_, Parameters.entries_names _⟩
  · have shown : Lexeme.placeholders statement.compiled.query.lexemes = placeholderNames 0 added.length := by
      simpa [start, Fragment.placeholders] using shown
    rw [shown, all, placeholderNames, List.range_eq_range']
  · exact List.Nodup.map (fun _ _ => placeholderName_injective) List.nodup_range

/-- Two tables with a name and a list of tags. -/
def taggedCompiler : Compiler where
  schemas :=
    let columns : List ColumnModel := [{ id := some 11, name := "name", type := .string },
      { id := some 12, name := "tags", type := .stringList }]
    ((({} : Catalog).addTable ⟨1, none⟩ columns).addTable ⟨2, none⟩ columns).schemas
  description := .table ⟨2, none⟩
  userId := 7
  limit := some 5

/-- `SELECT name, tags FROM syn1 WHERE tags HAS_LIKE ( 'p', 'q' )` -/
def taggedInner : Query :=
  .single { Select.simple (.items [⟨.named "name", none⟩, ⟨.named "tags", none⟩]) (.named "syn1") with
    filter := some (.has (.named "tags") [.string "p", .string "q"] true false) }

/-- The inner query as a common table, and a case over it. -/
def taggedQuery : Query :=
  let branch : Expr × Expr :=
    (.equals (.named "name") (.string "y"), .like (.named "name") (.string "z") none false)
  ⟨some [⟨⟨"syn2", none⟩, [], taggedInner⟩],
    { Select.simple (.items [⟨.named "name", none⟩]) (.named "syn2") with
      filter := some (.caseWhen none [branch] none) }, []⟩

theorem statement_placeholders_numbered_tagged :
    ∃ statement, taggedCompiler.compileQuery taggedQuery = .ok statement ∧
      Lexeme.placeholders statement.compiled.query.lexemes =
        ["b0", "b1", "b2", "b3", "b4", "b5"] := by
  obtain ⟨statement, compiled, length⟩ : ∃ statement, taggedCompiler.compileQuery taggedQuery =
      .ok statement ∧ statement.parameters.values.length = 6 := compiles_within 2 (by decide +kernel)
  have numbered := statement_placeholders_numbered taggedCompiler taggedQuery statement
    (by decide +kernel) (by simp [taggedCompiler, IndexDescription.DefinesFree,
      IndexDescription.definingText?]) compiled
  refine ⟨statement, compiled, ?_⟩
  rw [numbered.2.1, length]
  decide +kernel

end Compiler

end TabularSql
