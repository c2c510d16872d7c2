import TabularSql.Proofs.Combined
import TabularSql.Proofs.Lowering.Endings
import TabularSql.Proofs.Lowering.Searches
import TabularSql.Proofs.Lowering.Stars
import TabularSql.Proofs.Selection

/-!
# Facets in statements

A facet narrows a query by a condition on a column of its table, or on the value at a path inside a JSON column.
If the query can be compiled, the narrowed one can be compiled too, with one exception: elements are looked up
through the side table of a list column, and a list inside a JSON column has none. A facet of such a list is
offered like any other, but a request for some of its elements is refused when the query is compiled.
-/

namespace TabularSql

set_option autoImplicit false

open Lowering

/-! ## Conditions that can be lowered -/

namespace Expr

variable {scope : Scope} {outcome : Except CompileError Unit}

/-- From all states and at all positions, lowering the expression ends in the given way. -/
def Ends (scope : Scope) (expr : Expr) (outcome : Except CompileError Unit) : Prop :=
  ∀ position, Lowering.Ends (expr.lower scope position) outcome

theorem Ends.unique {expr : Expr} {one two : Except CompileError Unit} (first : expr.Ends scope one)
    (second : expr.Ends scope two) : one = two :=
  (first .sort { context := { userId := 0 } }).symm.trans (second .sort { context := { userId := 0 } })

theorem ends_string (value : String) : (string value).Ends scope (.ok ()) := by
  intro position
  cases position with
  | condition compared => cases compared <;> exact ends_bound _
  | _ => exact ends_pure _

theorem ends_nested {inner : Expr} (own : inner.Ends scope outcome) : (nested inner).Ends scope outcome :=
  fun _ => ends_before (own _) fun _ => ends_pure _

theorem ends_isNull {tested : Expr} (own : tested.Ends scope outcome) (negated : Bool) :
    (isNull tested negated).Ends scope outcome :=
  fun _ => ends_before (own _) fun _ => ends_pure _

theorem ends_binary {operator : BinaryOperator} {left right : Expr} {one two : Except CompileError Unit}
    (first : left.Ends scope one) (second : right.Ends scope two) :
    (binary operator left right).Ends scope (one >>= fun _ => two) :=
  fun _ => ends_bind (first _) fun _ => ends_before (second _) fun _ => ends_pure _

theorem ends_between {tested low high : Expr} (own : tested.Ends scope (.ok ()))
    (first : low.Ends scope (.ok ())) (second : high.Ends scope (.ok ())) (negated : Bool) :
    (between tested low high negated).Ends scope (.ok ()) :=
  fun _ => ends_behind (own _) fun _ => ends_behind (first _) fun _ => ends_before (second _) fun _ => ends_pure _

theorem ends_cast {operand : Expr} (own : operand.Ends scope outcome) (type : ColumnType) :
    (cast operand (.type type)).Ends scope outcome :=
  fun _ => ends_before (own _) fun _ => ends_behind (ends_lift (.ok _)) fun _ => ends_pure _

theorem ends_lowerAll {list : List Expr} (each : ∀ expr ∈ list, expr.Ends scope (.ok ()))
    (position : Position) : Lowering.Ends (lowerAll scope position list) (.ok ()) := by
  rw [lowerAll_eq_mapM]
  exact ends_mapM fun expr member => each expr member position

theorem ends_call {name : String} {distinct : Bool} {arguments : List Expr}
    (each : ∀ expr ∈ arguments, expr.Ends scope (.ok ())) :
    (call name distinct arguments).Ends scope (.ok ()) :=
  fun _ => ends_before (ends_lowerAll each _) fun _ => ends_pure _

theorem ends_parenthesized {expr : Expr} {position : Position}
    (own : Lowering.Ends (expr.lower scope position) outcome) :
    Lowering.Ends (expr.parenthesized.lower scope position) outcome := by
  unfold parenthesized
  split
  · exact own
  · exact ends_before own fun _ => ends_pure _

/-- The expression is a chain of the expressions under one operator. -/
def Chains (list : List Expr) (whole : Expr) : Prop :=
  ∃ operator first rest, list = first :: rest ∧ whole = rest.foldl (binary operator) first

theorem chains_anyOf {list : List Expr} {whole : Expr} (any : anyOf list = some whole) : Chains list whole := by
  cases list with
  | nil => cases any
  | cons first rest => exact ⟨.or, first, rest, rfl, (Option.some.inj any).symm⟩

theorem chains_allOf {list : List Expr} {whole : Expr} (all : allOf list = some whole) : Chains list whole := by
  cases list with
  | nil => cases all
  | cons first rest => exact ⟨.and, first, rest, rfl, (Option.some.inj all).symm⟩

theorem Chains.ends {list : List Expr} {whole : Expr} (chains : Chains list whole)
    (each : ∀ expr ∈ list, expr.Ends scope (.ok ())) : whole.Ends scope (.ok ()) := by
  obtain ⟨operator, first, rest, rfl, rfl⟩ := chains
  induction rest generalizing first with
  | nil => exact each first List.mem_cons_self
  | cons second rest ih =>
    obtain ⟨own, next, others⟩ : first.Ends scope (.ok ()) ∧ second.Ends scope (.ok ()) ∧
        ∀ expr ∈ rest, expr.Ends scope (.ok ()) := by simpa using each
    exact ih _ (List.forall_mem_cons.mpr ⟨ends_binary own next, others⟩)

/-- A chain whose members can only fail with one error fails with it as soon as one of them does. -/
theorem Chains.ends_failed {list : List Expr} {whole : Expr} {problem : CompileError}
    (chains : Chains list whole)
    (each : ∀ expr ∈ list, expr.Ends scope (.ok ()) ∨ expr.Ends scope (.error problem))
    (failed : ∃ expr ∈ list, expr.Ends scope (.error problem)) : whole.Ends scope (.error problem) := by
  obtain ⟨operator, first, rest, rfl, rfl⟩ := chains
  induction rest generalizing first with
  | nil => simpa using failed
  | cons second rest ih =>
    obtain ⟨own, next, others⟩ :
        (first.Ends scope (.ok ()) ∨ first.Ends scope (.error problem)) ∧
        (second.Ends scope (.ok ()) ∨ second.Ends scope (.error problem)) ∧
        ∀ expr ∈ rest, expr.Ends scope (.ok ()) ∨ expr.Ends scope (.error problem) := by simpa using each
    -- The first two members are one member of a shorter chain.
    have merged (ends : (binary operator first second).Ends scope (.error problem)) :=
      ih _ (List.forall_mem_cons.mpr ⟨.inr ends, others⟩) ⟨_, List.mem_cons_self, ends⟩
    rcases own with own | own
    · rcases next with next | next
      · refine ih _ (List.forall_mem_cons.mpr ⟨.inl (ends_binary own next), others⟩) ?_
        obtain ⟨expr, member, ends⟩ := failed
        obtain rfl | rfl | later : expr = first ∨ expr = second ∨ expr ∈ rest := by simpa using member
        · cases own.unique ends
        · cases next.unique ends
        · exact ⟨expr, List.mem_cons_of_mem _ later, ends⟩
      · exact merged (ends_binary own next)
    · rcases next with next | next
      · exact merged (ends_binary own next)
      · exact merged (ends_binary own next)

end Expr

namespace Binding

/-- The names of the columns stand for the columns. -/
def Reads (binding : Binding) (columns : List ColumnModel) : Prop :=
  ∀ name column, (columns.find? fun other => other.name == name) = some column →
    ∃ table stored, binding.resolve ⟨none, .doubleQuoted name⟩ = .ok (some ⟨table, .stored stored⟩) ∧
      stored.model = column

theorem reads_of_ofSource {schemas : Schemas} {source : Source} {binding : Binding}
    (single : source.isJoin = false) (ok : ofSource schemas source = .ok binding) :
    binding.Reads (source.leading.columns schemas) := by
  intro name column found
  cases source with
  | join left kind right condition => cases single
  | table only =>
    obtain ⟨tables⟩ := binding
    cases forall₂_of_ofSource ok with
    | @cons _ table _ _ own rest =>
      cases rest
      obtain ⟨_, _, _, columns⟩ := bound_of_bindTable own
      rw [show (Source.table only).leading.columns schemas = _ from columns.symm, List.find?_map,
        Option.map_eq_some_iff] at found
      obtain ⟨stored, found, same⟩ := found
      have hit : table.find? name = some stored := found
      refine ⟨table, stored, ?_, same⟩
      simp [resolve, candidates, Identifier.doubleQuoted, hit]

end Binding

/-! ## Conditions of facets -/

namespace Facet

open TabularSql.Expr

variable {scope : Scope} {subject condition : Expr}

theorem ends_valueExpr (cast : Option ColumnType) (value : String) :
    (valueExpr cast value).Ends scope (.ok ()) := by
  cases cast with
  | none => exact ends_string value
  | some type => exact ends_cast (ends_string value) type

theorem ends_enumeration (own : subject.Ends scope (.ok ())) {values : List String}
    {cast : Option ColumnType} (given : enumeration subject values cast = some condition) :
    condition.Ends scope (.ok ()) := by
  obtain ⟨bare, any, rfl⟩ := Option.map_eq_some_iff.mp given
  have each : ∀ value, (valueCondition subject cast value).Ends scope (.ok ()) := by
    intro value
    unfold valueCondition
    split
    · exact ends_isNull own false
    · exact ends_binary own (ends_valueExpr cast value)
  apply ends_nested
  apply (chains_anyOf any).ends
  intro expr listed
  obtain ⟨value, _, rfl⟩ := List.mem_map.mp listed
  exact each value

/-- Only the test for elements can fail. -/
theorem ends_listEnumeration (own : subject.Ends scope (.ok ())) {outcome : Except CompileError Unit}
    (has : ∀ values : List String, (Expr.has subject (values.map string) false false).Ends scope outcome)
    {values : List String} (given : listEnumeration subject values = some condition) :
    condition.Ends scope (if values.any (· ≠ nullKeyword) then outcome else .ok ()) := by
  obtain ⟨bare, any, rfl⟩ := Option.map_eq_some_iff.mp given
  apply ends_nested
  have isNull : ∀ expr ∈ (if nullKeyword ∈ values then [Expr.isNull subject false] else []),
      expr.Ends scope (.ok ()) := by
    intro expr listed
    split at listed
    · cases List.mem_singleton.mp listed
      exact ends_isNull own false
    · cases listed
  have chains := chains_anyOf any
  cases listed : values.any (· ≠ nullKeyword) with
  | false =>
    have none : (values.filter (· ≠ nullKeyword)).isEmpty = true := by simpa using listed
    rw [if_pos none, List.nil_append] at chains
    exact chains.ends isNull
  | true =>
    have some : ¬ (values.filter (· ≠ nullKeyword)).isEmpty = true := by simpa using listed
    rw [if_neg some, List.singleton_append] at chains
    cases outcome with
    | ok value => exact chains.ends (List.forall_mem_cons.mpr ⟨has _, isNull⟩)
    | error problem =>
      exact chains.ends_failed (List.forall_mem_cons.mpr ⟨.inr (has _), fun expr member =>
        .inl (isNull expr member)⟩) ⟨_, List.mem_cons_self, has _⟩

theorem ends_range (own : subject.Ends scope (.ok ())) {min max : Option String}
    {cast : Option ColumnType} (given : range subject min max cast = some condition) :
    condition.Ends scope (.ok ()) := by
  have value := @ends_valueExpr scope cast
  simp only [range] at given
  split at given
  · cases given
    exact ends_nested (ends_isNull own false)
  · obtain ⟨bare, bounded, rfl⟩ := Option.map_eq_some_iff.mp given
    apply ends_nested
    cases low : bound? min <;> cases high : bound? max <;> rw [low, high] at bounded <;> cases bounded
    · exact ends_binary own (value _)
    · exact ends_binary own (value _)
    · exact ends_between own (value _) (value _) false

end Facet

namespace ResolvedFacet

/-- Whether some of the elements of a list are asked for. -/
def asksElements (facet : ResolvedFacet) : Bool :=
  match facet.request.selection with
  | .values values => facet.type.isList && values.any (· ≠ Facet.nullKeyword)
  | .range .. => false

/-- Elements can be looked up in a list column, but not in a list at a path. -/
def Executable (facet : ResolvedFacet) : Prop :=
  facet.request.path = none ∨ facet.asksElements = false

/-- A path has no side table. -/
def refusal : CompileError := .invalidOperand (.notList .has)

variable {columns : List ColumnModel} {request : FacetRequest} {facet : ResolvedFacet} {scope : Scope}

/-- The column of a facet, which gives it its type unless there is a path. -/
theorem column_of_resolve (ok : resolve columns request = .ok facet) :
    facet.request = request ∧
      ∃ column, (columns.find? fun other => other.name == facet.request.column) = some column ∧
        (facet.request.path = none → facet.type = column.type) := by
  unfold resolve at ok
  split at ok
  · cases ok
  · next column found =>
      dsimp only at ok
      split at ok
      · obtain ⟨⟨kind, type⟩, offered, ok⟩ := Except.of_bind ok
        unfold Facet.ofColumn at offered
        split at offered <;> cases offered
        dsimp only at ok
        split at ok <;> cases ok
        exact ⟨rfl, column, found, fun _ => rfl⟩
      · obtain ⟨⟨kind, type⟩, offered, ok⟩ := Except.of_bind ok
        unfold Facet.ofSubColumn at offered
        split at offered <;> cases offered
        next sub place =>
          dsimp only at ok
          split at ok <;> cases ok
          refine ⟨rfl, column, found, fun pathless => ?_⟩
          have path : some sub.path = request.path := by simpa using List.find?_some place
          cases path.trans pathless

theorem ends_quoted (reads : scope.binding.Reads columns) {name : String} {column : ColumnModel}
    (found : (columns.find? fun other => other.name == name) = some column) :
    (Expr.quoted name).Ends scope (.ok ()) := by
  intro position
  obtain ⟨table, stored, resolves, _⟩ := reads name column found
  have lowers : (ColumnRef.lower scope position ⟨none, .doubleQuoted name⟩).map (fun _ => ()) = .ok () := by
    simp only [ColumnRef.lower, resolves, Bind.bind, Except.bind]
    dsimp only [ResolvedColumn.stored?]
    split <;> rfl
  rw [← lowers]
  exact ends_lift _

theorem ends_subject (reads : scope.binding.Reads columns) (ok : resolve columns request = .ok facet) :
    facet.subject.Ends scope (.ok ()) := by
  obtain ⟨_, column, found, _⟩ := column_of_resolve ok
  have own := ends_quoted reads found
  unfold subject
  split
  · apply Expr.ends_call
    simpa using ⟨own, Expr.ends_string _⟩
  · exact own

theorem ends_has_column (reads : scope.binding.Reads columns) {name : String} {column : ColumnModel}
    (found : (columns.find? fun other => other.name == name) = some column)
    (list : column.type.isList = true) (values : List String) :
    (Expr.has (.quoted name) (values.map Expr.string) false false).Ends scope (.ok ()) := by
  intro position
  obtain ⟨table, stored, resolves, rfl⟩ := reads name column found
  have tested : ∃ listed, (Expr.quoted name).testedList scope .has = .ok listed := by
    refine ⟨⟨table.id, table.correlation, stored.id, stored.model.type.element⟩, ?_⟩
    simp only [Expr.quoted, Expr.testedList, ColumnRef.listColumn, Binding.resolveRequired, resolves,
      Bind.bind, Except.bind]
    dsimp only [ResolvedColumn.stored?, pure, Except.pure]
    rw [if_pos list]
    rfl
  obtain ⟨listed, ok⟩ := tested
  rw [Expr.lower]
  simp only [Bool.false_eq_true, if_false, ok]
  apply ends_behind (ends_lift (.ok listed))
  intro _
  apply ends_behind (Expr.ends_lowerAll (fun expr member => ?_) _)
  · intro _
    exact ends_behind (ends_lift (.ok _)) fun _ => ends_pure _
  · obtain ⟨value, _, rfl⟩ := List.mem_map.mp member
    exact Expr.ends_string value

theorem ends_has_call (name : String) (distinct : Bool) (arguments values : List Expr) :
    (Expr.has (.call name distinct arguments) values false false).Ends scope (.error refusal) :=
  fun _ _ => rfl

/-- The condition of a facet that the schema offers can be lowered if the facet can be executed, and is refused
otherwise. -/
theorem ends_condition (reads : scope.binding.Reads columns) (ok : resolve columns request = .ok facet)
    {condition : Expr} (given : facet.condition = some condition) :
    (facet.Executable → condition.Ends scope (.ok ())) ∧
      (¬ facet.Executable → condition.Ends scope (.error refusal)) := by
  obtain ⟨_, column, found, typed⟩ := column_of_resolve ok
  have own := ends_subject reads ok
  unfold ResolvedFacet.condition at given
  unfold Executable asksElements
  cases selected : facet.request.selection with
  | range min max =>
    rw [selected] at given
    simpa using Facet.ends_range own given
  | values values =>
    rw [selected] at given
    dsimp only at given ⊢
    split at given
    · next list =>
        cases path : facet.request.path with
        | none =>
          have has (values : List String) :
              (Expr.has facet.subject (values.map Expr.string) false false).Ends scope (.ok ()) := by
            rw [subject, path]
            exact ends_has_column reads found (typed path ▸ list) values
          simpa using Facet.ends_listEnumeration own has given
        | some text =>
          have has (values : List String) :
              (Expr.has facet.subject (values.map Expr.string) false false).Ends scope (.error refusal) := by
            rw [subject, path]
            exact ends_has_call _ _ _ _
          have ends := Facet.ends_listEnumeration own has given
          cases some : values.any (· ≠ Facet.nullKeyword) <;> rw [some] at ends <;> simpa [list] using ends
    · next scalar =>
        simpa [scalar] using Facet.ends_enumeration own given

/-- A facet that cannot be executed asks for something. -/
theorem condition_of_refused (refused : ¬ facet.Executable) : ∃ condition, facet.condition = some condition := by
  refine Option.ne_none_iff_exists'.mp fun nothing => refused (.inr ?_)
  have asks := facet.condition_eq_none.mp nothing
  unfold AsksNothing at asks
  unfold asksElements
  cases selected : facet.request.selection with
  | range min max => rfl
  | values values =>
    rw [selected] at asks
    obtain rfl : values = [] := asks
    exact Bool.and_false _

theorem ends_combine (reads : scope.binding.Reads columns) {facets : List ResolvedFacet} {whole : Expr}
    (offered : ∀ facet ∈ facets, ∃ request, resolve columns request = .ok facet)
    (given : combine facets = some whole) :
    ((∀ facet ∈ facets, facet.Executable) → whole.Ends scope (.ok ())) ∧
      ((∃ facet ∈ facets, ¬ facet.Executable) → whole.Ends scope (.error refusal)) := by
  have chains := Expr.chains_allOf given
  constructor
  · intro executable
    apply chains.ends
    intro condition listed
    obtain ⟨facet, member, own⟩ := List.mem_filterMap.mp listed
    obtain ⟨request, ok⟩ := offered facet member
    exact (ends_condition reads ok own).1 (executable facet member)
  · rintro ⟨facet, member, refused⟩
    apply chains.ends_failed
    · intro condition listed
      obtain ⟨facet, member, own⟩ := List.mem_filterMap.mp listed
      obtain ⟨request, ok⟩ := offered facet member
      by_cases executable : facet.Executable
      · exact .inl ((ends_condition reads ok own).1 executable)
      · exact .inr ((ends_condition reads ok own).2 executable)
    · obtain ⟨request, ok⟩ := offered facet member
      obtain ⟨condition, own⟩ := condition_of_refused refused
      exact ⟨condition, List.mem_filterMap.mpr ⟨facet, member, own⟩, (ends_condition reads ok own).2 refused⟩

end ResolvedFacet

/-- The condition of a query and another one, which decides how both end. -/
theorem Expr.ends_narrowed {scope : Scope} {condition : Option Expr} {added : Expr}
    {outcome : Except CompileError Unit}
    (own : Lowering.Ends (lowerOption scope (.condition none) condition) (.ok ()))
    (ends : added.Ends scope outcome) :
    Lowering.Ends (lowerOption scope (.condition none) (some (narrowed condition added))) outcome := by
  apply ends_before _ fun _ => ends_pure _
  cases condition with
  | none => exact ends _
  | some condition =>
    have first : Lowering.Ends (condition.lower scope (.condition none)) (.ok ()) := own.of_map
    exact ends_behind (ends_parenthesized first) fun _ =>
      ends_before (ends_parenthesized (ends _)) fun _ => ends_pure _

/-- A part that is narrowed by facets ends as the facets do. -/
theorem ResolvedFacet.ends_narrowed {columns : List ColumnModel} {facets : List ResolvedFacet} {scope : Scope}
    {part : Select} (reads : scope.binding.Reads columns)
    (offered : ∀ facet ∈ facets, ∃ request, resolve columns request = .ok facet)
    (own : Lowering.Ends (Expr.lowerOption scope (.condition none) part.filter) (.ok ())) :
    let filter := (part.narrowed none (combine facets)).filter
    ((∀ facet ∈ facets, facet.Executable) →
      Lowering.Ends (Expr.lowerOption scope (.condition none) filter) (.ok ())) ∧
    ((∃ facet ∈ facets, ¬ facet.Executable) →
      Lowering.Ends (Expr.lowerOption scope (.condition none) filter) (.error refusal)) := by
  cases given : combine facets with
  | none =>
    refine ⟨fun _ => own, ?_⟩
    rintro ⟨facet, member, refused⟩
    obtain ⟨condition, asks⟩ := condition_of_refused refused
    rw [combine_eq_none.mp given facet member] at asks
    cases asks
  | some whole =>
    obtain ⟨succeeds, fails⟩ := ends_combine reads offered given
    exact ⟨fun executable => Expr.ends_narrowed own (succeeds executable),
      fun refused => Expr.ends_narrowed own (fails refused)⟩

/-! ## Queries with another condition -/

def Query.refiltered (query : Query) (filter : Option Expr) : Query :=
  { query with first := { query.first with filter } }

namespace Plan

def refiltered (filter : Option Expr) : Plan → Plan
  | plain description query => plain description (query.refiltered filter)
  | layered description query name inner => layered description (query.refiltered filter) name inner

theorem ofStatement_refiltered {lookup : List IndexDescription} {sqlContext : SqlContext}
    {context : BindingContext} {description : IndexDescription} {query : Query} {plan : Plan}
    (stored : description.isVirtual = false) (filter : Option Expr)
    (laid : ofStatement lookup sqlContext context description query = .ok plan) :
    ofStatement lookup sqlContext context description (query.refiltered filter) =
      .ok (plan.refiltered filter) := by
  obtain ⟨entered, enters, laid⟩ := Except.of_bind laid
  have checked : ∀ prepared, description.prepareChecked sqlContext query = .ok prepared →
      prepared = query ∧ description.prepareChecked sqlContext (query.refiltered filter) =
        .ok (query.refiltered filter) := by
    intro prepared ok
    obtain ⟨_, prepares, rest⟩ := Except.of_bind ok
    obtain ⟨_, composed, same⟩ := Except.of_bind rest
    cases same
    obtain ⟨rfl, undefined⟩ := IndexDescription.prepare_stored stored prepares
    have others : description.prepare (prepared.refiltered filter) = .ok (prepared.refiltered filter) := by
      have none : ¬ (prepared.parts.any fun part => part.definingFilter.isSome) = true := by
        simpa using undefined
      cases description with
      | virtualTable => cases stored
      | _ => exact if_neg none
    refine ⟨rfl, ?_⟩
    rw [IndexDescription.prepareChecked, others]
    show (description.checkComposition sqlContext (prepared.refiltered filter) >>= fun _ => _) = _
    rw [show description.checkComposition sqlContext (prepared.refiltered filter) = _ from composed]
    rfl
  rw [ofStatement, enters]
  show layOut lookup sqlContext entered description (query.refiltered filter) = _
  obtain ⟨prepared, own, ⟨none, rfl⟩ | ⟨element, table, known, inside, inner, clause, parsed, found, opens, deeper,
    rfl⟩⟩ := layOut_cases laid
  · obtain ⟨rfl, other⟩ := checked prepared own
    exact layOut_plain other none
  · obtain ⟨rfl, other⟩ := checked prepared own
    exact layOut_layered other clause parsed found opens deeper

end Plan

theorem Select.bindTables_refiltered {schemas : Schemas} {part : Select} {bound : Binding × Select}
    (ok : part.bindTables schemas = .ok bound) (filter : Option Expr) :
    { part with filter }.bindTables schemas = .ok (bound.1, { bound.2 with filter }) := by
  obtain ⟨distinct, projection, source, defining, own, groupBy, orderBy, page⟩ := part
  obtain ⟨binding, binds, ok⟩ := Except.of_bind ok
  cases projection with
  | items list =>
    cases ok
    rw [Select.bindTables, binds]
    rfl
  | all =>
    obtain ⟨items, star, ok⟩ := Except.of_bind ok
    cases ok
    simp only [Select.bindTables, binds, star, Bind.bind, Except.bind]
    rfl

namespace Compiler

variable {compiler : Compiler} {compiled : CompiledQuery} {state after : LoweringState} {role : Role}

theorem page_refiltered {rowsPerPage : Option UInt64} {binding : Binding} {part : Select}
    {paged : List (Binding × Select)} (ok : compiler.page role rowsPerPage [(binding, part)] = .ok paged) :
    ∃ page, paged = [(binding, { part with page })] ∧ ∀ filter,
      compiler.page role rowsPerPage [(binding, { part with filter })] =
        .ok [(binding, { part with filter, page })] := by
  cases role with
  | definition =>
    cases ok
    refine ⟨part.page, ?_, fun _ => rfl⟩
    cases part
    rfl
  | statement =>
    obtain ⟨requested, asked, ok⟩ := Except.of_bind ok
    obtain ⟨page, cut, ok⟩ := Except.of_bind ok
    cases ok
    refine ⟨page, rfl, fun filter => ?_⟩
    simp only [Compiler.page, pageLast, asked, cut, Bind.bind, Except.bind]
    rfl

theorem ends_compileParts {description : IndexDescription} {query : Query} {inner : Option CompiledQuery}
    (single : query.unions = [])
    (ran : (compiler.compileParts role description query inner).run state = (.ok compiled, after)) :
    ∃ scope : Scope, Binding.ofSource compiler.schemas query.first.source = .ok scope.binding ∧
      Lowering.Ends (Expr.lowerOption scope (.condition none) query.first.filter) (.ok ()) ∧
      ∀ filter outcome, Lowering.Ends (Expr.lowerOption scope (.condition none) filter) outcome →
        Lowering.Ends (compiler.compileParts role description (query.refiltered filter) inner) outcome := by
  obtain ⟨clause, first, unions⟩ := query
  obtain rfl : unions = [] := single
  obtain ⟨parts, paged, metadata, lowered, compiles, ran⟩ := run_compileParts ran
  cases Except.forall₂_of_mapM compiles.binds with
  | @cons _ bound _ _ binds rest =>
    cases rest
    obtain ⟨binding, part⟩ := bound
    have adds := compiles.adds
    rw [compiles.isAggregated, compiles.tableIds] at adds
    obtain ⟨page, rfl, pages⟩ := page_refiltered compiles.pages
    rw [compiles.rowsPerPage, compiles.rowSize, compiles.outputColumns] at pages
    cases run_mapM ran with
    | @cons _ result _ _ own rest =>
      obtain ⟨start, stop, own⟩ := own
      obtain ⟨succeeds, ends⟩ := Select.ends_refiltered own
      obtain ⟨source, spelled⟩ := Select.bindTables_of_ok binds
      have same : part.filter = first.filter := by
        rcases spelled with ⟨unchanged, _⟩ | ⟨_, _, _, changed⟩
        · exact congrArg Select.filter unchanged
        · rw [show part = _ from changed]
      refine ⟨⟨compiler.schemas, binding, role = .statement && compiler.context = .query, part.aliases⟩,
        source, ?_, fun filter outcome given => ?_⟩
      · show Lowering.Ends (Expr.lowerOption _ _ first.filter) _
        rw [← same]
        exact succeeds
      · have others : ([{ first with filter }].mapM (Select.bindTables compiler.schemas)) =
            .ok [(binding, { part with filter })] := by
          rw [List.mapM_cons, Select.bindTables_refiltered binds filter]
          rfl
        unfold compileParts
        apply ends_lifted others
        apply ends_lifted adds
        apply ends_lifted (pages filter)
        apply ends_before _ fun _ => ends_pure _
        rw [List.mapM_cons]
        exact ends_before (ends filter outcome given) fun _ => ends_pure _

theorem ends_compilePlan {plan : Plan} (single : plan.query.unions = [])
    (ran : (compiler.compilePlan role plan).run state = (.ok compiled, after)) :
    ∃ scope : Scope, Binding.ofSource compiler.schemas plan.query.first.source = .ok scope.binding ∧
      Lowering.Ends (Expr.lowerOption scope (.condition none) plan.query.first.filter) (.ok ()) ∧
      ∀ filter outcome, Lowering.Ends (Expr.lowerOption scope (.condition none) filter) outcome →
        ((compiler.compilePlan role (plan.refiltered filter)).run state).1.map (fun _ => ()) = outcome := by
  cases plan with
  | plain description query =>
    obtain ⟨scope, binds, succeeds, ends⟩ := ends_compileParts single ran
    exact ⟨scope, binds, succeeds, fun filter outcome given => ends filter outcome given state⟩
  | layered description query name inner =>
    obtain ⟨below, between, ran_below, ran⟩ := run_bind ran
    obtain ⟨element, start, put, ran⟩ := run_bind ran
    have own : ({ query with commonTables := some [element] } : Query).unions = [] := single
    obtain ⟨scope, binds, succeeds, ends⟩ := ends_compileParts own ran
    refine ⟨scope, binds, succeeds, fun filter outcome given => ?_⟩
    -- What is compiled before the query is the same.
    have whole : (compiler.compilePlan role (Plan.layered description (query.refiltered filter) name inner)).run
        state = (compiler.compileParts role description { query.refiltered filter with
          commonTables := some [element] } (some below)).run start := by
      rw [compilePlan, run_bind_eq, ran_below]
      show ((lift _ >>= _) : Lowering CompiledQuery).run between = _
      rw [run_bind_eq, put]
    show ((compiler.compilePlan role (Plan.layered description (query.refiltered filter) name inner)).run
      state).1.map _ = _
    rw [whole]
    exact ends filter outcome given start

/-- A statement over an object that is neither virtual nor composed has one part over one table, and it ends with
another condition as that condition does. -/
theorem outcome_refiltered {query : Query} {statement : Statement}
    (stored : compiler.description.isVirtual = false)
    (refuses : compiler.description.supportsComposition compiler.context = false)
    (ok : compiler.compileQuery query = .ok statement) :
    query.unions = [] ∧ ∃ scope : Scope,
      scope.binding.Reads (query.first.source.leading.columns compiler.schemas) ∧
      Lowering.Ends (Expr.lowerOption scope (.condition none) query.first.filter) (.ok ()) ∧
      ∀ filter outcome, Lowering.Ends (Expr.lowerOption scope (.condition none) filter) outcome →
        (compiler.compileQuery (query.refiltered filter)).map (fun _ => ()) = outcome := by
  obtain ⟨plan, after, laid, ran⟩ := run_of_compileQuery ok
  have replan (filter : Option Expr) := Plan.ofStatement_refiltered stored filter laid
  have checked := Plan.prepared_query laid
  obtain ⟨single, joins⟩ := IndexDescription.single_of_checked refuses checked
  have alone := joins plan.query.first List.mem_cons_self
  obtain ⟨last, _⟩ := IndexDescription.prepare_stored stored (IndexDescription.prepare_of_checked checked)
  rw [← last]
  obtain ⟨scope, binds, succeeds, ends⟩ := ends_compilePlan single ran
  refine ⟨single, scope, Binding.reads_of_ofSource alone binds, succeeds, fun filter outcome given => ?_⟩
  rw [last, compileQuery_eq, replan filter, ← ends filter outcome given]
  show (Statement.ofRun _).map _ = _
  rcases (compiler.compilePlan .statement (plan.refiltered filter)).run { context := compiler.start } with
    ⟨problem | value, state⟩ <;> rfl

end Compiler

/-! ## Queries with facets -/

theorem Overrides.combine_facets {columns : List ColumnModel} {requests : List FacetRequest}
    {facets : List ResolvedFacet} {query : Query} (single : query.unions = [])
    (accepted : requests.mapM (ResolvedFacet.resolve columns) = .ok facets) :
    ({ columns, facets := requests } : Overrides).combine query =
      .ok (query.refiltered (query.first.narrowed none (ResolvedFacet.combine facets)).filter) := by
  obtain ⟨clause, first, unions⟩ := query
  obtain rfl : unions = [] := single
  simp only [Overrides.combine, accepted, Bind.bind, Except.bind]
  cases first
  cases given : ResolvedFacet.combine facets <;> simp only [Overrides.search, given] <;> rfl

namespace Compiler

/-- Facets that the schema offers, in statements. A query over a table that is compiled is still compiled with
facets that the schema of the table offers, exactly if none of them asks for elements of a list at a path inside
a JSON column; if one does, this is the error. The text of the query with the facets ends in the same way, if the
query itself can be written as text. -/
theorem facets_compile_iff_executable (compiler : Compiler) (query : Query) (statement : Statement)
    (requests : List FacetRequest) (facets : List ResolvedFacet)
    (stored : compiler.description.isVirtual = false)
    (refuses : compiler.description.supportsComposition compiler.context = false)
    (compiled : compiler.compileQuery query = .ok statement)
    (accepted : requests.mapM (ResolvedFacet.resolve (query.first.source.leading.columns compiler.schemas)) =
      .ok facets) :
    ∃ combined,
      ({ columns := query.first.source.leading.columns compiler.schemas, facets := requests } : Overrides).combine
        query = .ok combined ∧
      ((∃ result, compiler.compileQuery combined = .ok result) ↔ ∀ facet ∈ facets, facet.Executable) ∧
      ((∃ facet ∈ facets, ¬ facet.Executable) →
        compiler.compileQuery combined = .error (.invalidOperand (.notList .has))) ∧
      (Fragment.Everywhere Fragment.Writable (.query query) →
        (compiler.compileText combined.text).map (fun _ => ()) =
          (compiler.compileQuery combined).map fun _ => ()) := by
  obtain ⟨single, scope, reads, own, ends⟩ := outcome_refiltered stored refuses compiled
  have combines := Overrides.combine_facets single accepted
  have offered : ∀ facet ∈ facets, ∃ request, ResolvedFacet.resolve
      (query.first.source.leading.columns compiler.schemas) request = .ok facet :=
    forall₂_right (Except.forall₂_of_mapM accepted) fun request _ facet ok => ⟨request, ok⟩
  obtain ⟨succeeds, fails⟩ := ResolvedFacet.ends_narrowed reads offered own
  refine ⟨_, combines, ⟨?_, ?_⟩, fun refused => ?_, fun writable => ?_⟩
  · rintro ⟨result, ok⟩ facet member
    by_cases executable : facet.Executable
    · exact executable
    · have failed := ends _ _ (fails ⟨facet, member, executable⟩)
      rw [ok] at failed
      cases failed
  · intro executable
    obtain ⟨result, ok, _⟩ := Except.of_map (ends _ _ (succeeds executable))
    exact ⟨result, ok⟩
  · exact Except.of_failed (ends _ _ (fails refused))
  · obtain ⟨flat, parsed, related⟩ := Overrides.parse_text_of_combine combines writable (by simp)
    rw [compileText, parsed]
    show (compiler.compileQuery flat).map _ = _
    exact (compiler.agree_regrouped related).map_unit.symm

/-- A list of tags, and a document that has a list of tags and a size. -/
def facetedColumns : List ColumnModel :=
  [{ id := some 11, name := "name", type := .string },
    { id := some 12, name := "tags", type := .stringList, facet := some .enumeration },
    { id := some 13, name := "doc", type := .json, subColumns :=
      [⟨"tags", "$.tags", .stringList, .enumeration⟩, ⟨"size", "$.size", .double, .range⟩] }]

def facetedCompiler : Compiler where
  schemas := (({} : Catalog).addTable ⟨2, none⟩ facetedColumns).schemas
  description := .table ⟨2, none⟩
  userId := 7

/-- `SELECT name FROM syn2 WHERE name = 'x' ORDER BY name` -/
def facetedQuery : Query :=
  .single { Select.simple (.items [⟨.named "name", none⟩]) (.named "syn2") with
    filter := some (.equals (.named "name") (.string "x"))
    orderBy := [⟨.named "name", none⟩] }

theorem facetedQuery_columns :
    facetedQuery.first.source.leading.columns facetedCompiler.schemas = facetedColumns := by
  rfl

theorem facetedQuery_compiles : ∃ statement, facetedCompiler.compileQuery facetedQuery = .ok statement ∧
    statement.text = "SELECT _C11_, ROW_ID, ROW_VERSION FROM T2 WHERE _C11_ = :b0 ORDER BY _C11_" :=
  compiles_within 1 (by decide +kernel)

/-- Tags, a lower bound of the size, and documents without tags. -/
theorem facets_compile_iff_executable_sized :
    let requests : List FacetRequest := [⟨"tags", none, .values ["p", Facet.nullKeyword]⟩,
      ⟨"doc", some "$.size", .range (some "1.5") none⟩, ⟨"doc", some "$.tags", .values [Facet.nullKeyword]⟩]
    ∃ combined statement,
      ({ columns := facetedColumns, facets := requests } : Overrides).combine facetedQuery = .ok combined ∧
      facetedCompiler.compileQuery combined = .ok statement := by
  intro requests
  obtain ⟨statement, compiled, _⟩ := facetedQuery_compiles
  have accepted : requests.mapM (ResolvedFacet.resolve facetedColumns) =
      .ok [⟨.enumeration, .stringList, requests[0]⟩, ⟨.range, .double, requests[1]⟩,
        ⟨.enumeration, .stringList, requests[2]⟩] := by
    decide +kernel
  rw [← facetedQuery_columns] at accepted
  obtain ⟨combined, combines, compiles, _⟩ := facets_compile_iff_executable facetedCompiler facetedQuery statement
    requests _ rfl rfl compiled accepted
  rw [facetedQuery_columns] at combines
  obtain ⟨result, ok⟩ := compiles.mpr (by
    simp [ResolvedFacet.Executable, ResolvedFacet.asksElements, requests])
  exact ⟨combined, result, combines, ok⟩

/-- A facet of a list at a path. -/
def pathFacet : ResolvedFacet :=
  ⟨.enumeration, .stringList, ⟨"doc", some "$.tags", .values ["a"]⟩⟩

/-- `SELECT name FROM syn2 WHERE ( name = 'x' ) AND ( JSON_EXTRACT("doc",'$.tags') HAS ( 'a' ) ) ORDER BY name` -/
def pathQuery : Query :=
  facetedQuery.refiltered (some (.and (.nested (.equals (.named "name") (.string "x")))
    (.nested (.has (.apply "JSON_EXTRACT" [.quoted "doc", .string "$.tags"]) [.string "a"] false false))))

/-- The schema offers the facet, but with it the query is refused. -/
theorem path_elements_refused :
    (∃ statement, facetedCompiler.compileQuery facetedQuery = .ok statement) ∧
      ResolvedFacet.resolve facetedColumns pathFacet.request = .ok pathFacet ∧
      ({ columns := facetedColumns, facets := [pathFacet.request] } : Overrides).combine facetedQuery =
        .ok pathQuery ∧
      facetedCompiler.compileQuery pathQuery = .error (.invalidOperand (.notList .has)) := by
  obtain ⟨statement, compiled, _⟩ := facetedQuery_compiles
  exact ⟨⟨statement, compiled⟩, by decide +kernel, by decide +kernel, refuses_within 1 (by decide +kernel)⟩

end Compiler

end TabularSql
