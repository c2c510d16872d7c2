import TabularSql.Proofs.Lowering.Steps
import TabularSql.Proofs.Placeholder

/-!
# Numbering of placeholders

Lowering binds values in the order in which their placeholders are written. Each step shows the placeholders
that it binds, from left to right, numbered from the values that were bound before it, and between them the
bind parameters of the query, unchanged and in their places. The facts follow the recursion of lowering: one
for each form of expression, then for the clauses of a select in the order of its text.
-/

namespace TabularSql

set_option autoImplicit false

def placeholderNames (start count : Nat) : List String :=
  (List.range' start count).map placeholderName

theorem placeholderNames_append (start first second : Nat) :
    placeholderNames start first ++ placeholderNames (start + first) second =
      placeholderNames start (first + second) := by
  rw [placeholderNames, placeholderNames, placeholderNames, ← List.map_append, List.range'_append_1]

/-! ## Two lists in one -/

/-- The third list has the items of the first two, those of each in their order. -/
inductive Interleaved {α : Type} : List α → List α → List α → Prop where
  | nil : Interleaved [] [] []
  | left {first second whole : List α} (item : α) (rest : Interleaved first second whole) :
      Interleaved (item :: first) second (item :: whole)
  | right {first second whole : List α} (item : α) (rest : Interleaved first second whole) :
      Interleaved first (item :: second) (item :: whole)

namespace Interleaved

variable {α : Type} {first second whole others more rest : List α}

theorem append (front : Interleaved first second whole) (back : Interleaved others more rest) :
    Interleaved (first ++ others) (second ++ more) (whole ++ rest) := by
  induction front with
  | nil => exact back
  | left item _ ih => exact .left item ih
  | right item _ ih => exact .right item ih

theorem all_left (list : List α) : Interleaved list [] list := by
  induction list with
  | nil => exact .nil
  | cons item list ih => exact .left item ih

theorem eq_of_nil (interleaved : Interleaved [] second whole) : whole = second := by
  generalize none : ([] : List α) = first at interleaved
  induction interleaved with
  | nil => rfl
  | left => cases none
  | right item _ ih => rw [ih none]

end Interleaved

namespace Lowering

variable {α β : Type}

variable {step : Lowering α} {value : α} {next : β → Lowering α} {own : β → List String}

/-- The step binds the placeholders that its value shows behind those shown before, in order and each
once. -/
def Numbers (before : List String) (step : Lowering α) (shown : α → List String) : Prop :=
  ∀ state value after, step.run state = (.ok value, after) →
    ∃ added, after.context.parameters.values = state.context.parameters.values ++ added ∧
      shown value =
        before ++ placeholderNames state.context.parameters.values.length added.length

/-- The same, with names that were written before among the placeholders. -/
def Weaves (written before : List String) (step : Lowering α) (shown : α → List String) : Prop :=
  ∀ state value after, step.run state = (.ok value, after) →
    ∃ added behind, after.context.parameters.values = state.context.parameters.values ++ added ∧
      shown value = before ++ behind ∧
      Interleaved written (placeholderNames state.context.parameters.values.length added.length) behind

def Silent (step : Lowering α) : Prop :=
  ∀ state value after, step.run state = (.ok value, after) → after.context = state.context

variable {written before : List String} {shown : α → List String}

theorem Weaves.numbers (weaves : Weaves [] before step shown) :
    Numbers before step shown := by
  intro state value after ran
  obtain ⟨added, behind, values, shows, interleaved⟩ := weaves state value after ran
  exact ⟨added, values, by rw [shows, interleaved.eq_of_nil]⟩

theorem Weaves.congr {other : List String} (weaves : Weaves written before step shown)
    (same : written = other) : Weaves other before step shown := same ▸ weaves

theorem weaves_unbound (silent : Silent step)
    (same : ∀ state value after, step.run state = (.ok value, after) → shown value = before ++ written) :
    Weaves written before step shown := by
  intro state value after ran
  refine ⟨[], written, ?_, same state value after ran, Interleaved.all_left written⟩
  rw [silent state value after ran, List.append_nil]

theorem silent_pure : Silent (pure value) :=
  fun _ _ _ ran => congrArg _ (run_pure ran).2

theorem silent_lift {given : Except CompileError α} : Silent (lift given) :=
  fun _ _ _ ran => congrArg _ (run_lift ran).2

theorem weaves_pure (same : shown value = before ++ written) :
    Weaves written before (pure value) shown :=
  weaves_unbound silent_pure fun _ _ _ ran => (run_pure ran).1 ▸ same

theorem weaves_last (same : shown value = before) : Weaves [] before (pure value) shown :=
  weaves_pure (by rw [same, List.append_nil])

theorem weaves_bind_of {later : List String} {step : Lowering β} {known : β → Prop}
    (first : Weaves written [] step own)
    (holds : ∀ state value after, step.run state = (.ok value, after) → known value)
    (second : ∀ value, known value → Weaves later (before ++ own value) (next value) shown) :
    Weaves (written ++ later) before (step >>= next) shown := by
  intro state result after ran
  obtain ⟨value, between, ran_first, ran_second⟩ := run_bind ran
  obtain ⟨bound, front, values, names, one⟩ := first state value between ran_first
  obtain ⟨added, back, last, shows, two⟩ :=
    second value (holds state value between ran_first) between result after ran_second
  refine ⟨bound ++ added, front ++ back, by rw [last, values, List.append_assoc], ?_, ?_⟩
  · rw [shows, names, List.nil_append, List.append_assoc]
  · rw [values, List.length_append] at two
    rw [List.length_append, ← placeholderNames_append]
    exact one.append two

theorem weaves_bind {later : List String} {step : Lowering β} (first : Weaves written [] step own)
    (second : ∀ value, Weaves later (before ++ own value) (next value) shown) :
    Weaves (written ++ later) before (step >>= next) shown :=
  weaves_bind_of first (fun _ _ _ _ => trivial) fun value _ => second value

theorem weaves_value {step : Lowering β} {value : β → α} (weaves : Weaves written [] step own)
    (same : ∀ result, shown (value result) = before ++ own result) :
    Weaves written before (step >>= fun result => pure (value result)) shown :=
  (weaves_bind weaves fun result => weaves_last (same result)).congr (List.append_nil _)

theorem Weaves.inserted {names : List String} (weaves : Weaves written (before ++ names) step shown) :
    Weaves (names ++ written) before step shown := by
  intro state value after ran
  obtain ⟨added, behind, values, shows, interleaved⟩ := weaves state value after ran
  exact ⟨added, names ++ behind, values, by rw [shows, List.append_assoc],
    (Interleaved.all_left names).append interleaved⟩

theorem Silent.bind {step : Lowering β} (silent : Silent step)
    (second : ∀ value, Weaves written before (next value) shown) :
    Weaves written before (step >>= next) shown := by
  intro state result after ran
  obtain ⟨value, between, ran_first, ran_second⟩ := run_bind ran
  have same := silent state value between ran_first
  have weaves := second value between result after ran_second
  rwa [same] at weaves

theorem weaves_lift {given : Except CompileError β}
    (second : ∀ value, given = .ok value → Weaves written before (next value) shown) :
    Weaves written before (lift given >>= next) shown := by
  intro state result after ran
  obtain ⟨value, between, ran_first, ran_second⟩ := run_bind ran
  obtain ⟨same, rfl⟩ := run_lift ran_first
  exact second value same between result after ran_second

theorem weaves_lift_last {given : Except CompileError α}
    (same : ∀ value, given = .ok value → shown value = before) : Weaves [] before (lift given) shown := by
  apply weaves_unbound silent_lift
  intro _ value _ ran
  rw [same value (run_lift ran).1, List.append_nil]

theorem weaves_mapM {step : β → Lowering α} {items : List β}
    (each : ∀ item ∈ items, Weaves (own item) [] (step item) shown) :
    Weaves (items.flatMap own) [] (items.mapM step) fun results => results.flatMap shown := by
  induction items with
  | nil => exact weaves_pure rfl
  | cons item items ih =>
    rw [List.mapM_cons, List.flatMap_cons]
    exact weaves_bind (each item (by simp)) fun value =>
      weaves_value (ih fun other member => each other (by simp [member])) fun values => by simp

theorem weaves_optional {step : β → Lowering α} {optional : Option β}
    (each : ∀ item ∈ optional, Weaves (own item) [] (step item) shown) :
    Weaves (optional.toList.flatMap own) [] (optional.mapM step) fun found =>
      found.toList.flatMap shown := by
  cases optional with
  | none => exact weaves_pure rfl
  | some item =>
    show Weaves _ [] (some <$> step item) _
    rw [map_eq_pure_bind]
    exact (weaves_value (each item rfl) fun value => by simp).congr (by simp)

theorem silent_get : Silent get := by
  intro state value after ran
  cases ran
  rfl

theorem silent_modify {change : LoweringState → LoweringState}
    (same : ∀ state, (change state).context = state.context) : Silent (modify change) := by
  intro state value after ran
  cases ran
  exact same state

theorem weaves_bound (value : ParameterValue) :
    Weaves [] [] (bind value) fun expr => (Fragment.expr expr).placeholders := by
  intro state result after ran
  cases ran
  exact ⟨[value], _, rfl, rfl, .right _ .nil⟩

end Lowering

/-! ## Expressions -/

namespace Expr

abbrev shown (whole : Expr) : List String := (Fragment.expr whole).placeholders

abbrev allShown (list : List Expr) : List String := list.flatMap shown

theorem allShown_anyOf {list : List Expr} {whole : Expr} (any : Expr.anyOf list = some whole) :
    whole.shown = allShown list := by
  have disjoined (rest : List Expr) (first : Expr) :
      (rest.foldl Expr.or first).shown = first.shown ++ allShown rest := by
    induction rest generalizing first with
    | nil => simp
    | cons second rest ih =>
      have pair : (Expr.or first second).shown = first.shown ++ second.shown := by
        rw [shown, placeholders_inside rfl]
        simp [Expr.or]
      rw [List.foldl_cons, ih, pair]
      simp
  cases list with
  | nil => cases any
  | cons first rest =>
    cases any
    simp [disjoined]

end Expr

theorem ColumnRef.lowersTo_silent {scope : Scope} {position : Position} {reference : ColumnRef}
    {lowered : Expr} (lowers : LowersTo scope position reference lowered) : lowered.shown = [] := by
  cases lowers with
  | physical found => simp [Fragment.placeholders, Expr.lexemes]
  | guarded =>
    simp [Fragment.placeholders, Expr.lexemes, Physical.guardedDouble, Physical.shadowExpr,
      Expr.lexemesAfter, Expr.branchLexemes]
  | unresolved nothing kept =>
    cases kept <;> simp [Fragment.placeholders, Expr.lexemes]

namespace Lowering

open TabularSql.Expr (shown allShown)

variable {scope : Scope} {position : Position}

theorem shown_rowsWith (column : ListColumn) (condition : Expr) (negated : Bool) :
    (column.rowsWith condition negated).shown = condition.shown := by
  simp [Fragment.placeholders, Expr.lexemes, ListColumn.rowsWith, Query.single, Select.simple,
    Query.lexemes, Select.lexemes, CommonTable.clauseLexemes, UnionBranch.lexemes,
    Projection.lexemes, SelectItem.lexemes, Source.named, Source.lexemes, Expr.lexemesAfter,
    Page.lexemesAfter, Expr.named, Lexeme.join]

theorem shown_matching {column : ListColumn} {pattern : Bool} {values : List Expr} {condition : Expr}
    (ok : column.matching pattern values = .ok condition) : condition.shown = allShown values := by
  have element : column.elementExpr.shown = [] := by
    simp [Fragment.placeholders, ListColumn.elementExpr, Expr.named, Expr.lexemes]
  rcases ListColumn.matching_of_ok ok with rfl | ⟨_, any⟩
  · rw [shown, Expr.placeholders_inside rfl]
    simp only [Expr.inside, List.flatMap_cons, List.flatMap_map]
    rw [show (Fragment.expr column.elementExpr).placeholders = [] from element, List.nil_append]
  · rw [Expr.allShown_anyOf any, allShown, List.flatMap_map]
    congr 1
    funext value
    rw [shown, Expr.placeholders_inside rfl]
    simp [Expr.inside, show (Fragment.expr column.elementExpr).placeholders = [] from element]

theorem Weaves.form {whole : Expr} {step : Lowering Expr} {before : List String}
    {written : List String} (weaves : Weaves written before step shown)
    (own : (Fragment.expr whole).isParameter = false)
    (same : written = whole.inside.flatMap Fragment.placeholders) :
    Weaves whole.shown before step shown :=
  weaves.congr (same.trans (Expr.placeholders_inside own).symm)

theorem weaves_form {lowered : Expr} {before : List String}
    (own : (Fragment.expr lowered).isParameter = false)
    (same : lowered.inside.flatMap Fragment.placeholders = before) :
    Weaves [] before (pure lowered) shown :=
  weaves_last (by rw [shown, Expr.placeholders_inside own, same])

theorem weaves_lowerAll {list : List Expr}
    (each : ∀ expr ∈ list, Weaves expr.shown [] (expr.lower scope position) shown) :
    Weaves (allShown list) [] (Expr.lowerAll scope position list) allShown := by
  rw [Expr.lowerAll_eq_mapM]
  exact weaves_mapM each

theorem weaves_lowerOption {optional : Option Expr}
    (each : ∀ expr ∈ optional, Weaves expr.shown [] (expr.lower scope position) shown) :
    Weaves (allShown optional.toList) [] (Expr.lowerOption scope position optional) fun found =>
      allShown found.toList := by
  rw [Expr.lowerOption_eq_mapM]
  exact weaves_optional each

theorem weaves_lowerBranches {tested result : Position} {branches : List (Expr × Expr)}
    (each : ∀ branch ∈ branches, Weaves branch.1.shown [] (branch.1.lower scope tested) shown ∧
      Weaves branch.2.shown [] (branch.2.lower scope result) shown) :
    Weaves (branches.flatMap fun branch => branch.1.shown ++ branch.2.shown) []
      (Expr.lowerBranches scope tested result branches) fun found =>
        found.flatMap fun branch => branch.1.shown ++ branch.2.shown := by
  rw [Expr.lowerBranches_eq_mapM]
  refine weaves_mapM fun branch member => ?_
  obtain ⟨first, second⟩ := each branch member
  exact weaves_bind first fun _ => weaves_value second fun _ => by simp

theorem weaves_literal (position : Position) (literal : Literal) :
    Weaves [] [] (literal.lower position) shown := by
  have kept : Weaves [] [] (pure (.literal literal)) shown := weaves_form rfl rfl
  unfold Literal.lower
  split
  · split
    · exact weaves_bound _
    · exact kept
  · exact kept

theorem weaves_currentUser : Weaves [] [] (Expr.currentUser.lower scope position) shown := by
  rw [Expr.lower]
  refine silent_get.bind fun state => ?_
  split
  · exact weaves_bound _
  · exact weaves_form rfl rfl

theorem weaves_search {text : Expr}
    (own : ∀ position, Weaves text.shown [] (text.lower scope position) shown) :
    Weaves text.shown [] (do
      let lowered ← text.lower scope (.condition (some .string))
      noteSearch
      return Expr.matchAgainst lowered) shown := by
  have noted : Silent noteSearch := silent_modify fun _ => rfl
  refine (weaves_bind (own _) fun lowered => noted.bind fun _ => weaves_form rfl ?_).congr
    (List.append_nil _)
  simp

theorem weaves_lower_of_inside {whole : Expr}
    (each : ∀ part, .expr part ∈ whole.inside →
      ∀ position, Weaves part.shown [] (part.lower scope position) shown) (position : Position) :
    Weaves whole.shown [] (whole.lower scope position) shown := by
  have all {list : List Expr} (listed : ∀ expr ∈ list, .expr expr ∈ whole.inside)
      (position : Position) : Weaves (allShown list) [] (Expr.lowerAll scope position list) allShown :=
    weaves_lowerAll fun expr member => each expr (listed expr member) position
  have optional {clause : Option Expr} (listed : ∀ expr ∈ clause, .expr expr ∈ whole.inside)
      (position : Position) : Weaves (allShown clause.toList) []
        (Expr.lowerOption scope position clause) fun found => allShown found.toList :=
    weaves_lowerOption fun expr member => each expr (listed expr member) position
  cases whole with
  | literal value => exact (weaves_literal position value).form rfl rfl
  | column reference =>
    refine (weaves_lift_last fun lowered ok => ?_).form rfl rfl
    exact ColumnRef.lowersTo_silent (ColumnRef.lowersTo_of_ok ok)
  | parameter name => exact weaves_pure rfl
  | wildcard => exact weaves_pure rfl
  | currentUser => exact weaves_currentUser.form rfl rfl
  | call name distinct arguments =>
    refine (weaves_bind (all (by simp) .argument) fun lowered =>
      weaves_form rfl ?_).form rfl ?_ <;> simp [List.flatMap_map]
  | cast operand target =>
    refine (weaves_bind (each operand (by simp) _) fun lowered =>
      weaves_lift fun known _ => weaves_form rfl ?_).form rfl ?_ <;> simp
  | caseWhen operand branches otherwise =>
    refine (weaves_bind (optional (by simp +contextual) _) fun first =>
      weaves_bind (weaves_lowerBranches fun branch member =>
          ⟨each _ (Expr.condition_inside member) _, each _ (Expr.result_inside member) _⟩)
        fun middle => weaves_bind (optional (by simp +contextual) _) fun last =>
        weaves_form rfl ?_).form rfl ?_
    · simp [List.flatMap_map, List.flatMap_assoc]
    · simp [List.flatMap_map, List.flatMap_assoc]
  | binary operator left right =>
    refine (weaves_bind (each left (by simp) _) fun first =>
      weaves_bind (each right (by simp) _) fun second =>
        weaves_form rfl ?_).form rfl ?_ <;> simp
  | unary _ operand | nested operand | isNull operand _ | isTruth operand _ _ =>
    refine (weaves_bind (each operand (by simp) _) fun lowered =>
      weaves_form rfl ?_).form rfl ?_ <;> simp
  | between tested low high negated =>
    refine (weaves_bind (each tested (by simp) _) fun first =>
      weaves_bind (each low (by simp) _) fun second =>
      weaves_bind (each high (by simp) _) fun third =>
        weaves_form rfl ?_).form rfl ?_ <;> simp
  | inList tested candidates negated =>
    refine (weaves_bind (each tested (by simp) _) fun first =>
      weaves_bind (all (by simp +contextual) _) fun list =>
        weaves_form rfl ?_).form rfl ?_ <;> simp [List.flatMap_map]
  | inQuery tested candidates negated =>
    intro state value after ran
    cases ran
  | like tested pattern escape negated =>
    refine (weaves_bind (each tested (by simp) _) fun first =>
      weaves_bind (each pattern (by simp) _) fun second =>
      weaves_bind (optional (by simp +contextual) _) fun third =>
        weaves_form rfl ?_).form rfl ?_ <;> simp [List.flatMap_map]
  | has tested values pattern negated =>
    refine weaves_lift fun column listed => ?_
    obtain ⟨reference, rfl, _⟩ := Expr.testedList_of_ok listed
    refine (weaves_bind (all (by simp +contextual) _) fun list =>
      weaves_lift fun condition ok => weaves_last ?_).form rfl ?_
    · rw [shown_rowsWith, shown_matching ok]
      simp
    · have tested : (Expr.column reference).shown = [] := by simp [Fragment.placeholders, Expr.lexemes]
      simp [List.flatMap_map, tested]
  | doubleTest test reference =>
    refine (weaves_lift_last fun lowered ok => ?_).form rfl rfl
    obtain ⟨resolved, stored, _, _, _, rfl | rfl⟩ := DoubleTest.lower_of_ok ok
    · simp [Fragment.placeholders, Expr.lexemes, Physical.nanTest, Physical.shadowExpr, Expr.and,
        Expr.equals, Expr.string]
    · simp [Fragment.placeholders, Expr.lexemes, Physical.infinityTest, Physical.shadowExpr,
        Expr.and, Expr.string, Lexeme.join]
  | textMatches text | matchAgainst text =>
    exact (weaves_search (each text (by simp))).form rfl (by simp)
  | unnest reference =>
    refine (weaves_lift fun column _ => ?_).form rfl rfl
    have noted : Silent (noteUnnested column) := silent_modify fun state => by
      split <;> rfl
    exact noted.bind fun _ => weaves_form rfl rfl

theorem weaves_lower (scope : Scope) (whole : Expr) (position : Position) :
    Weaves whole.shown [] (whole.lower scope position) shown := by
  induction whole using Fragment.expr_induction generalizing position with
  | step whole ih => exact weaves_lower_of_inside (fun part member position => ih part member position) position

/-! ## Selects -/

theorem weaves_item (item : SelectItem) :
    Weaves item.expr.shown [] (item.lower scope) fun lowered => lowered.expr.shown :=
  weaves_value (weaves_lower scope item.expr .select) fun _ => rfl

theorem weaves_key (key : SortKey) :
    Weaves key.expr.shown [] (key.lower scope) fun lowered => lowered.expr.shown :=
  weaves_value (weaves_lower scope key.expr .sort) fun _ => rfl

theorem weaves_conditions (source : Source) :
    Weaves (allShown source.conditions) [] (source.lowerConditions scope) fun lowered =>
      allShown lowered.conditions := by
  match source with
  | .table only => exact weaves_pure rfl
  | .join left kind right condition =>
    exact (weaves_bind (weaves_conditions left) fun before =>
      weaves_value (weaves_lower scope condition _) fun lowered => by simp [Source.conditions]).congr
        (by simp [Source.conditions])

theorem allShown_withSideTables (source : Source) (columns : List ListColumn) :
    allShown (source.withSideTables columns).conditions = allShown source.conditions := by
  simp [Source.conditions_withSideTables, Fragment.placeholders, Expr.lexemes, Expr.equals,
    List.flatMap_map]

theorem weaves_count (expr : Expr) : Weaves [] [] (Page.lowerCount expr) shown :=
  weaves_lift fun _ _ => weaves_bound _

/-- Row counts are bound; nothing of what is written there is kept. -/
theorem weaves_page (page : Page) : Weaves [] [] page.lower fun lowered => allShown lowered.exprs := by
  refine (weaves_bind (weaves_count page.limit) fun first =>
    weaves_value (weaves_optional fun expr _ => weaves_count expr) fun second => ?_).congr (by simp)
  simp [Page.exprs]

theorem shown_metadata (binding : Binding) (column : RowMetadata) :
    (column.expr binding).shown = [] := by
  cases column with
  | benefactor view =>
    simp only [RowMetadata.expr]
    split
    · rw [shown, Expr.placeholders_inside rfl]
      simp [Physical.benefactor, Expr.apply, Fragment.placeholders, Expr.lexemes,
        Expr.integer]
    · simp [Fragment.placeholders, Expr.lexemes, Expr.integer]
  | _ => simp [Fragment.placeholders, Expr.lexemes, RowMetadata.expr, RowMetadata.ofFirst]

end Lowering

/-- The bind parameters in the clauses of a part, row counts apart, from left to right. -/
def Select.written (part : Select) : List String :=
  (Fragment.select { part with page := none }).placeholders

theorem Select.written_eq (part : Select) : part.written =
    (part.projection.itemList.flatMap fun item => item.expr.shown) ++
      (Expr.allShown part.source.conditions ++ (Expr.allShown part.definingFilter.toList ++
        (Expr.allShown part.filter.toList ++ (Expr.allShown part.groupBy ++
          part.orderBy.flatMap fun key => key.expr.shown)))) := by
  rw [written, Select.placeholders_inside]
  simp [Fragment.inside, Select.exprs, List.flatMap_map]

namespace Lowering

open TabularSql.Expr (shown allShown)

/-- The clauses of a select are lowered in the order in which they are written. -/
theorem weaves_select (schemas : Schemas) (guardsDoubles : Bool) (metadata : List RowMetadata)
    (binding : Binding) (part : Select) :
    Weaves part.written [] (part.lower schemas guardsDoubles metadata binding) fun result =>
      (Fragment.select result.1).placeholders := by
  have reset : Silent (modify fun state : LoweringState =>
      { state with unnested := [], searches := false }) := silent_modify fun _ => rfl
  have added : (metadata.flatMap fun column => (column.expr binding).shown) = [] := by
    rw [List.flatMap_eq_nil_iff]
    exact fun column _ => shown_metadata binding column
  rw [Select.written_eq]
  refine reset.bind fun _ => ?_
  refine weaves_bind (weaves_mapM fun item _ => weaves_item item) fun items => ?_
  rw [← Binding.conditions_lowerTables binding]
  refine weaves_bind (weaves_conditions _) fun source => ?_
  -- The condition on the defining query is left where it stands.
  apply Weaves.inserted
  refine weaves_bind (weaves_lowerOption fun expr _ => weaves_lower _ expr _) fun filter => ?_
  refine weaves_bind (weaves_lowerAll fun expr _ => weaves_lower _ expr _) fun groupBy => ?_
  refine (weaves_bind (weaves_mapM fun key _ => weaves_key key) fun orderBy =>
    weaves_bind (weaves_optional fun page _ => weaves_page page) fun page =>
      silent_get.bind fun state => weaves_last ?_).congr (by simp)
  have window : allShown ((page.map Page.exprs).getD []) =
      page.toList.flatMap fun page => allShown page.exprs := by
    cases page <;> simp
  rw [Select.placeholders_inside]
  simp only [Fragment.inside, Select.exprs, Projection.itemList, List.flatMap_map, List.map_append,
    List.flatMap_append, List.map_map, Function.comp_def, allShown_withSideTables, added, window,
    List.nil_append, List.append_assoc]

end Lowering

end TabularSql
