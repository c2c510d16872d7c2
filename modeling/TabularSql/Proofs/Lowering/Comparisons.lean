import TabularSql.Proofs.Lowering.Parameters
import TabularSql.Proofs.Lowering.Statements

/-!
# Literals in comparisons

A literal of a condition is bound as a value of the type that it is compared with. The type is worked out where
the comparison stands and handed down to its operands, through parentheses; AND, OR and NOT hand down nothing.
So whatever stands around a comparison of a column with literals, the literals are read as values of the type
of the column.
-/

namespace TabularSql

set_option autoImplicit false

/-! ## Conditions on columns -/

namespace Expr

/-- A number or a string, in any number of parentheses. -/
inductive IsValue : Expr → Prop where
  | number (digits : String) : IsValue (.literal (.number digits))
  | string (value : String) : IsValue (.literal (.string value))
  | nested {inner : Expr} (value : IsValue inner) : IsValue (.nested inner)

/-- A column of the type, in any number of parentheses. -/
inductive IsColumn (binding : Binding) (type : ColumnType) : Expr → Prop where
  | column {reference : ColumnRef} {resolved : ResolvedColumn}
      (found : binding.resolve reference = .ok (some resolved)) (typed : resolved.type = type) :
      IsColumn binding type (.column reference)
  | nested {inner : Expr} (column : IsColumn binding type inner) : IsColumn binding type (.nested inner)

/-- A condition that compares columns with values: by an operator or LIKE in either order, by BETWEEN or IN, or
element by element by HAS or HAS_LIKE. Such conditions are combined by AND, OR, NOT and parentheses. -/
inductive Compares (binding : Binding) : Expr → Prop where
  | comparison {operator : BinaryOperator} {left right : Expr} {type : ColumnType}
      (compares : operator.isComparison = true) (column : IsColumn binding type left) (value : IsValue right) :
      Compares binding (.binary operator left right)
  | reversed {operator : BinaryOperator} {left right : Expr} {type : ColumnType}
      (compares : operator.isComparison = true) (value : IsValue left) (column : IsColumn binding type right) :
      Compares binding (.binary operator left right)
  | between (negated : Bool) {tested low high : Expr} {type : ColumnType} (column : IsColumn binding type tested)
      (lowest : IsValue low) (highest : IsValue high) : Compares binding (.between tested low high negated)
  | inList (negated : Bool) {tested : Expr} {values : List Expr} {type : ColumnType}
      (column : IsColumn binding type tested) (each : ∀ value ∈ values, IsValue value) :
      Compares binding (.inList tested values negated)
  | like (negated : Bool) {tested pattern : Expr} {escape : Option Expr} {type : ColumnType}
      (column : IsColumn binding type tested) (value : IsValue pattern) (sign : ∀ value ∈ escape, IsValue value) :
      Compares binding (.like tested pattern escape negated)
  | likeReversed (negated : Bool) {tested pattern : Expr} {escape : Option Expr} {type : ColumnType}
      (value : IsValue tested) (column : IsColumn binding type pattern) (sign : ∀ value ∈ escape, IsValue value) :
      Compares binding (.like tested pattern escape negated)
  | has (pattern negated : Bool) (reference : ColumnRef) {values : List Expr}
      (each : ∀ value ∈ values, IsValue value) :
      Compares binding (.has (.column reference) values pattern negated)
  | and {left right : Expr} (one : Compares binding left) (two : Compares binding right) :
      Compares binding (.and left right)
  | or {left right : Expr} (one : Compares binding left) (two : Compares binding right) :
      Compares binding (.or left right)
  | not {operand : Expr} (own : Compares binding operand) : Compares binding (.negation operand)
  | nested {inner : Expr} (own : Compares binding inner) : Compares binding (.nested inner)

/-- In the place of the value stands the placeholder of what its text is when it is read as the type. -/
inductive BoundTo (parameters : Parameters) (type : ColumnType) : Expr → Expr → Prop where
  | number {digits name : String} (bound : parameters.get? name = some (.read type digits)) :
      BoundTo parameters type (.literal (.number digits)) (.parameter name)
  | string {value name : String} (bound : parameters.get? name = some (.read type value)) :
      BoundTo parameters type (.literal (.string value)) (.parameter name)
  | nested {inner lowered : Expr} (own : BoundTo parameters type inner lowered) :
      BoundTo parameters type (.nested inner) (.nested lowered)

/-- In the place of the column stands the column of the store. -/
inductive ReadFrom (binding : Binding) (type : ColumnType) : Expr → Expr → Prop where
  | column {reference : ColumnRef} {resolved : ResolvedColumn}
      (found : binding.resolve reference = .ok (some resolved)) (typed : resolved.type = type) :
      ReadFrom binding type (.column reference) (.column resolved.physical)
  | nested {inner lowered : Expr} (own : ReadFrom binding type inner lowered) :
      ReadFrom binding type (.nested inner) (.nested lowered)

/-- The condition over the store: each value is bound as one of the type of the column that it is compared
with, and behind HAS as one of the type of which the column holds lists. The sign behind ESCAPE is compared with
no column and is bound as a string. -/
inductive ComparesTyped (scope : Scope) (parameters : Parameters) : Expr → Expr → Prop where
  | comparison {operator : BinaryOperator} {left right first second : Expr} {type : ColumnType}
      (column : ReadFrom scope.binding type left first) (value : BoundTo parameters type right second) :
      ComparesTyped scope parameters (.binary operator left right) (.binary operator first second)
  | reversed {operator : BinaryOperator} {left right first second : Expr} {type : ColumnType}
      (value : BoundTo parameters type left first) (column : ReadFrom scope.binding type right second) :
      ComparesTyped scope parameters (.binary operator left right) (.binary operator first second)
  | between (negated : Bool) {tested low high first second third : Expr} {type : ColumnType}
      (column : ReadFrom scope.binding type tested first) (lowest : BoundTo parameters type low second)
      (highest : BoundTo parameters type high third) :
      ComparesTyped scope parameters (.between tested low high negated) (.between first second third negated)
  | inList (negated : Bool) {tested first : Expr} {values lowered : List Expr} {type : ColumnType}
      (column : ReadFrom scope.binding type tested first)
      (each : List.Forall₂ (BoundTo parameters type) values lowered) :
      ComparesTyped scope parameters (.inList tested values negated) (.inList first lowered negated)
  | like (negated : Bool) {tested pattern first second : Expr} {escape third : Option Expr} {type : ColumnType}
      (column : ReadFrom scope.binding type tested first) (value : BoundTo parameters type pattern second)
      (sign : Option.Rel (BoundTo parameters .string) escape third) :
      ComparesTyped scope parameters (.like tested pattern escape negated) (.like first second third negated)
  | likeReversed (negated : Bool) {tested pattern first second : Expr} {escape third : Option Expr}
      {type : ColumnType} (value : BoundTo parameters type tested first)
      (column : ReadFrom scope.binding type pattern second)
      (sign : Option.Rel (BoundTo parameters .string) escape third) :
      ComparesTyped scope parameters (.like tested pattern escape negated) (.like first second third negated)
  | has (negated : Bool) {reference : ColumnRef} {pattern : Bool} {resolved : ResolvedColumn}
      {stored : BoundColumn} {type : ColumnType} {values lowered : List Expr} {condition : Expr}
      (found : scope.binding.resolve reference = .ok (some resolved)) (target : resolved.target = .stored stored)
      (elements : type.listOf? = some stored.model.type)
      (each : List.Forall₂ (BoundTo parameters type) values lowered)
      (matched : ListColumn.matching ⟨resolved.table.id, resolved.qualifier, stored.id, type⟩ pattern lowered =
        .ok condition) :
      ComparesTyped scope parameters (.has (.column reference) values pattern negated)
        (ListColumn.rowsWith ⟨resolved.table.id, resolved.qualifier, stored.id, type⟩ condition negated)
  | and {left right first second : Expr} (one : ComparesTyped scope parameters left first)
      (two : ComparesTyped scope parameters right second) :
      ComparesTyped scope parameters (.and left right) (.and first second)
  | or {left right first second : Expr} (one : ComparesTyped scope parameters left first)
      (two : ComparesTyped scope parameters right second) :
      ComparesTyped scope parameters (.or left right) (.or first second)
  | not {operand lowered : Expr} (own : ComparesTyped scope parameters operand lowered) :
      ComparesTyped scope parameters (.negation operand) (.negation lowered)
  | nested {inner lowered : Expr} (own : ComparesTyped scope parameters inner lowered) :
      ComparesTyped scope parameters (.nested inner) (.nested lowered)

theorem IsColumn.infer {binding : Binding} {type : ColumnType} {whole : Expr}
    (column : IsColumn binding type whole) (schemas : Schemas) : whole.infer schemas binding = some type := by
  induction column with
  | column found typed => rw [Expr.infer, Binding.resolve?, found, Option.map_some, typed]
  | nested _ ih => rw [Expr.infer, ih]

end Expr

/-! ## Bound values -/

/-- The value at a position is the one of its placeholder. -/
theorem Parameters.get?_placeholder {parameters : Parameters} {index : Nat} {value : ParameterValue}
    (found : parameters.values[index]? = some value) :
    parameters.get? (placeholderName index) = some value := by
  suffices general : ∀ (values : List ParameterValue) (start index : Nat), values[index]? = some value →
      ((values.zipIdx start).map fun entry => (placeholderName entry.2, entry.1)).lookup
        (placeholderName (start + index)) = some value by
    have own := general parameters.values 0 index found
    rwa [Nat.zero_add] at own
  intro values
  induction values with
  | nil => simp
  | cons first rest ih =>
    intro start index found
    rw [List.zipIdx_cons, List.map_cons]
    cases index with
    | zero =>
      rw [List.getElem?_cons_zero] at found
      rw [Nat.add_zero, List.lookup_cons_self, found]
    | succ index =>
      have other : (placeholderName (start + (index + 1)) == placeholderName start) = false := by
        rw [beq_eq_false_iff_ne]
        intro same
        have := placeholderName_injective same
        omega
      rw [List.lookup_cons, other]
      have behind := ih (start + 1) index found
      rwa [Nat.add_right_comm, Nat.add_assoc] at behind

namespace Lowering

variable {α β : Type}

/-- The step only adds bound values, and its value has a property that no value bound later takes away. -/
def Settles (step : Lowering α) (property : Parameters → α → Prop) : Prop :=
  ∀ state value after, step.run state = (.ok value, after) →
    state.context.parameters.values <+: after.context.parameters.values ∧
      ∀ parameters : Parameters, after.context.parameters.values <+: parameters.values →
        property parameters value

theorem settles_pure {value : α} {property : Parameters → α → Prop}
    (holds : ∀ parameters, property parameters value) : Settles (pure value) property := by
  intro state result after ran
  obtain ⟨rfl, rfl⟩ := run_pure ran
  exact ⟨List.prefix_rfl, fun parameters _ => holds parameters⟩

theorem settles_lift {given : Except CompileError α} {property : Parameters → α → Prop}
    (holds : ∀ value, given = .ok value → ∀ parameters, property parameters value) :
    Settles (lift given) property := by
  intro state value after ran
  obtain ⟨same, rfl⟩ := run_lift ran
  exact ⟨List.prefix_rfl, fun parameters _ => holds value same parameters⟩

theorem settles_bind {step : Lowering α} {next : α → Lowering β} {between : Parameters → α → Prop}
    {property : Parameters → β → Prop} (first : Settles step between)
    (second : ∀ value, Settles (next value) fun parameters result =>
      between parameters value → property parameters result) : Settles (step >>= next) property := by
  intro state result after ran
  obtain ⟨value, middle, ran_first, ran_second⟩ := run_bind ran
  obtain ⟨front, holds⟩ := first state value middle ran_first
  obtain ⟨behind, rest⟩ := second value middle result after ran_second
  exact ⟨front.trans behind, fun parameters later =>
    rest parameters later (holds parameters (behind.trans later))⟩

theorem settles_bound (value : ParameterValue) :
    Settles (bind value) fun parameters lowered =>
      ∃ name, lowered = .parameter name ∧ parameters.get? name = some value := by
  intro state lowered after ran
  cases ran
  refine ⟨List.prefix_append _ _, fun parameters later => ⟨_, rfl, ?_⟩⟩
  obtain ⟨rest, same⟩ := later
  apply Parameters.get?_placeholder
  rw [← same]
  simp

section

variable {scope : Scope}

theorem settles_value {type : ColumnType} {whole : Expr} (value : whole.IsValue) :
    Settles (whole.lower scope (.condition (some type))) fun parameters lowered =>
      Expr.BoundTo parameters type whole lowered := by
  induction value with
  | number digits =>
    intro state lowered after ran
    obtain ⟨grows, bound⟩ := settles_bound (.read type digits) state lowered after ran
    refine ⟨grows, fun parameters later => ?_⟩
    obtain ⟨name, rfl, given⟩ := bound parameters later
    exact .number given
  | string text =>
    intro state lowered after ran
    obtain ⟨grows, bound⟩ := settles_bound (.read type text) state lowered after ran
    refine ⟨grows, fun parameters later => ?_⟩
    obtain ⟨name, rfl, given⟩ := bound parameters later
    exact .string given
  | nested _ ih => exact settles_bind ih fun lowered => settles_pure fun parameters own => .nested own

theorem settles_values {type : ColumnType} {values : List Expr} (each : ∀ value ∈ values, value.IsValue) :
    Settles (Expr.lowerAll scope (.condition (some type)) values) fun parameters lowered =>
      List.Forall₂ (Expr.BoundTo parameters type) values lowered := by
  induction values with
  | nil => exact settles_pure fun _ => .nil
  | cons value values ih =>
    obtain ⟨own, others⟩ := List.forall_mem_cons.mp each
    apply settles_bind (settles_value own)
    intro first
    apply settles_bind (ih others)
    intro rest
    exact settles_pure fun parameters behind front => .cons front behind

theorem settles_sign {escape : Option Expr} (sign : ∀ value ∈ escape, value.IsValue) :
    Settles (Expr.lowerOption scope (.condition (some .string)) escape) fun parameters lowered =>
      Option.Rel (Expr.BoundTo parameters .string) escape lowered := by
  cases escape with
  | none => exact settles_pure fun _ => .none
  | some value =>
    apply settles_bind (settles_value (sign value rfl))
    intro lowered
    exact settles_pure fun parameters own => .some own

theorem settles_column {type : ColumnType} {hint : Option ColumnType} {whole : Expr}
    (column : whole.IsColumn scope.binding type) :
    Settles (whole.lower scope (.condition hint)) fun _ lowered =>
      Expr.ReadFrom scope.binding type whole lowered := by
  induction column with
  | @column reference resolved found typed =>
    apply settles_lift
    intro lowered ok _
    obtain ⟨known, resolves, rest⟩ := Except.of_bind ok
    cases found.symm.trans resolves
    have physical : lowered = .column resolved.physical := by
      simp only at rest
      split at rest
      · simp only [Bool.false_and, reduceCtorEq, decide_false] at rest
        cases rest
        rfl
      · cases rest
        rfl
    rw [physical]
    exact .column found typed
  | nested _ ih => exact settles_bind ih fun lowered => settles_pure fun parameters own => .nested own

/-- Whatever is handed down to a condition, its literals are bound as values of the types of their columns. -/
theorem settles_condition {whole : Expr} (compares : whole.Compares scope.binding) (hint : Option ColumnType) :
    Settles (whole.lower scope (.condition hint)) fun parameters lowered =>
      whole.ComparesTyped scope parameters lowered := by
  have logical {operator : BinaryOperator} (compares : operator.isComparison = true) :
      operator.isLogical = false := by
    cases operator <;> first | rfl | cases compares
  induction compares generalizing hint with
  | comparison compares column value =>
    simp only [Expr.lower, Position.comparedWith, logical compares, column.infer, Bool.false_eq_true, if_false]
    apply settles_bind (settles_column column)
    intro first
    apply settles_bind (settles_value value)
    intro second
    exact settles_pure fun parameters bound reads => .comparison reads bound
  | reversed compares value column =>
    simp only [Expr.lower, Position.comparedWith, logical compares, column.infer, Bool.false_eq_true, if_false]
    apply settles_bind (settles_value value)
    intro first
    apply settles_bind (settles_column column)
    intro second
    exact settles_pure fun parameters reads bound => .reversed bound reads
  | between negated column lowest highest =>
    simp only [Expr.lower, Position.comparedWith, column.infer]
    apply settles_bind (settles_column column)
    intro first
    apply settles_bind (settles_value lowest)
    intro second
    apply settles_bind (settles_value highest)
    intro third
    exact settles_pure fun parameters high low reads => .between negated reads low high
  | inList negated column each =>
    simp only [Expr.lower, Position.comparedWith, column.infer]
    apply settles_bind (settles_column column)
    intro first
    apply settles_bind (settles_values each)
    intro lowered
    exact settles_pure fun parameters bound reads => .inList negated reads bound
  | like negated column value sign =>
    simp only [Expr.lower, Position.comparedWith, column.infer]
    apply settles_bind (settles_column column)
    intro first
    apply settles_bind (settles_value value)
    intro second
    apply settles_bind (settles_sign sign)
    intro third
    exact settles_pure fun parameters escape bound reads => .like negated reads bound escape
  | likeReversed negated value column sign =>
    simp only [Expr.lower, Position.comparedWith, column.infer]
    apply settles_bind (settles_value value)
    intro first
    apply settles_bind (settles_column column)
    intro second
    apply settles_bind (settles_sign sign)
    intro third
    exact settles_pure fun parameters escape reads bound => .likeReversed negated bound reads escape
  | has pattern negated reference each =>
    apply settles_bind (settles_lift fun column listed _ => listed)
    intro column
    apply settles_bind (settles_values each)
    intro lowered
    apply settles_bind (settles_lift fun condition matched _ => matched)
    intro condition
    refine settles_pure fun parameters matched bound listed => ?_
    obtain ⟨resolved, stored, found, target, list, rfl⟩ := ColumnRef.listColumn_of_ok listed
    exact .has negated found target (ColumnType.listOf?_element list) bound matched
  | and _ _ first second =>
    apply settles_bind (first none)
    intro left
    apply settles_bind (second none)
    intro right
    exact settles_pure fun parameters two one => .and one two
  | or _ _ first second =>
    apply settles_bind (first none)
    intro left
    apply settles_bind (second none)
    intro right
    exact settles_pure fun parameters two one => .or one two
  | not _ ih => exact settles_bind (ih none) fun lowered => settles_pure fun parameters own => .not own
  | nested _ ih => exact settles_bind (ih hint) fun lowered => settles_pure fun parameters own => .nested own

/-- The literals of a condition. In a condition that compares columns with literals, combined in any way, each
literal is lowered to a placeholder for its text read as a value of the type of its column, or of the elements
of its list. Neither what is handed down to the condition nor what was bound before makes a difference, and
what is bound later does not change it. -/
theorem literals_read_as_columns (scope : Scope) (condition : Expr) (hint : Option ColumnType) (lowered : Expr)
    (state after : LoweringState) (compares : condition.Compares scope.binding)
    (lowers : (condition.lower scope (.condition hint)).run state = (.ok lowered, after)) :
    ∀ parameters : Parameters, after.context.parameters.values <+: parameters.values →
      condition.ComparesTyped scope parameters lowered :=
  (settles_condition compares hint state lowered after lowers).2

end

/-- A table with a name, a list of tags, a weight and a list of counts. -/
def weighedScope : Scope where
  schemas := Compiler.weighedCompiler.schemas
  binding := ⟨[{
    id := ⟨2, none⟩
    written := "syn2"
    alias? := none
    correlation := none
    columns := [⟨11, { id := some 11, name := "name", type := .string }⟩,
      ⟨12, { id := some 12, name := "tags", type := .stringList }⟩,
      ⟨13, { id := some 13, name := "weight", type := .double }⟩,
      ⟨14, { id := some 14, name := "counts", type := .integerList }⟩] }]⟩

/-- `NOT ( '2.5' < ( weight ) OR name IN ( 3, 'x' ) OR tags HAS ( 5 ) ) AND counts NOT HAS ( 5, ( '6' ) )` -/
def weighedCondition : Expr :=
  .and
    (.negation (.nested (.or
      (.or (.binary .less (.string "2.5") (.nested (.named "weight")))
        (.inList (.named "name") [.literal (.number "3"), .string "x"] false))
      (.has (.named "tags") [.literal (.number "5")] false false))))
    (.has (.named "counts") [.literal (.number "5"), .nested (.string "6")] false true)

def weighedConditionText : String :=
  "NOT ( :b0 < ( _C13_ ) OR _C11_ IN ( :b1, :b2 ) OR " ++
    "ROW_ID IN ( SELECT ROW_ID_REF_C12_ FROM T2_INDEX_C12_ WHERE _C12__UNNEST IN ( :b3 ) ) ) AND " ++
    "ROW_ID NOT IN ( SELECT ROW_ID_REF_C14_ FROM T2_INDEX_C14_ WHERE _C14__UNNEST IN ( :b4, ( :b5 ) ) )"

/-- The same literal is a string among the tags and a number among the counts. -/
theorem literals_read_as_columns_weighed :
    ∃ lowered after,
      (weighedCondition.lower weighedScope (.condition none)).run { context := Compiler.weighedCompiler.start } =
        (.ok lowered, after) ∧
      lowered.text = weighedConditionText ∧
      after.context.parameters.values =
        [.double ⟨0x4004000000000000⟩, .string "3", .string "x", .string "5", .integer 5, .integer 6] ∧
      weighedCondition.ComparesTyped weighedScope after.context.parameters lowered := by
  have shown : ((weighedCondition.lower weighedScope (.condition none)).run
      { context := Compiler.weighedCompiler.start }).map (fun result => result.toOption.map Expr.text)
        (fun after => after.context.parameters.values) =
        (some weighedConditionText,
          [.double ⟨0x4004000000000000⟩, .string "3", .string "x", .string "5", .integer 5, .integer 6]) := by
    decide +kernel
  rcases ran : (weighedCondition.lower weighedScope (.condition none)).run
    { context := Compiler.weighedCompiler.start } with ⟨result, after⟩
  rw [ran] at shown
  obtain ⟨written, values⟩ := Prod.mk.inj shown
  obtain ⟨lowered, rfl, text⟩ := Except.of_shown written
  have compares : weighedCondition.Compares weighedScope.binding := by
    refine .and (.not (.nested (.or (.or ?_ ?_) (.has _ _ _ ?_)))) (.has _ _ _ ?_)
    · exact .reversed rfl (.string _) (.nested (.column rfl rfl))
    · exact .inList _ (.column rfl rfl) (by simpa using ⟨.number _, .string _⟩)
    · simpa using .number _
    · simpa using ⟨.number _, .nested (.string _)⟩
  exact ⟨lowered, after, rfl, text, values, literals_read_as_columns weighedScope weighedCondition none lowered _
    after compares ran _ List.prefix_rfl⟩

end Lowering

end TabularSql
