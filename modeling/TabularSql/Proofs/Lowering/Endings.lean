import TabularSql.Proofs.Lowering.Plans

/-!
# How lowering ends

The placeholders and the side tables that lowering gives depend on what was bound and noted before. Whether it
fails, and with which error, does not: a step that succeeds from one state succeeds from all of them. So a
select may be given another condition, and whether it can still be lowered is decided by that condition alone.
-/

namespace TabularSql

set_option autoImplicit false

namespace Lowering

variable {α β γ δ : Type} {step : Lowering α} {next : α → Lowering β} {related : α → β → Prop}
  {outcome : Except CompileError Unit}

/-- From whatever states, both steps fail with the same error or both succeed with related values. -/
def Agrees (related : α → β → Prop) (one : Lowering α) (two : Lowering β) : Prop :=
  ∀ first second, Except.Agree related (one.run first).1 (two.run second).1

/-- The step ends in the same way from all states. -/
def Steady (step : Lowering α) : Prop := Agrees (fun _ _ => True) step step

/-- The step ends in the given way from all states. -/
def Ends (step : Lowering α) (outcome : Except CompileError Unit) : Prop :=
  ∀ state, (step.run state).1.map (fun _ => ()) = outcome

theorem agrees_pure {left : α} {right : β} (own : related left right) :
    Agrees related (pure left) (pure right) :=
  fun _ _ => .ok own

theorem agrees_lift {one : Except CompileError α} {two : Except CompileError β}
    (agree : Except.Agree related one two) : Agrees related (lift one) (lift two) := by
  cases agree with
  | error problem => exact fun _ _ => .error problem
  | ok results => exact agrees_pure results

theorem agrees_bind {between : α → β → Prop} {related : γ → δ → Prop} {one : Lowering α} {two : Lowering β}
    {next : α → Lowering γ} {other : β → Lowering δ} (first : Agrees between one two)
    (second : ∀ left right, between left right → Agrees related (next left) (other right)) :
    Agrees related (one >>= next) (two >>= other) := by
  intro state start
  rw [run_bind_eq, run_bind_eq]
  have own := first state start
  revert own
  rcases one.run state with ⟨left, after⟩
  rcases two.run start with ⟨right, stop⟩
  intro own
  cases (show Except.Agree between left right from own) with
  | error problem => exact .error problem
  | ok results => exact second _ _ results after stop

theorem agrees_mapM {related : β → γ → Prop} {step : α → Lowering β} {other : α → Lowering γ}
    {items : List α} (each : ∀ item ∈ items, Agrees related (step item) (other item)) :
    Agrees (List.Forall₂ related) (items.mapM step) (items.mapM other) := by
  induction items with
  | nil => exact agrees_pure .nil
  | cons item items ih =>
    rw [List.mapM_cons, List.mapM_cons]
    apply agrees_bind (each item List.mem_cons_self)
    intro first second heads
    apply agrees_bind (ih fun other member => each other (List.mem_cons_of_mem _ member))
    intro rest behind tails
    exact agrees_pure (.cons heads tails)

theorem Agrees.anyhow {one : Lowering α} {two : Lowering β} (agrees : Agrees related one two) :
    Agrees (fun _ _ => True) one two :=
  fun first second => (agrees first second).mono fun _ _ _ => trivial

/-! ## Steady steps -/

theorem steady_pure (value : α) : Steady (pure value) :=
  agrees_pure trivial

theorem steady_throw (problem : CompileError) : Steady (throw problem : Lowering α) :=
  fun _ _ => .error problem

theorem steady_lift (given : Except CompileError α) : Steady (lift given) :=
  agrees_lift (.refl (fun _ => trivial) given)

theorem steady_bound (value : ParameterValue) : Steady (bind value) :=
  fun _ _ => .ok trivial

theorem steady_modify (change : LoweringState → LoweringState) : Steady (modify change) :=
  fun _ _ => .ok trivial

theorem steady_bind (first : Steady step)
    (second : ∀ left right, Agrees (fun _ _ => True) (next left) (next right)) :
    Steady (step >>= next) :=
  agrees_bind first fun left right _ => second left right

theorem steady_map (change : α → β) (first : Steady step) :
    Steady (step >>= fun value => pure (change value)) :=
  steady_bind first fun _ _ => agrees_pure trivial

theorem steady_mapM {step : α → Lowering β} {items : List α} (each : ∀ item ∈ items, Steady (step item)) :
    Steady (items.mapM step) :=
  (agrees_mapM each).anyhow

theorem steady_optional {step : α → Lowering β} {optional : Option α}
    (each : ∀ item ∈ optional, Steady (step item)) : Steady (optional.mapM step) := by
  cases optional with
  | none => exact steady_pure _
  | some item =>
    show Steady (some <$> step item)
    rw [map_eq_pure_bind]
    exact steady_map some (each item rfl)

theorem Steady.ends {value : α} {state after : LoweringState} (steady : Steady step)
    (ran : step.run state = (.ok value, after)) : Ends step (.ok ()) := by
  intro first
  have own := steady first state
  rw [ran] at own
  obtain ⟨other, same, _⟩ := own.symm.of_ok rfl
  rw [same]
  rfl

/-! ## Steps with a known end -/

theorem ends_pure (value : α) : Ends (pure value) (.ok ()) :=
  fun _ => rfl

theorem ends_modify (change : LoweringState → LoweringState) : Ends (modify change) (.ok ()) :=
  fun _ => rfl

theorem ends_bound (value : ParameterValue) : Ends (bind value) (.ok ()) :=
  fun _ => rfl

theorem ends_lift (given : Except CompileError α) : Ends (lift given) (given.map fun _ => ()) := by
  cases given <;> exact fun _ => rfl

theorem ends_bind {one two : Except CompileError Unit} (first : Ends step one)
    (second : ∀ value, Ends (next value) two) : Ends (step >>= next) (one >>= fun _ => two) := by
  intro state
  rw [run_bind_eq, ← first state]
  rcases step.run state with ⟨problem | value, between⟩
  · rfl
  · exact second value between

theorem ends_behind (first : Ends step (.ok ())) (second : ∀ value, Ends (next value) outcome) :
    Ends (step >>= next) outcome :=
  ends_bind first second

theorem ends_before (first : Ends step outcome) (second : ∀ value, Ends (next value) (.ok ())) :
    Ends (step >>= next) outcome := by
  have whole := ends_bind first second
  cases outcome with
  | error problem => exact whole
  | ok value => exact whole

theorem ends_lifted {given : Except CompileError α} {value : α} (ok : given = .ok value)
    (second : Ends (next value) outcome) : Ends (lift given >>= next) outcome := by
  rw [ok]
  exact second

theorem Ends.of_map {change : α → β} (ends : Ends (step >>= fun value => pure (change value)) outcome) :
    Ends step outcome := by
  intro state
  rw [← ends state, run_bind_eq]
  rcases step.run state with ⟨problem | value, between⟩ <;> rfl

theorem ends_mapM {step : α → Lowering β} {items : List α} (each : ∀ item ∈ items, Ends (step item) (.ok ())) :
    Ends (items.mapM step) (.ok ()) := by
  induction items with
  | nil => exact ends_pure _
  | cons item items ih =>
    rw [List.mapM_cons]
    apply ends_behind (each item List.mem_cons_self)
    intro first
    apply ends_behind (ih fun other member => each other (List.mem_cons_of_mem _ member))
    intro rest
    exact ends_pure _

end Lowering

/-! ## Expressions -/

namespace Lowering

variable {scope : Scope}

theorem steady_literal (position : Position) (literal : Literal) : Steady (literal.lower position) := by
  unfold Literal.lower
  split
  · split
    · exact steady_bound _
    · exact steady_pure _
  · exact steady_pure _

theorem steady_currentUser (position : Position) : Steady (Expr.currentUser.lower scope position) := by
  rw [Expr.lower]
  intro first second
  show Except.Agree _ _ _
  cases position.isCondition <;> exact .ok trivial

theorem agrees_lowerAll {position : Position} {list : List Expr}
    (each : ∀ expr ∈ list, Steady (expr.lower scope position)) :
    Agrees (fun left right => left.length = right.length) (Expr.lowerAll scope position list)
      (Expr.lowerAll scope position list) := by
  rw [Expr.lowerAll_eq_mapM]
  exact fun first second => (agrees_mapM each first second).mono fun _ _ pairs => pairs.length_eq

theorem steady_lowerAll {position : Position} {list : List Expr}
    (each : ∀ expr ∈ list, Steady (expr.lower scope position)) :
    Steady (Expr.lowerAll scope position list) :=
  (agrees_lowerAll each).anyhow

theorem steady_lowerOption {position : Position} {optional : Option Expr}
    (each : ∀ expr ∈ optional, Steady (expr.lower scope position)) :
    Steady (Expr.lowerOption scope position optional) := by
  rw [Expr.lowerOption_eq_mapM]
  exact steady_optional each

theorem steady_lowerBranches {tested result : Position} {branches : List (Expr × Expr)}
    (each : ∀ branch ∈ branches, Steady (branch.1.lower scope tested) ∧
      Steady (branch.2.lower scope result)) :
    Steady (Expr.lowerBranches scope tested result branches) := by
  rw [Expr.lowerBranches_eq_mapM]
  refine steady_mapM fun branch member => ?_
  obtain ⟨first, second⟩ := each branch member
  exact steady_bind first fun _ _ => agrees_bind second fun _ _ _ => agrees_pure trivial

/-- A pattern needs at least one value, whichever it is. -/
theorem agree_matching (column : ListColumn) (pattern : Bool) {left right : List Expr}
    (same : left.length = right.length) :
    Except.Agree (fun _ _ => True) (column.matching pattern left) (column.matching pattern right) := by
  unfold ListColumn.matching
  split
  · cases left with
    | nil =>
      obtain rfl : right = [] := List.length_eq_zero_iff.mp same.symm
      exact .error _
    | cons first rest =>
      cases right with
      | nil => cases same
      | cons other behind => exact .ok trivial
  · exact .ok trivial

theorem steady_lower_of_inside {whole : Expr} (each : ∀ part, .expr part ∈ whole.inside →
    ∀ position, Steady (part.lower scope position)) (position : Position) :
    Steady (whole.lower scope position) := by
  cases whole with
  | literal value => exact steady_literal position value
  | column reference => exact steady_lift _
  | parameter name => exact steady_pure _
  | wildcard => exact steady_pure _
  | currentUser => exact steady_currentUser position
  | call name distinct arguments =>
    exact steady_map _ (steady_lowerAll fun expr member => each expr (by simpa) _)
  | cast operand target =>
    apply steady_bind (each operand (by simp) _)
    intro _ _
    exact agrees_bind (steady_lift _) fun _ _ _ => agrees_pure trivial
  | caseWhen operand branches otherwise =>
    apply steady_bind
    · exact steady_lowerOption fun expr given => each expr (by cases given; simp) _
    intro _ _
    apply agrees_bind
    · apply steady_lowerBranches
      intro branch member
      exact ⟨each _ (Expr.condition_inside member) _, each _ (Expr.result_inside member) _⟩
    intro _ _ _
    apply agrees_bind
    · exact steady_lowerOption fun expr given => each expr (by cases given; simp) _
    intro _ _ _
    exact agrees_pure trivial
  | binary operator left right =>
    apply steady_bind (each left (by simp) _)
    intro _ _
    apply agrees_bind (each right (by simp) _)
    intro _ _ _
    exact agrees_pure trivial
  | unary operator operand | nested operand | isNull operand _ | isTruth operand _ _ =>
    exact steady_map _ (each operand (by simp) _)
  | between tested low high negated =>
    apply steady_bind (each tested (by simp) _)
    intro _ _
    apply agrees_bind (each low (by simp) _)
    intro _ _ _
    apply agrees_bind (each high (by simp) _)
    intro _ _ _
    exact agrees_pure trivial
  | inList tested candidates negated =>
    apply steady_bind (each tested (by simp) _)
    intro _ _
    apply agrees_bind (steady_lowerAll fun expr member => each expr (by simp [member]) _)
    intro _ _ _
    exact agrees_pure trivial
  | inQuery tested candidates negated => exact steady_throw _
  | like tested pattern escape negated =>
    apply steady_bind (each tested (by simp) _)
    intro _ _
    apply agrees_bind (each pattern (by simp) _)
    intro _ _ _
    apply agrees_bind
    · exact steady_lowerOption fun expr given => each expr (by cases given; simp) _
    intro _ _ _
    exact agrees_pure trivial
  | has tested values pattern negated =>
    apply agrees_bind (agrees_lift (.refl (fun _ => rfl) _))
    rintro column _ rfl
    apply agrees_bind (agrees_lowerAll fun expr member => each expr (by simp [member]) _)
    intro left right same
    apply agrees_bind (agrees_lift (agree_matching column pattern same))
    intro _ _ _
    exact agrees_pure trivial
  | doubleTest test reference => exact steady_lift _
  | textMatches text | matchAgainst text =>
    apply steady_bind (each text (by simp) _)
    intro _ _
    apply agrees_bind (steady_modify _)
    intro _ _ _
    exact agrees_pure trivial
  | unnest reference =>
    apply agrees_bind (agrees_lift (.refl (fun _ => rfl) _))
    rintro column _ rfl
    apply agrees_bind (steady_modify _)
    intro _ _ _
    exact agrees_pure trivial

theorem steady_lower (scope : Scope) (position : Position) (whole : Expr) :
    Steady (whole.lower scope position) := by
  induction whole using Fragment.expr_induction generalizing position with
  | step whole ih => exact steady_lower_of_inside (fun part member position => ih part member position) position

/-! ## Selects -/

theorem steady_conditions (scope : Scope) (source : Source) : Steady (source.lowerConditions scope) := by
  match source with
  | .table only => exact steady_pure _
  | .join left kind right condition =>
    apply steady_bind (steady_conditions scope left)
    intro _ _
    exact agrees_bind (steady_lower scope _ condition) fun _ _ _ => agrees_pure trivial

theorem steady_page (page : Page) : Steady page.lower := by
  have count (expr : Expr) : Steady (Page.lowerCount expr) := by
    apply agrees_bind (agrees_lift (.refl (fun _ => rfl) _))
    rintro number _ rfl
    exact steady_bound _
  apply steady_bind (count _)
  intro _ _
  exact agrees_bind (steady_optional fun expr _ => count expr) fun _ _ _ => agrees_pure trivial

end Lowering

namespace Select

open Lowering

/-- A part that is lowered, its condition replaced by another one: it ends as that condition does. -/
theorem ends_refiltered {schemas : Schemas} {guardsDoubles : Bool} {metadata : List RowMetadata}
    {binding : Binding} {part : Select} {result : Select × Bool} {state after : LoweringState}
    (ran : (part.lower schemas guardsDoubles metadata binding).run state = (.ok result, after)) :
    let scope : Scope := { schemas, binding, guardsDoubles, aliases := part.aliases }
    Ends (Expr.lowerOption scope (.condition none) part.filter) (.ok ()) ∧
      ∀ filter outcome, Ends (Expr.lowerOption scope (.condition none) filter) outcome →
        Ends ({ part with filter }.lower schemas guardsDoubles metadata binding) outcome := by
  intro scope
  obtain ⟨_, _, _, ran⟩ := run_bind ran
  obtain ⟨_, _, ran_items, ran⟩ := run_bind ran
  obtain ⟨_, _, ran_source, ran⟩ := run_bind ran
  obtain ⟨_, _, ran_filter, ran⟩ := run_bind ran
  obtain ⟨_, _, ran_groups, ran⟩ := run_bind ran
  obtain ⟨_, _, ran_keys, ran⟩ := run_bind ran
  obtain ⟨_, _, ran_page, _⟩ := run_bind ran
  refine ⟨(steady_lowerOption fun expr _ => steady_lower _ _ expr).ends ran_filter, fun filter outcome ends => ?_⟩
  apply ends_behind (ends_modify _)
  intro _
  apply ends_behind ((steady_mapM fun item _ => steady_map _ (steady_lower _ _ item.expr)).ends ran_items)
  intro _
  apply ends_behind ((steady_conditions _ _).ends ran_source)
  intro _
  apply ends_before ends
  intro _
  apply ends_behind ((steady_lowerAll fun expr _ => steady_lower _ _ expr).ends ran_groups)
  intro _
  apply ends_behind ((steady_mapM fun key _ => steady_map _ (steady_lower _ _ key.expr)).ends ran_keys)
  intro _
  apply ends_behind ((steady_optional fun page _ => steady_page page).ends ran_page)
  intro _
  exact fun _ => rfl

end Select

end TabularSql
