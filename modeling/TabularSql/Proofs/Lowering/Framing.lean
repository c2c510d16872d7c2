import TabularSql.Proofs.Lowering.Plans

/-!
# Lowering and the chain of virtual tables

The binding context also holds the chain of virtual tables that are being expanded. Lowering neither reads
nor changes it: a step does the same under any chain and leaves the chain as it is, also when it fails.
-/

namespace TabularSql

set_option autoImplicit false

namespace LoweringState

def under (state : LoweringState) (chain : List TableId) : LoweringState :=
  { state with context := { state.context with expanding := chain } }

@[simp] theorem under_own (state : LoweringState) : state.under state.context.expanding = state := rfl

end LoweringState

namespace Lowering

variable {α β : Type}

/-- The step does the same under every chain, and leaves the chain as it is. -/
def Framed (step : Lowering α) : Prop :=
  ∀ state chain, step.run (LoweringState.under state chain) =
    ((step.run state).1, (step.run state).2.under chain)

theorem Framed.expanding {step : Lowering α} (framed : Framed step) (state : LoweringState) :
    (step.run state).2.context.expanding = state.context.expanding := by
  have own := framed state state.context.expanding
  rw [LoweringState.under_own] at own
  rw [own]
  rfl

theorem framed_pure (value : α) : Framed (pure value) :=
  fun _ _ => rfl

theorem framed_throw (problem : CompileError) : Framed (throw problem : Lowering α) :=
  fun _ _ => rfl

theorem framed_bind {step : Lowering α} {next : α → Lowering β} (first : Framed step)
    (second : ∀ value, Framed (next value)) : Framed (step >>= next) := by
  intro state chain
  rw [run_bind_eq, run_bind_eq, first state chain]
  rcases step.run state with ⟨problem | value, between⟩
  · rfl
  · exact second value between chain

theorem framed_lift (given : Except CompileError α) : Framed (lift given) := by
  cases given with
  | error problem => exact framed_throw problem
  | ok value => exact framed_pure value

theorem framed_modify {change : LoweringState → LoweringState}
    (commutes : ∀ state chain, change (LoweringState.under state chain) = (change state).under chain) :
    Framed (modify change) := by
  intro state chain
  show ((.ok (), change (state.under chain)) : Except CompileError Unit × LoweringState) = _
  rw [commutes]
  rfl

theorem framed_get {next : LoweringState → Lowering α}
    (blind : ∀ state chain, next (LoweringState.under state chain) = next state)
    (second : ∀ state, Framed (next state)) : Framed (get >>= next) := by
  intro state chain
  rw [run_bind_eq, run_bind_eq]
  show (next (state.under chain)).run (state.under chain) = _
  rw [blind]
  exact second state state chain

theorem framed_bound (value : ParameterValue) : Framed (bind value) :=
  fun _ _ => rfl

theorem framed_mapM {step : α → Lowering β} {items : List α}
    (each : ∀ item ∈ items, Framed (step item)) : Framed (items.mapM step) := by
  induction items with
  | nil => exact framed_pure _
  | cons item items ih =>
    rw [List.mapM_cons]
    apply framed_bind (each item List.mem_cons_self)
    intro first
    apply framed_bind (ih fun other member => each other (List.mem_cons_of_mem _ member))
    intro rest
    exact framed_pure _

theorem framed_optional {step : α → Lowering β} {optional : Option α}
    (each : ∀ item ∈ optional, Framed (step item)) : Framed (optional.mapM step) := by
  cases optional with
  | none => exact framed_pure _
  | some item =>
    show Framed (some <$> step item)
    rw [map_eq_pure_bind]
    exact framed_bind (each item rfl) fun _ => framed_pure _

end Lowering

/-! ## Expressions -/

namespace Lowering

variable {scope : Scope}

theorem framed_literal (position : Position) (literal : Literal) : Framed (literal.lower position) := by
  unfold Literal.lower
  split
  · split
    · exact framed_bound _
    · exact framed_pure _
  · exact framed_pure _

theorem framed_currentUser (position : Position) : Framed (Expr.currentUser.lower scope position) := by
  rw [Expr.lower]
  apply framed_get
  · intro state chain
    rfl
  · intro state
    split
    · exact framed_bound _
    · exact framed_pure _

theorem framed_lowerAll {position : Position} {list : List Expr}
    (each : ∀ expr ∈ list, Framed (expr.lower scope position)) :
    Framed (Expr.lowerAll scope position list) := by
  rw [Expr.lowerAll_eq_mapM]
  exact framed_mapM each

theorem framed_lowerOption {position : Position} {optional : Option Expr}
    (each : ∀ expr ∈ optional, Framed (expr.lower scope position)) :
    Framed (Expr.lowerOption scope position optional) := by
  rw [Expr.lowerOption_eq_mapM]
  exact framed_optional each

theorem framed_lowerBranches {tested result : Position} {branches : List (Expr × Expr)}
    (each : ∀ branch ∈ branches, Framed (branch.1.lower scope tested) ∧
      Framed (branch.2.lower scope result)) :
    Framed (Expr.lowerBranches scope tested result branches) := by
  rw [Expr.lowerBranches_eq_mapM]
  refine framed_mapM fun branch member => ?_
  obtain ⟨first, second⟩ := each branch member
  exact framed_bind first fun _ => framed_bind second fun _ => framed_pure _

theorem framed_noteUnnested (column : ListColumn) : Framed (noteUnnested column) := by
  apply framed_modify
  intro state chain
  by_cases known : column ∈ state.unnested
  · rw [if_pos known, if_pos (show column ∈ (state.under chain).unnested from known)]
  · rw [if_neg known, if_neg (show column ∉ (state.under chain).unnested from known)]
    rfl

theorem framed_noteSearch : Framed noteSearch :=
  framed_modify fun _ _ => rfl

theorem framed_lower_of_inside {whole : Expr} (each : ∀ part, .expr part ∈ whole.inside →
    ∀ position, Framed (part.lower scope position)) (position : Position) :
    Framed (whole.lower scope position) := by
  cases whole with
  | literal value => exact framed_literal position value
  | column reference => exact framed_lift _
  | parameter name => exact framed_pure _
  | wildcard => exact framed_pure _
  | currentUser => exact framed_currentUser position
  | call name distinct arguments =>
    apply framed_bind (framed_lowerAll fun expr member => each expr (by simpa) _)
    intro lowered
    exact framed_pure _
  | cast operand target =>
    apply framed_bind (each operand (by simp) _)
    intro lowered
    apply framed_bind (framed_lift _)
    intro known
    exact framed_pure _
  | caseWhen operand branches otherwise =>
    apply framed_bind
    · exact framed_lowerOption fun expr given => each expr (by cases given; simp) _
    intro first
    apply framed_bind
    · apply framed_lowerBranches
      intro branch member
      exact ⟨each _ (Expr.condition_inside member) _, each _ (Expr.result_inside member) _⟩
    intro middle
    apply framed_bind
    · exact framed_lowerOption fun expr given => each expr (by cases given; simp) _
    intro last
    exact framed_pure _
  | binary operator left right =>
    apply framed_bind (each left (by simp) _)
    intro first
    apply framed_bind (each right (by simp) _)
    intro second
    exact framed_pure _
  | unary operator operand | nested operand | isNull operand _ | isTruth operand _ _ =>
    apply framed_bind (each operand (by simp) _)
    intro lowered
    exact framed_pure _
  | between tested low high negated =>
    apply framed_bind (each tested (by simp) _)
    intro first
    apply framed_bind (each low (by simp) _)
    intro second
    apply framed_bind (each high (by simp) _)
    intro third
    exact framed_pure _
  | inList tested candidates negated =>
    apply framed_bind (each tested (by simp) _)
    intro first
    apply framed_bind (framed_lowerAll fun expr member => each expr (by simp [member]) _)
    intro list
    exact framed_pure _
  | inQuery tested candidates negated => exact framed_throw _
  | like tested pattern escape negated =>
    apply framed_bind (each tested (by simp) _)
    intro first
    apply framed_bind (each pattern (by simp) _)
    intro second
    apply framed_bind
    · exact framed_lowerOption fun expr given => each expr (by cases given; simp) _
    intro third
    exact framed_pure _
  | has tested values pattern negated =>
    apply framed_bind (framed_lift _)
    intro column
    apply framed_bind (framed_lowerAll fun expr member => each expr (by simp [member]) _)
    intro list
    apply framed_bind (framed_lift _)
    intro condition
    exact framed_pure _
  | doubleTest test reference => exact framed_lift _
  | textMatches text | matchAgainst text =>
    apply framed_bind (each text (by simp) _)
    intro lowered
    apply framed_bind framed_noteSearch
    intro _
    exact framed_pure _
  | unnest reference =>
    apply framed_bind (framed_lift _)
    intro column
    apply framed_bind (framed_noteUnnested column)
    intro _
    exact framed_pure _

theorem framed_lower (scope : Scope) (position : Position) (whole : Expr) :
    Framed (whole.lower scope position) := by
  induction whole using Fragment.expr_induction generalizing position with
  | step whole ih => exact framed_lower_of_inside (fun part member position => ih part member position) position

end Lowering

/-! ## Selects and statements -/

namespace Lowering

theorem framed_conditions (scope : Scope) (source : Source) : Framed (source.lowerConditions scope) := by
  match source with
  | .table only => exact framed_pure _
  | .join left kind right condition =>
    apply framed_bind (framed_conditions scope left)
    intro before
    apply framed_bind (framed_lower scope _ condition)
    intro lowered
    exact framed_pure _

theorem framed_page (page : Page) : Framed page.lower := by
  have count (expr : Expr) : Framed (Page.lowerCount expr) :=
    framed_bind (framed_lift _) fun _ => framed_bound _
  apply framed_bind (count _)
  intro limit
  apply framed_bind (framed_optional fun expr _ => count expr)
  intro offset
  exact framed_pure _

theorem framed_select (schemas : Schemas) (guardsDoubles : Bool) (metadata : List RowMetadata)
    (binding : Binding) (part : Select) :
    Framed (part.lower schemas guardsDoubles metadata binding) := by
  apply framed_bind (framed_modify fun _ _ => rfl)
  intro _
  apply framed_bind (framed_mapM fun item _ =>
    framed_bind (framed_lower _ _ item.expr) fun _ => framed_pure _)
  intro items
  apply framed_bind (framed_conditions _ _)
  intro source
  apply framed_bind (framed_lowerOption fun expr _ => framed_lower _ _ expr)
  intro filter
  apply framed_bind (framed_lowerAll fun expr _ => framed_lower _ _ expr)
  intro groupBy
  apply framed_bind (framed_mapM fun key _ =>
    framed_bind (framed_lower _ _ key.expr) fun _ => framed_pure _)
  intro orderBy
  apply framed_bind (framed_optional fun page _ => framed_page page)
  intro page
  apply framed_get
  · intro state chain
    rfl
  · intro state
    exact framed_pure _

end Lowering

namespace Compiler

open Lowering

theorem framed_compileParts (compiler : Compiler) (role : Role) (description : IndexDescription)
    (query : Query) (inner : Option CompiledQuery) :
    Framed (compiler.compileParts role description query inner) := by
  apply framed_bind (framed_lift _)
  intro parts
  apply framed_bind (framed_lift _)
  intro metadata
  apply framed_bind (framed_lift _)
  intro paged
  apply framed_bind (framed_mapM fun part _ => framed_select _ _ _ part.1 part.2)
  intro lowered
  exact framed_pure _

theorem framed_compilePlan (compiler : Compiler) (role : Role) (plan : Plan) :
    Framed (compiler.compilePlan role plan) := by
  induction plan generalizing role with
  | plain description query => exact compiler.framed_compileParts role description query none
  | layered description query name inner ih =>
    apply framed_bind (ih .definition)
    intro below
    apply framed_bind (framed_lift _)
    intro element
    exact compiler.framed_compileParts role description _ _

end Compiler

end TabularSql
