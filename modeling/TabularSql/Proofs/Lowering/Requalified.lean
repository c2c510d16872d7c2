import TabularSql.Proofs.Lowering.Stars
import TabularSql.Proofs.Lowering.Virtual

/-!
# Expressions with other qualifiers

The tables of a FROM clause are given other aliases, and the qualifiers of an expression are changed with
them. A reference is found again if its new qualifier selects the tables that the old one selected. If all
references of an expression are found again, it has the same type and is lowered to the same expression over
the store, or both expressions are refused. The errors may differ, since they spell the references out.
-/

namespace TabularSql

set_option autoImplicit false

/-! ## Steps up to errors -/

namespace Lowering

variable {α β γ δ : Type}

variable {related : α → β → Prop} {one : Lowering α} {next step : α → Lowering γ} {other : β → Lowering γ}

/-- From the same state both steps fail, or give related results; they end in the same state. -/
def Alike (one : Lowering α) (two : Lowering β) (related : α → β → Prop) : Prop :=
  ∀ state : LoweringState, (one.run state).2 = (two.run state).2 ∧
    Except.Alike related (one.run state).1 (two.run state).1

theorem alike_pure {one : α} {two : β} (results : related one two) :
    Alike (pure one) (pure two) related :=
  fun _ => ⟨rfl, .ok results⟩

theorem alike_self {related : α → α → Prop} (reflexive : ∀ value, related value value)
    (step : Lowering α) : Alike step step related :=
  fun _ => ⟨rfl, .refl reflexive _⟩

theorem alike_bind {two : Lowering β} {other : β → Lowering δ} {between : α → β → Prop}
    {related : γ → δ → Prop} (first : Alike one two between)
    (second : ∀ left right, between left right → Alike (next left) (other right) related) :
    Alike (one >>= next) (two >>= other) related := by
  intro start
  obtain ⟨states, outcomes⟩ := first start
  rw [run_bind_eq, run_bind_eq]
  rcases ran : one.run start with ⟨result, state⟩
  rcases other_ran : two.run start with ⟨result', state'⟩
  rw [ran, other_ran] at states outcomes
  obtain rfl : state = state' := states
  cases outcomes with
  | error problem another => exact ⟨rfl, .error problem another⟩
  | ok results => exact second _ _ results state

theorem alike_then {two : Lowering α} {other : α → Lowering δ} {related : γ → δ → Prop}
    (first : Alike one two Eq) (second : ∀ value, Alike (next value) (other value) related) :
    Alike (one >>= next) (two >>= other) related := by
  apply alike_bind first
  rintro value _ rfl
  exact second value

theorem alike_lift {one : Except CompileError α} {two : Except CompileError β}
    (alike : Except.Alike related one two) : Alike (lift one) (lift two) related := by
  intro state
  cases alike with
  | error problem other => exact ⟨rfl, .error problem other⟩
  | ok results => exact ⟨rfl, .ok results⟩

theorem alike_after {one : Except CompileError α} {two : Except CompileError β} {other : β → Lowering δ}
    {between : α → β → Prop} {related : γ → δ → Prop} (first : Except.Alike between one two)
    (second : ∀ left right, one = .ok left → between left right → Alike (next left) (other right) related) :
    Alike (lift one >>= next) (lift two >>= other) related := by
  cases first with
  | error problem another => exact fun _ => ⟨rfl, .error problem another⟩
  | ok results => exact second _ _ rfl results

theorem alike_mono {two : Lowering β} {weaker : α → β → Prop} (alike : Alike one two related)
    (weaken : ∀ left right, related left right → weaker left right) :
    Alike one two weaker :=
  fun state => ⟨(alike state).1, (alike state).2.mono weaken⟩

theorem alike_mapM {pairs : α → β → Prop} {items : List α} {others : List β}
    (listed : List.Forall₂ pairs items others)
    (each : ∀ item pair, pairs item pair → Alike (step item) (other pair) Eq) :
    Alike (items.mapM step) (others.mapM other) fun left right =>
      left = right ∧ left.length = items.length := by
  induction listed with
  | nil => exact alike_pure ⟨rfl, rfl⟩
  | cons own _ ih =>
    rw [List.mapM_cons, List.mapM_cons]
    apply alike_then (each _ _ own)
    intro first
    apply alike_bind ih
    rintro rest _ ⟨rfl, counted⟩
    exact alike_pure ⟨rfl, by rw [List.length_cons, List.length_cons, counted]⟩

theorem alike_each {change : α → β} {items : List α}
    (each : ∀ item ∈ items, Alike (step item) (other (change item)) Eq) :
    Alike (items.mapM step) ((items.map change).mapM other) Eq := by
  have listed : List.Forall₂ (fun item pair => item ∈ items ∧ pair = change item) items
      (items.map change) := by
    rw [List.forall₂_map_right_iff]
    exact List.forall₂_same.mpr fun item member => ⟨member, rfl⟩
  refine alike_mono (alike_mapM listed ?_) fun left right same => same.1
  rintro item _ ⟨member, rfl⟩
  exact each item member

theorem alike_optional {change : α → β} {optional : Option α}
    (each : ∀ value, Alike (step value) (other (change value)) Eq) :
    Alike (optional.mapM step) ((optional.map change).mapM other) Eq := by
  cases optional with
  | none => exact alike_pure rfl
  | some value =>
    apply alike_then (each value)
    intro result
    exact alike_pure rfl

end Lowering

/-! ## Renamed expressions -/

/-- What qualifiers become. Subqueries are refused, so nothing is asked of what they become. -/
structure Renaming where
  qualifier : Identifier → Identifier
  subquery : Query → Query

def ColumnRef.requalify (names : Renaming) (reference : ColumnRef) : ColumnRef :=
  ⟨reference.qualifier.map names.qualifier, reference.name⟩

mutual

def Expr.requalify (names : Renaming) : Expr → Expr
  | .literal value => .literal value
  | .column reference => .column (reference.requalify names)
  | .parameter name => .parameter name
  | .currentUser => .currentUser
  | .wildcard => .wildcard
  | .call name distinct arguments => .call name distinct (Expr.requalifyAll names arguments)
  | .cast operand target => .cast (operand.requalify names) target
  | .caseWhen operand branches otherwise =>
    .caseWhen (Expr.requalifyOption names operand) (Expr.requalifyBranches names branches)
      (Expr.requalifyOption names otherwise)
  | .binary operator left right => .binary operator (left.requalify names) (right.requalify names)
  | .unary operator operand => .unary operator (operand.requalify names)
  | .nested inner => .nested (inner.requalify names)
  | .isNull tested negated => .isNull (tested.requalify names) negated
  | .isTruth tested value negated => .isTruth (tested.requalify names) value negated
  | .between tested low high negated =>
    .between (tested.requalify names) (low.requalify names) (high.requalify names) negated
  | .inList tested candidates negated =>
    .inList (tested.requalify names) (Expr.requalifyAll names candidates) negated
  | .inQuery tested candidates negated =>
    .inQuery (tested.requalify names) (names.subquery candidates) negated
  | .like tested pattern escape negated =>
    .like (tested.requalify names) (pattern.requalify names) (Expr.requalifyOption names escape)
      negated
  | .has tested values pattern negated =>
    .has (tested.requalify names) (Expr.requalifyAll names values) pattern negated
  | .doubleTest test reference => .doubleTest test (reference.requalify names)
  | .textMatches text => .textMatches (text.requalify names)
  | .matchAgainst text => .matchAgainst (text.requalify names)
  | .unnest reference => .unnest (reference.requalify names)

def Expr.requalifyAll (names : Renaming) : List Expr → List Expr
  | [] => []
  | expr :: rest => expr.requalify names :: Expr.requalifyAll names rest

def Expr.requalifyOption (names : Renaming) : Option Expr → Option Expr
  | none => none
  | some expr => some (expr.requalify names)

def Expr.requalifyBranches (names : Renaming) : List (Expr × Expr) → List (Expr × Expr)
  | [] => []
  | (condition, result) :: rest =>
    (condition.requalify names, result.requalify names) :: Expr.requalifyBranches names rest

end

namespace Expr

variable {names : Renaming}

@[simp] theorem requalifyAll_eq (list : List Expr) : requalifyAll names list = list.map (requalify names) := by
  induction list with
  | nil => rfl
  | cons expr list ih => rw [requalifyAll, ih, List.map_cons]

@[simp] theorem requalifyOption_eq (optional : Option Expr) :
    requalifyOption names optional = optional.map (requalify names) := by
  cases optional <;> rfl

@[simp] theorem requalifyBranches_eq (branches : List (Expr × Expr)) :
    requalifyBranches names branches =
      branches.map fun branch => (branch.1.requalify names, branch.2.requalify names) := by
  induction branches with
  | nil => rfl
  | cons branch branches ih => rw [requalifyBranches, ih, List.map_cons]

end Expr

theorem Expr.subexpressions_requalify (names : Renaming) (whole : Expr) :
    (whole.requalify names).subexpressions = whole.subexpressions.map (Expr.requalify names) := by
  induction whole using Fragment.expr_induction with
  | step whole ih =>
    have all (list : List Expr) (listed : ∀ expr ∈ list, .expr expr ∈ whole.inside) :
        (list.map (Expr.requalify names)).flatMap Expr.subexpressions =
          (list.flatMap Expr.subexpressions).map (Expr.requalify names) := by
      rw [List.flatMap_map, List.map_flatMap]
      exact List.flatMap_congr fun expr member => ih expr (listed expr member)
    cases whole with
    | literal | column | parameter | currentUser | wildcard | doubleTest | unnest => rfl
    | call name distinct arguments =>
      simp [Expr.requalify, Expr.subexpressions, all arguments (by simp)]
    | caseWhen operand branches otherwise =>
      have branched : branches.flatMap (fun branch => (branch.1.requalify names).subexpressions ++
          (branch.2.requalify names).subexpressions) = branches.flatMap fun branch =>
            (branch.1.subexpressions ++ branch.2.subexpressions).map (Expr.requalify names) :=
        List.flatMap_congr fun branch member => by
          rw [ih _ (Expr.condition_inside member), ih _ (Expr.result_inside member), List.map_append]
      simp [Expr.requalify, Expr.subexpressions, Option.toList_map, all operand.toList (by simp +contextual),
        List.flatMap_map, List.map_flatMap, branched, all otherwise.toList (by simp +contextual)]
    | inList tested list _ | has tested list _ _ =>
      simp [Expr.requalify, Expr.subexpressions, ih tested (by simp), all list (by simp +contextual)]
    | like tested pattern escape negated =>
      simp [Expr.requalify, Expr.subexpressions, ih tested (by simp), ih pattern (by simp),
        Option.toList_map, all escape.toList (by simp +contextual)]
    | _ =>
      simp at ih
      simp [Expr.requalify, Expr.subexpressions, ih]

/-! ## References that are found again -/

def BoundTable.realias (names : Renaming) (table : BoundTable) : BoundTable :=
  { table with alias? := table.alias?.map names.qualifier }

def Binding.realias (names : Renaming) (binding : Binding) : Binding :=
  ⟨binding.tables.map (BoundTable.realias names)⟩

def ResolvedColumn.realias (names : Renaming) (resolved : ResolvedColumn) : ResolvedColumn :=
  { resolved with table := resolved.table.realias names }

namespace Renaming

variable {names : Renaming} {binding : Binding}

/-- The renamed reference selects the tables that the reference selects. -/
def Finds (names : Renaming) (binding : Binding) (reference : ColumnRef) : Prop :=
  (binding.realias names).candidates (reference.requalify names) =
    (binding.candidates reference).map (BoundTable.realias names)

theorem alike_resolve {reference : ColumnRef} (finds : names.Finds binding reference) :
    Except.Alike (fun found other => other = Option.map (ResolvedColumn.realias names) found)
      (binding.resolve reference) ((binding.realias names).resolve (reference.requalify names)) := by
  have hits : (((binding.realias names).candidates (reference.requalify names)).filterMap fun table =>
      (table.find? (reference.requalify names).name.name).map fun found =>
        ResolvedColumn.mk table (.stored found)) =
      ((binding.candidates reference).filterMap fun table =>
        (table.find? reference.name.name).map fun found =>
          ResolvedColumn.mk table (.stored found)).map (ResolvedColumn.realias names) := by
    rw [finds, List.filterMap_map, List.map_filterMap]
    congr 1
    funext table
    rw [Option.map_map]
    rfl
  unfold Binding.resolve
  dsimp only
  rw [hits, finds, List.head?_map]
  rcases (binding.candidates reference).filterMap _ with _ | ⟨found, _ | ⟨second, rest⟩⟩
  · apply Except.Alike.ok
    show (MetadataName.ofWord? reference.name.name).bind _ =
      ((MetadataName.ofWord? reference.name.name).bind _).map _
    cases MetadataName.ofWord? reference.name.name with
    | none => rfl
    | some name => cases (binding.candidates reference).head? <;> rfl
  · exact .ok rfl
  · exact .error _ _

theorem resolve?_requalify {reference : ColumnRef} (finds : names.Finds binding reference) :
    (binding.realias names).resolve? (reference.requalify names) =
      (binding.resolve? reference).map (ResolvedColumn.realias names) := by
  have outcomes := alike_resolve finds
  unfold Binding.resolve?
  generalize binding.resolve reference = one at outcomes ⊢
  generalize (binding.realias names).resolve (reference.requalify names) = two at outcomes ⊢
  cases outcomes with
  | error problem other => rfl
  | ok same => exact same

end Renaming

namespace Expr

/-- The reference that the expression is or tests. -/
def reference? : Expr → Option ColumnRef
  | column reference | doubleTest _ reference | unnest reference => some reference
  | _ => none

/-- The references in the expression, those of subqueries apart. -/
def references (whole : Expr) : List ColumnRef := whole.subexpressions.filterMap reference?

end Expr

namespace Renaming

variable {names : Renaming} {binding : Binding}

/-- All references of the expression are found again. -/
def Keeps (names : Renaming) (binding : Binding) (whole : Expr) : Prop :=
  ∀ reference ∈ whole.references, names.Finds binding reference

theorem Keeps.inside {whole part : Expr} (keeps : names.Keeps binding whole)
    (member : .expr part ∈ whole.inside) : names.Keeps binding part := by
  intro reference found
  obtain ⟨inner, deeper, same⟩ := List.mem_filterMap.mp found
  exact keeps reference (List.mem_filterMap.mpr
    ⟨inner, Expr.mem_subexpressions.mpr (.inr ⟨part, member, deeper⟩), same⟩)

theorem Keeps.own {whole : Expr} {reference : ColumnRef} (keeps : names.Keeps binding whole)
    (own : whole.reference? = some reference) : names.Finds binding reference :=
  keeps reference (List.mem_filterMap.mpr ⟨whole, Expr.mem_subexpressions.mpr (.inl rfl), own⟩)

end Renaming

/-! ## Types -/

namespace Expr

@[simp] theorem inferAll_eq (schemas : Schemas) (binding : Binding) (list : List Expr) :
    inferAll schemas binding list = list.map (infer schemas binding) := by
  induction list with
  | nil => rfl
  | cons expr list ih => rw [inferAll, ih, List.map_cons]

@[simp] theorem inferBranches_eq (schemas : Schemas) (binding : Binding) (branches : List (Expr × Expr)) :
    inferBranches schemas binding branches = branches.map fun branch => branch.2.infer schemas binding := by
  induction branches with
  | nil => rfl
  | cons branch branches ih => rw [inferBranches, ih, List.map_cons]

@[simp] theorem inferOption_eq (schemas : Schemas) (binding : Binding) (optional : Option Expr) :
    inferOption schemas binding optional = optional.toList.map (infer schemas binding) := by
  cases optional <;> rfl

end Expr

theorem Expr.infer_requalify {names : Renaming} {binding : Binding} (schemas : Schemas) (whole : Expr)
    (keeps : names.Keeps binding whole) :
    (whole.requalify names).infer schemas (binding.realias names) = whole.infer schemas binding := by
  induction whole using Fragment.expr_induction with
  | step whole ih =>
    have own (part : Expr) (member : .expr part ∈ whole.inside) :
        (part.requalify names).infer schemas (binding.realias names) = part.infer schemas binding :=
      ih part member (keeps.inside member)
    cases whole with
    | literal | parameter | currentUser | wildcard | cast | isNull | isTruth | between | inList | inQuery
    | like | has | doubleTest | textMatches | matchAgainst => rfl
    | column reference | unnest reference =>
      simp only [Expr.requalify, Expr.infer, Renaming.resolve?_requalify (keeps.own rfl), Option.map_map]
      rfl
    | call name distinct arguments =>
      have listed := List.map_congr_left fun expr (member : expr ∈ arguments) => own expr (by simpa)
      simp [Expr.requalify, Expr.infer, Function.comp_def, listed]
    | caseWhen operand branches otherwise =>
      have results := List.map_congr_left fun branch (member : branch ∈ branches) =>
        own branch.2 (Expr.result_inside member)
      have last := List.map_congr_left fun expr (member : expr ∈ otherwise.toList) => own expr (by simp_all)
      simp [Expr.requalify, Expr.infer, Function.comp_def, Option.toList_map, results, last]
    | binary operator left right =>
      rw [Expr.requalify, Expr.infer, Expr.infer, own left (by simp), own right (by simp)]
    | unary operator operand => rw [Expr.requalify, Expr.infer, Expr.infer, own operand (by simp)]
    | nested inner => rw [Expr.requalify, Expr.infer, Expr.infer, own inner (by simp)]

theorem Expr.findType_requalify {names : Renaming} {binding : Binding} (schemas : Schemas)
    (list : List Expr) (keeps : ∀ expr ∈ list, names.Keeps binding expr) :
    (list.map (Expr.requalify names)).findSome? (Expr.infer schemas (binding.realias names)) =
      list.findSome? (Expr.infer schemas binding) := by
  induction list with
  | nil => rfl
  | cons expr list ih =>
    rw [List.forall_mem_cons] at keeps
    rw [List.map_cons, List.findSome?_cons, List.findSome?_cons,
      Expr.infer_requalify schemas expr keeps.1, ih keeps.2]

/-! ## Lowering -/

def Scope.realias (names : Renaming) (scope : Scope) : Scope :=
  { scope with binding := scope.binding.realias names }

section

variable {names : Renaming} {scope : Scope} {reference : ColumnRef}

theorem ColumnRef.alike_lowerUnresolved (aliases : List String) (position : Position)
    (reference : ColumnRef) :
    Except.Alike Eq (reference.lowerUnresolved aliases position)
      ((reference.requalify names).lowerUnresolved aliases position) := by
  obtain ⟨_ | qualifier, name⟩ := reference
  · exact .refl (fun _ => rfl) _
  · cases position <;> exact .error _ _

theorem ColumnRef.alike_lower (finds : names.Finds scope.binding reference) (position : Position) :
    Except.Alike Eq (reference.lower scope position)
      ((reference.requalify names).lower (scope.realias names) position) := by
  apply Except.Alike.bind (Renaming.alike_resolve finds)
  rintro found _ _ rfl
  cases found with
  | none => exact ColumnRef.alike_lowerUnresolved _ _ _
  | some resolved => exact .refl (fun _ => rfl) _

theorem ColumnRef.alike_required (finds : names.Finds scope.binding reference) :
    Except.Alike (fun found other => other = ResolvedColumn.realias names found)
      (scope.binding.resolveRequired reference)
      ((scope.realias names).binding.resolveRequired (reference.requalify names)) := by
  apply Except.Alike.bind (Renaming.alike_resolve finds)
  rintro found _ _ rfl
  cases found with
  | none => exact .error _ _
  | some resolved => exact .ok rfl

theorem ColumnRef.alike_listColumn (finds : names.Finds scope.binding reference) (form : ListForm) :
    Except.Alike Eq (reference.listColumn scope form)
      ((reference.requalify names).listColumn (scope.realias names) form) := by
  apply Except.Alike.bind (ColumnRef.alike_required finds)
  rintro found _ _ rfl
  exact .refl (fun _ => rfl) _

theorem DoubleTest.alike_lower (finds : names.Finds scope.binding reference) (test : DoubleTest) :
    Except.Alike Eq (test.lower scope reference)
      (test.lower (scope.realias names) (reference.requalify names)) := by
  apply Except.Alike.bind (ColumnRef.alike_required finds)
  rintro found _ _ rfl
  exact .refl (fun _ => rfl) _

theorem Expr.alike_testedList {tested : Expr} (keeps : names.Keeps scope.binding tested)
    (form : ListForm) :
    Except.Alike Eq (tested.testedList scope form)
      ((tested.requalify names).testedList (scope.realias names) form) := by
  cases tested with
  | column reference => exact ColumnRef.alike_listColumn (keeps.own rfl) form
  | _ => exact .error _ _

end

open Lowering

namespace Expr

variable {names : Renaming} {scope : Scope} {position : Position}

/-- The renamed expression is lowered to what the expression is lowered to. -/
def AlikeAt (names : Renaming) (scope : Scope) (position : Position) (whole : Expr) : Prop :=
  Lowering.Alike (whole.lower scope position)
    ((whole.requalify names).lower (scope.realias names) position) Eq

theorem alike_lowerAll {list : List Expr} (each : ∀ expr ∈ list, AlikeAt names scope position expr) :
    Lowering.Alike (lowerAll scope position list)
      (lowerAll (scope.realias names) position (list.map (requalify names))) Eq := by
  rw [lowerAll_eq_mapM, lowerAll_eq_mapM]
  exact alike_each each

theorem alike_lowerOption {optional : Option Expr}
    (each : ∀ expr ∈ optional, AlikeAt names scope position expr) :
    Lowering.Alike (lowerOption scope position optional)
      (lowerOption (scope.realias names) position (optional.map (requalify names))) Eq := by
  cases optional with
  | none => exact alike_pure rfl
  | some expr =>
    apply alike_then (each expr rfl)
    intro lowered
    exact alike_pure rfl

theorem alike_lowerBranches {tested result : Position} {branches : List (Expr × Expr)}
    (each : ∀ branch ∈ branches, AlikeAt names scope tested branch.1 ∧ AlikeAt names scope result branch.2) :
    Lowering.Alike (lowerBranches scope tested result branches)
      (lowerBranches (scope.realias names) tested result
        (branches.map fun branch => (branch.1.requalify names, branch.2.requalify names))) Eq := by
  rw [lowerBranches_eq_mapM, lowerBranches_eq_mapM]
  apply alike_each
  intro branch member
  obtain ⟨first, second⟩ := each branch member
  apply alike_then first
  intro condition
  apply alike_then second
  intro value
  exact alike_pure rfl

theorem alike_lower (whole : Expr) (keeps : names.Keeps scope.binding whole) (position : Position) :
    AlikeAt names scope position whole := by
  induction whole using Fragment.expr_induction generalizing position with
  | step whole ih =>
    have each (part : Expr) (member : .expr part ∈ whole.inside) := ih part member (keeps.inside member)
    have type (part : Expr) (member : .expr part ∈ whole.inside) :=
      infer_requalify scope.schemas part (keeps.inside member)
    unfold AlikeAt
    cases whole with
    | literal | parameter | currentUser | wildcard => exact alike_self (fun _ => rfl) _
    | column reference => exact alike_lift (ColumnRef.alike_lower (keeps.own rfl) position)
    | call name distinct arguments =>
      rw [requalify, requalifyAll_eq]
      apply alike_then (alike_lowerAll fun expr member => each expr (by simpa) _)
      intro lowered
      exact alike_pure rfl
    | cast operand target =>
      apply alike_then (each operand (by simp) _)
      intro lowered
      exact alike_self (fun _ => rfl) _
    | caseWhen operand branches otherwise =>
      have compared : (operand.map (requalify names)).bind
          (infer scope.schemas (scope.binding.realias names)) =
            operand.bind (infer scope.schemas scope.binding) := by
        cases operand with
        | none => rfl
        | some expr => exact type expr (by simp)
      simp only [requalify, requalifyOption_eq, requalifyBranches_eq, lower]
      apply alike_then (alike_lowerOption fun expr given => each expr (by cases given; simp) _)
      intro first
      simp only [Scope.realias, compared]
      apply alike_then (alike_lowerBranches fun branch member =>
        ⟨each _ (condition_inside member) _, each _ (result_inside member) _⟩)
      intro middle
      apply alike_then (alike_lowerOption fun expr given => each expr (by cases given; simp) _)
      intro last
      exact alike_pure rfl
    | binary operator left right =>
      simp only [requalify, lower, Scope.realias, type left (by simp), type right (by simp)]
      apply alike_then (each left (by simp) _)
      intro first
      apply alike_then (each right (by simp) _)
      intro second
      exact alike_pure rfl
    | unary operator operand | nested operand | isNull operand _ | isTruth operand _ _ =>
      apply alike_then (each operand (by simp) _)
      intro lowered
      exact alike_pure rfl
    | between tested low high negated =>
      simp only [requalify, lower, Scope.realias, type tested (by simp), type low (by simp),
        type high (by simp)]
      apply alike_then (each tested (by simp) _)
      intro first
      apply alike_then (each low (by simp) _)
      intro second
      apply alike_then (each high (by simp) _)
      intro third
      exact alike_pure rfl
    | inList tested candidates negated =>
      have listed := findType_requalify scope.schemas candidates
        fun expr member => keeps.inside (by simp [member])
      simp only [requalify, requalifyAll_eq, lower, Scope.realias, type tested (by simp), listed]
      apply alike_then (each tested (by simp) _)
      intro first
      apply alike_then (alike_lowerAll fun expr member => each expr (by simp [member]) _)
      intro list
      exact alike_pure rfl
    | inQuery tested candidates negated => exact fun _ => ⟨rfl, .error _ _⟩
    | like tested pattern escape negated =>
      simp only [requalify, requalifyOption_eq, lower, Scope.realias, type tested (by simp),
        type pattern (by simp)]
      apply alike_then (each tested (by simp) _)
      intro first
      apply alike_then (each pattern (by simp) _)
      intro second
      apply alike_then (alike_lowerOption fun expr given => each expr (by cases given; simp) _)
      intro third
      exact alike_pure rfl
    | has tested values pattern negated =>
      simp only [requalify, requalifyAll_eq, lower]
      apply alike_after (alike_testedList (keeps.inside (by simp)) _)
      rintro column _ _ rfl
      apply alike_then (alike_lowerAll fun expr member => each expr (by simp [member]) _)
      intro list
      exact alike_self (fun _ => rfl) _
    | doubleTest test reference => exact alike_lift (DoubleTest.alike_lower (keeps.own rfl) test)
    | textMatches text | matchAgainst text =>
      apply alike_then (each text (by simp) _)
      intro lowered
      exact alike_self (fun _ => rfl) _
    | unnest reference =>
      apply alike_after (ColumnRef.alike_listColumn (keeps.own rfl) .unnest)
      rintro column _ _ rfl
      exact alike_self (fun _ => rfl) _

end Expr

end TabularSql
