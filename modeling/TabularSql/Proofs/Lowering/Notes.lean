import TabularSql.Proofs.Lowering.Forms

/-!
# What lowering notes

While the expressions of a part are lowered, two things are noted for the part as a whole: the list columns
that its FROM clause has to bring in, and whether there was a search. A note is left exactly where an
expression of the right form is written, at any depth and in any clause. The argument is the same for
whatever is read off the notes, so it is made once.
-/

namespace TabularSql

set_option autoImplicit false

theorem Expr.exists_caseWhen {property : Fragment → Prop} {operand otherwise : Option Expr}
    {branches : List (Expr × Expr)} :
    (∃ part ∈ (caseWhen operand branches otherwise).inside, property part) ↔
      (∃ expr ∈ operand, property (.expr expr)) ∨
        (∃ branch ∈ branches, property (.expr branch.1) ∨ property (.expr branch.2)) ∨
          ∃ expr ∈ otherwise, property (.expr expr) := by
  simp only [inside, List.mem_append, List.mem_map, List.mem_flatMap, Option.mem_toList, Option.mem_def,
    List.mem_cons, List.not_mem_nil, or_false]
  grind

/-- The forms that leave a note, and the one that cannot be lowered. -/
def Expr.LeavesNote : Expr → Prop
  | textMatches _ | matchAgainst _ | unnest _ | inQuery .. => True
  | _ => False

namespace Lowering

variable {α β : Type} {seen : LoweringState → Prop} {occurs one two : Prop}

/-! ## Steps -/

/-- After the step it is seen what was seen before, and what occurs in the step. -/
def Notes (seen : LoweringState → Prop) (step : Lowering α) (occurs : Prop) : Prop :=
  ∀ state value after, step.run state = (.ok value, after) → (seen after ↔ seen state ∨ occurs)

theorem Notes.congr {step : Lowering α} (notes : Notes seen step one) (same : one ↔ two) :
    Notes seen step two := by
  intro state value after ran
  rw [notes state value after ran, same]

theorem notes_nothing {step : Lowering α} (never : ¬ occurs)
    (keeps : ∀ state value after, step.run state = (.ok value, after) → (seen after ↔ seen state)) :
    Notes seen step occurs := by
  intro state value after ran
  rw [keeps state value after ran, or_iff_left never]

theorem notes_pure {value : α} (never : ¬ occurs) : Notes seen (pure value) occurs := by
  apply notes_nothing never
  intro state result after ran
  rw [(run_pure ran).2]

theorem notes_lift {given : Except CompileError α} (never : ¬ occurs) : Notes seen (lift given) occurs := by
  apply notes_nothing never
  intro state result after ran
  rw [(run_lift ran).2]

theorem notes_get (never : ¬ occurs) : Notes seen get occurs := by
  apply notes_nothing never
  intro state result after ran
  cases ran
  rfl

theorem notes_bind {step : Lowering α} {next : α → Lowering β} (first : Notes seen step one)
    (second : ∀ value, Notes seen (next value) two) : Notes seen (step >>= next) (one ∨ two) := by
  intro state result after ran
  obtain ⟨value, middle, ran_first, ran_second⟩ := run_bind ran
  rw [second value middle result after ran_second, first state value middle ran_first, or_assoc]

theorem notes_lifted {given : Except CompileError α} {next : α → Lowering β}
    (second : ∀ value, given = .ok value → Notes seen (next value) occurs) :
    Notes seen (lift given >>= next) occurs := by
  intro state result after ran
  obtain ⟨value, middle, ran_first, ran_second⟩ := run_bind ran
  obtain ⟨same, rfl⟩ := run_lift ran_first
  exact second value same middle result after ran_second

theorem notes_value {step : Lowering α} {value : α → β} (notes : Notes seen step occurs) :
    Notes seen (step >>= fun result => pure (value result)) occurs :=
  (notes_bind notes fun _ => notes_pure not_false).congr (or_false _).to_iff

theorem notes_mapM {step : α → Lowering β} {occurs : α → Prop} {items : List α}
    (each : ∀ item ∈ items, Notes seen (step item) (occurs item)) :
    Notes seen (items.mapM step) (∃ item ∈ items, occurs item) := by
  induction items with
  | nil => exact notes_pure (by simp)
  | cons item items ih =>
    rw [List.mapM_cons]
    apply (notes_bind (each item List.mem_cons_self) fun _ => notes_value
      (ih fun other member => each other (List.mem_cons_of_mem _ member))).congr
    simp

theorem notes_optional {step : α → Lowering β} {occurs : α → Prop} {optional : Option α}
    (each : ∀ item ∈ optional, Notes seen (step item) (occurs item)) :
    Notes seen (optional.mapM step) (∃ item ∈ optional, occurs item) := by
  cases optional with
  | none => exact notes_pure (by simp)
  | some item =>
    show Notes seen (some <$> step item) _
    rw [map_eq_pure_bind]
    exact (notes_value (each item rfl)).congr (by simp)

/-! ## Expressions -/

/-- What is seen is about the expressions that pass the test: bound values do not matter, and each form that
can pass leaves a note that says whether it does. -/
structure Tracks (scope : Scope) (seen : LoweringState → Prop) (test : Expr → Prop) : Prop where
  context : ∀ state context, seen { state with context } ↔ seen state
  textMatches : ∀ text, Notes seen noteSearch (test (.textMatches text))
  matchAgainst : ∀ text, Notes seen noteSearch (test (.matchAgainst text))
  unnest : ∀ reference column, reference.listColumn scope .unnest = .ok column →
    Notes seen (noteUnnested column) (test (.unnest reference))
  other : ∀ whole, test whole → whole.LeavesNote

section

variable {scope : Scope} {test : Expr → Prop} {position : Position}

theorem notes_lowerAll {list : List Expr}
    (each : ∀ expr ∈ list, Notes seen (expr.lower scope position) (Fragment.Holds test (.expr expr))) :
    Notes seen (Expr.lowerAll scope position list) (∃ expr ∈ list, Fragment.Holds test (.expr expr)) := by
  rw [Expr.lowerAll_eq_mapM]
  exact notes_mapM each

theorem notes_lowerOption {optional : Option Expr}
    (each : ∀ expr ∈ optional, Notes seen (expr.lower scope position) (Fragment.Holds test (.expr expr))) :
    Notes seen (Expr.lowerOption scope position optional)
      (∃ expr ∈ optional, Fragment.Holds test (.expr expr)) := by
  rw [Expr.lowerOption_eq_mapM]
  exact notes_optional each

theorem notes_lowerBranches {tested result : Position} {branches : List (Expr × Expr)}
    (each : ∀ branch ∈ branches,
      Notes seen (branch.1.lower scope tested) (Fragment.Holds test (.expr branch.1)) ∧
        Notes seen (branch.2.lower scope result) (Fragment.Holds test (.expr branch.2))) :
    Notes seen (Expr.lowerBranches scope tested result branches) (∃ branch ∈ branches,
      Fragment.Holds test (.expr branch.1) ∨ Fragment.Holds test (.expr branch.2)) := by
  rw [Expr.lowerBranches_eq_mapM]
  exact notes_mapM fun branch member =>
    notes_bind (each branch member).1 fun _ => notes_value (each branch member).2

namespace Tracks

variable (tracks : Tracks scope seen test)

include tracks

theorem not_holds {whole : Expr} (silent : ¬ whole.LeavesNote) (leaf : whole.inside = []) :
    ¬ Fragment.Holds test (.expr whole) :=
  Fragment.not_holds_leaf (fun passes => silent (tracks.other whole passes)) leaf

theorem form {step : Lowering α} {whole : Expr} (notes : Notes seen step occurs)
    (silent : ¬ whole.LeavesNote) (same : occurs ↔ ∃ part ∈ whole.inside, Fragment.Holds test part) :
    Notes seen step (Fragment.Holds test (.expr whole)) :=
  notes.congr (same.trans (Fragment.holds_form fun passes => silent (tracks.other whole passes)).symm)

theorem bound {value : ParameterValue} (never : ¬ occurs) : Notes seen (bind value) occurs := by
  apply notes_nothing never
  intro state result after ran
  cases ran
  exact tracks.context state _

/-- What is seen is about the expression as it is written. -/
theorem lower (whole : Expr) (position : Position) :
    Notes seen (whole.lower scope position) (Fragment.Holds test (.expr whole)) := by
  induction whole using Fragment.expr_induction generalizing position with
  | step whole each =>
    cases whole with
    | literal value =>
      have never : ¬ Fragment.Holds test (.expr (.literal value)) := tracks.not_holds not_false rfl
      show Notes seen (value.lower position) _
      unfold Literal.lower
      split
      · split
        · exact tracks.bound never
        · exact notes_pure never
      · exact notes_pure never
    | column reference => exact notes_lift (tracks.not_holds not_false rfl)
    | parameter name => exact notes_pure (tracks.not_holds not_false rfl)
    | wildcard => exact notes_pure (tracks.not_holds not_false rfl)
    | currentUser =>
      have never : ¬ Fragment.Holds test (.expr .currentUser) := tracks.not_holds not_false rfl
      rw [Expr.lower]
      refine (notes_bind (notes_get never) fun state => ?_).congr (or_self _).to_iff
      dsimp only
      split
      · exact tracks.bound never
      · exact notes_pure never
    | call name distinct arguments =>
      refine tracks.form (notes_value (notes_lowerAll fun expr member =>
        each expr (by simpa) _)) not_false ?_
      simp
    | cast operand target =>
      refine tracks.form (notes_bind (each operand (by simp) _) fun _ =>
        notes_value (notes_lift not_false)) not_false ?_
      simp
    | caseWhen operand branches otherwise =>
      refine tracks.form (notes_bind (notes_lowerOption fun expr given =>
          each expr (by cases given; simp) _)
        fun _ => notes_bind (notes_lowerBranches fun branch member =>
          ⟨each _ (Expr.condition_inside member) _, each _ (Expr.result_inside member) _⟩)
        fun _ => notes_value
          (notes_lowerOption fun expr given => each expr (by cases given; simp) _)) not_false ?_
      rw [Expr.exists_caseWhen]
    | binary operator left right =>
      refine tracks.form (notes_bind (each left (by simp) _) fun _ =>
        notes_value (each right (by simp) _)) not_false ?_
      simp
    | unary _ operand | nested operand | isNull operand _ | isTruth operand _ _ =>
      refine tracks.form (notes_value (each operand (by simp) _)) not_false ?_
      simp
    | between tested low high negated =>
      refine tracks.form (notes_bind (each tested (by simp) _) fun _ =>
        notes_bind (each low (by simp) _) fun _ =>
          notes_value (each high (by simp) _)) not_false ?_
      simp
    | inList tested candidates negated =>
      refine tracks.form (notes_bind (each tested (by simp) _) fun _ => notes_value
        (notes_lowerAll fun expr member => each expr (by simp [member]) _)) not_false ?_
      simp
    | inQuery tested candidates negated =>
      intro state value after ran
      cases ran
    | like tested pattern escape negated =>
      refine tracks.form (notes_bind (each tested (by simp) _) fun _ =>
        notes_bind (each pattern (by simp) _) fun _ => notes_value
          (notes_lowerOption fun expr given => each expr (by cases given; simp) _)) not_false ?_
      simp
    | has tested values pattern negated =>
      cases tested with
      | column reference =>
        have never : ¬ Fragment.Holds test (.expr (.column reference)) :=
          tracks.not_holds not_false rfl
        refine tracks.form (notes_bind (notes_lift not_false) fun column => notes_bind
          (notes_lowerAll fun expr member => each expr (by simp [member]) _) fun list =>
            notes_value (notes_lift not_false)) not_false ?_
        simp [never]
      | _ =>
        intro state value after ran
        cases ran
    | doubleTest test reference => exact notes_lift (tracks.not_holds not_false rfl)
    | textMatches text =>
      apply (notes_bind (each text (by simp) _) fun _ =>
        notes_value (tracks.textMatches text)).congr
      rw [@Fragment.holds_expr _ (.textMatches text), or_comm]
      simp
    | matchAgainst text =>
      apply (notes_bind (each text (by simp) _) fun _ =>
        notes_value (tracks.matchAgainst text)).congr
      rw [@Fragment.holds_expr _ (.matchAgainst text), or_comm]
      simp
    | unnest reference =>
      apply notes_lifted
      intro column listed
      apply (notes_value (tracks.unnest reference column listed)).congr
      simp [Fragment.holds_expr]

end Tracks

end

/-! ## Parts -/

section

variable {schemas : Schemas} {guardsDoubles : Bool} {metadata : List RowMetadata} {binding : Binding}
  {part : Select} {result : Select × Bool} {state after : LoweringState} {test : Expr → Prop}

theorem Tracks.conditions {scope : Scope} (tracks : Tracks scope seen test) (source : Source) :
    Notes seen (source.lowerConditions scope)
      (∃ expr ∈ source.conditions, Fragment.Holds test (.expr expr)) := by
  match source with
  | .table only => exact notes_pure (by simp [Source.conditions])
  | .join left kind right condition =>
    apply (notes_bind (tracks.conditions left) fun _ => notes_value (tracks.lower condition _)).congr
    simp [Source.conditions, or_and_right, exists_or]

theorem Tracks.page {scope : Scope} (tracks : Tracks scope seen test) (page : Page) :
    Notes seen page.lower False := by
  have count (expr : Expr) : Notes seen (Page.lowerCount expr) False :=
    (notes_bind (notes_lift not_false) fun _ => tracks.bound not_false).congr (or_self _).to_iff
  apply (notes_bind (count page.limit) fun _ => notes_value (notes_optional fun expr _ => count expr)).congr
  simp

/-- What is seen of a part, which starts with no notes, is about the part as it is written. The notes
that are left at the end say whether it searches and which side tables are joined. -/
theorem noted_of_lower
    (tracks : Tracks { schemas, binding, guardsDoubles, aliases := part.aliases } seen test)
    (fresh : ∀ context, ¬ seen { context })
    (ran : (part.lower schemas guardsDoubles metadata binding).run state = (.ok result, after)) :
    seen after ↔ ∃ expr ∈ { part with definingFilter := none : Select }.clauses,
      Fragment.Holds test (.expr expr) := by
  obtain ⟨_, _, ran_reset, ran⟩ := run_bind ran
  cases ran_reset
  obtain ⟨items, first, ran_items, ran⟩ := run_bind ran
  obtain ⟨source, second, ran_source, ran⟩ := run_bind ran
  obtain ⟨filter, third, ran_filter, ran⟩ := run_bind ran
  obtain ⟨groupBy, fourth, ran_groupBy, ran⟩ := run_bind ran
  obtain ⟨orderBy, fifth, ran_orderBy, ran⟩ := run_bind ran
  obtain ⟨page, sixth, ran_page, ran⟩ := run_bind ran
  obtain ⟨last, _, ran_last, ran⟩ := run_bind ran
  cases ran_last
  cases ran
  rw [notes_optional (fun page _ => tracks.page page) _ _ _ ran_page,
    notes_mapM (fun key _ => notes_value (tracks.lower key.expr .sort)) _ _ _ ran_orderBy,
    notes_lowerAll (fun expr _ => tracks.lower expr _) _ _ _ ran_groupBy,
    notes_lowerOption (fun expr _ => tracks.lower expr _) _ _ _ ran_filter,
    tracks.conditions _ _ _ _ ran_source,
    notes_mapM (fun item _ => notes_value (tracks.lower item.expr .select)) _ _ _ ran_items,
    Binding.conditions_lowerTables, or_iff_right (fresh _)]
  simp only [Select.mem_clauses]
  simp [or_and_right, exists_or, or_assoc]

/-- What a part has of the notes that are left at its end: whether it searches, and side tables. -/
theorem notes_of_lower
    (ran : (part.lower schemas guardsDoubles metadata binding).run state = (.ok result, after)) :
    result.2 = after.searches ∧
      result.1.source.tables = (binding.lowerTables part.source).tables ++
        after.unnested.map fun column => ⟨column.sideTable, none⟩ := by
  obtain ⟨_, _, _, ran⟩ := run_bind ran
  obtain ⟨items, _, _, ran⟩ := run_bind ran
  obtain ⟨source, _, ran_source, ran⟩ := run_bind ran
  obtain ⟨filter, _, _, ran⟩ := run_bind ran
  obtain ⟨groupBy, _, _, ran⟩ := run_bind ran
  obtain ⟨orderBy, _, _, ran⟩ := run_bind ran
  obtain ⟨page, _, _, ran⟩ := run_bind ran
  obtain ⟨last, _, ran_last, ran⟩ := run_bind ran
  cases ran_last
  cases ran
  have same := (keeps_conditions _ (fun _ _ => keeps_trivial _) _ source _ trivial ran_source).2.1
  refine ⟨rfl, ?_⟩
  rw [Source.tables_withSideTables, same]

end

end Lowering

end TabularSql
