import TabularSql.Proofs.Lowering.Literals

/-!
# Forms of lowered expressions

What each form of expression becomes when it is lowered, said once for all forms and given what becomes of
the expressions inside. A relation between expressions that each form passes on from the expressions inside
it holds of every expression and what it is lowered to, and so of the clauses of every part of a compiled
statement.
-/

namespace TabularSql

set_option autoImplicit false

/-! ## The forms -/

theorem forall₂_origin {α β : Type} {relation : α → β → Prop} {left : List α} {right : List β}
    (pairs : List.Forall₂ relation left right) :
    ∀ result ∈ right, ∃ item ∈ left, relation item result :=
  forall₂_right pairs fun item listed _ own => ⟨item, listed, own⟩

theorem Option.rel_right {α β : Type} {relation : α → β → Prop} {one : Option α} {two : Option β}
    (related : Option.Rel relation one two) : ∀ other ∈ two, ∃ value ∈ one, relation value other := by
  simpa using forall₂_origin (rel_iff_forall₂.mp related)

theorem Option.rel_left {α β : Type} {relation : α → β → Prop} {one : Option α} {two : Option β}
    (related : Option.Rel relation one two) : ∀ value ∈ one, ∃ other ∈ two, relation value other := by
  simpa using forall₂_left (rel_iff_forall₂.mp related)

theorem forall₂_exists {α β : Type} {one : α → Prop} {two : β → Prop} {left : List α} {right : List β}
    (pairs : List.Forall₂ (fun item result => one item ↔ two result) left right) :
    (∃ item ∈ left, one item) ↔ ∃ result ∈ right, two result := by
  induction pairs with
  | nil => simp
  | cons own _ ih => simp [own, ih]

theorem Option.rel_exists {α β : Type} {one : α → Prop} {two : β → Prop} {left : Option α}
    {right : Option β} (pair : Option.Rel (fun item result => one item ↔ two result) left right) :
    (∃ item ∈ left, one item) ↔ ∃ result ∈ right, two result := by
  simpa using forall₂_exists (rel_iff_forall₂.mp pair)

namespace Expr

/-- What becomes of an expression, if the expressions inside it become what `inner` says. A subquery
becomes nothing. -/
inductive Becomes (scope : Scope) (user : Int64) (inner : Expr → Expr → Prop) : Expr → Expr → Prop where
  | literal (value : Literal) : Becomes scope user inner (.literal value) (.literal value)
  | bound (value : Literal) (index : Nat) :
      Becomes scope user inner (.literal value) (.parameter (placeholderName index))
  | column {position : Position} {reference : ColumnRef} {lowered : Expr}
      (own : reference.LowersTo scope position lowered) :
      Becomes scope user inner (.column reference) lowered
  | parameter (name : String) : Becomes scope user inner (.parameter name) (.parameter name)
  | wildcard : Becomes scope user inner .wildcard .wildcard
  | user : Becomes scope user inner .currentUser (.integer user.toInt)
  | boundUser (index : Nat) :
      Becomes scope user inner .currentUser (.parameter (placeholderName index))
  | call (name : String) (distinct : Bool) {arguments lowered : List Expr}
      (each : List.Forall₂ inner arguments lowered) :
      Becomes scope user inner (.call name distinct arguments) (.call name distinct lowered)
  | cast {operand lowered : Expr} {target known : CastTarget} (own : inner operand lowered)
      (converts : target.lower scope.schemas = .ok known) :
      Becomes scope user inner (.cast operand target) (.cast lowered known)
  | caseWhen {operand first : Option Expr} {branches pairs : List (Expr × Expr)}
      {otherwise last : Option Expr} (before : Option.Rel inner operand first)
      (each : List.Forall₂ (fun branch pair => inner branch.1 pair.1 ∧ inner branch.2 pair.2) branches
        pairs)
      (behind : Option.Rel inner otherwise last) :
      Becomes scope user inner (.caseWhen operand branches otherwise) (.caseWhen first pairs last)
  | binary (operator : BinaryOperator) {left right first second : Expr} (one : inner left first)
      (two : inner right second) :
      Becomes scope user inner (.binary operator left right) (.binary operator first second)
  | unary (operator : UnaryOperator) {operand lowered : Expr} (own : inner operand lowered) :
      Becomes scope user inner (.unary operator operand) (.unary operator lowered)
  | nested {operand lowered : Expr} (own : inner operand lowered) :
      Becomes scope user inner (.nested operand) (.nested lowered)
  | isNull (negated : Bool) {tested lowered : Expr} (own : inner tested lowered) :
      Becomes scope user inner (.isNull tested negated) (.isNull lowered negated)
  | isTruth (value negated : Bool) {tested lowered : Expr} (own : inner tested lowered) :
      Becomes scope user inner (.isTruth tested value negated) (.isTruth lowered value negated)
  | between (negated : Bool) {tested low high first second third : Expr} (one : inner tested first)
      (two : inner low second) (three : inner high third) :
      Becomes scope user inner (.between tested low high negated) (.between first second third negated)
  | inList (negated : Bool) {tested first : Expr} {candidates lowered : List Expr}
      (own : inner tested first) (each : List.Forall₂ inner candidates lowered) :
      Becomes scope user inner (.inList tested candidates negated) (.inList first lowered negated)
  | like (negated : Bool) {tested pattern first second : Expr} {escape third : Option Expr}
      (one : inner tested first) (two : inner pattern second) (three : Option.Rel inner escape third) :
      Becomes scope user inner (.like tested pattern escape negated) (.like first second third negated)
  | has (negated : Bool) {tested condition : Expr} {values lowered : List Expr} {pattern : Bool}
      {form : ListForm} {column : ListColumn} (listed : tested.testedList scope form = .ok column)
      (each : List.Forall₂ inner values lowered)
      (matched : column.matching pattern lowered = .ok condition) :
      Becomes scope user inner (.has tested values pattern negated) (column.rowsWith condition negated)
  | doubleTest {test : DoubleTest} {reference : ColumnRef} {lowered : Expr}
      (own : test.lower scope reference = .ok lowered) :
      Becomes scope user inner (.doubleTest test reference) lowered
  | textMatches {text lowered : Expr} (own : inner text lowered) :
      Becomes scope user inner (.textMatches text) (.matchAgainst lowered)
  | matchAgainst {text lowered : Expr} (own : inner text lowered) :
      Becomes scope user inner (.matchAgainst text) (.matchAgainst lowered)
  | unnest {reference : ColumnRef} {column : ListColumn}
      (listed : reference.listColumn scope .unnest = .ok column) :
      Becomes scope user inner (.unnest reference) column.elementExpr

namespace Becomes

variable {scope : Scope} {user : Int64} {inner other : Expr → Expr → Prop} {whole lowered : Expr}

theorem imp (becomes : Becomes scope user inner whole lowered)
    (each : ∀ part, .expr part ∈ whole.inside → ∀ result, inner part result → other part result) :
    Becomes scope user other whole lowered := by
  have all {list results : List Expr} (pairs : List.Forall₂ inner list results)
      (listed : ∀ expr ∈ list, .expr expr ∈ whole.inside) : List.Forall₂ other list results :=
    ((List.forall₂_and_left _ _).mpr ⟨listed, pairs⟩).imp fun expr result pair =>
      each expr pair.1 result pair.2
  have optional {clause result : Option Expr} (pair : Option.Rel inner clause result)
      (given : ∀ expr ∈ clause, .expr expr ∈ whole.inside) : Option.Rel other clause result :=
    Option.rel_imp pair fun expr own => each expr (given expr own)
  cases becomes with
  | literal value => exact .literal value
  | bound value index => exact .bound value index
  | column own => exact .column own
  | parameter name => exact .parameter name
  | wildcard => exact .wildcard
  | user => exact .user
  | boundUser index => exact .boundUser index
  | call name distinct pairs => exact .call name distinct (all pairs (by simp))
  | cast own converts => exact .cast (each _ (by simp) _ own) converts
  | @caseWhen operand first branches results otherwise last before pairs behind =>
    refine .caseWhen (optional before (by simp +contextual)) ?_
      (optional behind (by simp +contextual))
    apply ((List.forall₂_and_left _ _).mpr ⟨fun _ member => member, pairs⟩).imp
    rintro branch result ⟨member, first, second⟩
    exact ⟨each _ (Expr.condition_inside member) _ first, each _ (Expr.result_inside member) _ second⟩
  | binary operator one two =>
    exact .binary operator (each _ (by simp) _ one) (each _ (by simp) _ two)
  | unary operator own => exact .unary operator (each _ (by simp) _ own)
  | nested own => exact .nested (each _ (by simp) _ own)
  | isNull negated own => exact .isNull negated (each _ (by simp) _ own)
  | isTruth value negated own => exact .isTruth value negated (each _ (by simp) _ own)
  | between negated one two three =>
    exact .between negated (each _ (by simp) _ one) (each _ (by simp) _ two)
      (each _ (by simp) _ three)
  | inList negated own pairs =>
    exact .inList negated (each _ (by simp) _ own) (all pairs (by simp +contextual))
  | like negated one two three =>
    exact .like negated (each _ (by simp) _ one) (each _ (by simp) _ two)
      (optional three (by simp +contextual))
  | has negated listed pairs matched =>
    exact .has negated listed (all pairs (by simp +contextual)) matched
  | doubleTest own => exact .doubleTest own
  | textMatches own => exact .textMatches (each _ (by simp) _ own)
  | matchAgainst own => exact .matchAgainst (each _ (by simp) _ own)
  | unnest listed => exact .unnest listed

theorem inside (becomes : Becomes scope user inner whole lowered) : ∀ part ∈ whole.inside,
    ∃ expr, part = .expr expr ∧ ((∃ reference, expr = .column reference) ∨ ∃ result, inner expr result) := by
  intro part member
  have all {list results : List Expr} (pairs : List.Forall₂ inner list results)
      (listed : part ∈ list.map Fragment.expr) : ∃ expr, part = .expr expr ∧
        ((∃ reference, expr = .column reference) ∨ ∃ result, inner expr result) := by
    obtain ⟨expr, among, rfl⟩ := List.mem_map.mp listed
    obtain ⟨result, _, own⟩ := forall₂_left pairs expr among
    exact ⟨expr, rfl, .inr ⟨result, own⟩⟩
  have optional {clause result : Option Expr} (pair : Option.Rel inner clause result)
      (listed : part ∈ clause.toList.map Fragment.expr) : ∃ expr, part = .expr expr ∧
        ((∃ reference, expr = .column reference) ∨ ∃ result, inner expr result) := by
    obtain ⟨expr, among, rfl⟩ := List.mem_map.mp listed
    obtain ⟨result, _, own⟩ := Option.rel_left pair expr (Option.mem_toList.mp among)
    exact ⟨expr, rfl, .inr ⟨result, own⟩⟩
  cases becomes with
  | literal | bound | column | parameter | wildcard | user | boundUser | doubleTest | unnest =>
    simp at member
  | call name distinct pairs => exact all pairs member
  | cast own | unary _ own | nested own | isNull _ own | isTruth _ _ own | textMatches own
  | matchAgainst own =>
    obtain rfl := List.mem_singleton.mp member
    exact ⟨_, rfl, .inr ⟨_, own⟩⟩
  | caseWhen before pairs behind =>
    rcases List.mem_append.mp member with front | last
    · rcases List.mem_append.mp front with first | among
      · exact optional before first
      · obtain ⟨branch, listed, own⟩ := List.mem_flatMap.mp among
        obtain ⟨result, _, one, two⟩ := forall₂_left pairs branch listed
        simp only [List.mem_cons, List.not_mem_nil, or_false] at own
        rcases own with rfl | rfl
        · exact ⟨_, rfl, .inr ⟨_, one⟩⟩
        · exact ⟨_, rfl, .inr ⟨_, two⟩⟩
    · exact optional behind last
  | binary operator one two =>
    simp only [Expr.inside, List.mem_cons, List.not_mem_nil, or_false] at member
    rcases member with rfl | rfl
    · exact ⟨_, rfl, .inr ⟨_, one⟩⟩
    · exact ⟨_, rfl, .inr ⟨_, two⟩⟩
  | between negated one two three =>
    simp only [Expr.inside, List.mem_cons, List.not_mem_nil, or_false] at member
    rcases member with rfl | rfl | rfl
    · exact ⟨_, rfl, .inr ⟨_, one⟩⟩
    · exact ⟨_, rfl, .inr ⟨_, two⟩⟩
    · exact ⟨_, rfl, .inr ⟨_, three⟩⟩
  | inList negated own pairs =>
    rcases List.mem_cons.mp member with rfl | behind
    · exact ⟨_, rfl, .inr ⟨_, own⟩⟩
    · exact all pairs behind
  | like negated one two three =>
    simp only [Expr.inside, List.mem_cons] at member
    rcases member with rfl | rfl | behind
    · exact ⟨_, rfl, .inr ⟨_, one⟩⟩
    · exact ⟨_, rfl, .inr ⟨_, two⟩⟩
    · exact optional three behind
  | has negated listed pairs matched =>
    rcases List.mem_cons.mp member with rfl | behind
    · obtain ⟨reference, column, _⟩ := testedList_of_ok listed
      exact ⟨_, rfl, .inl ⟨reference, column⟩⟩
    · exact all pairs behind

end Becomes

end Expr

/-! ## Positions inside an expression -/

/-- Whether the expressions inside stand where the whole expression does. Arguments, values that the elements
of a list are compared with and texts that are searched for have a position of their own. -/
def Expr.opens : Expr → Bool
  | call .. | cast .. | has .. | textMatches _ | matchAgainst _ => false
  | _ => true

/-- The expressions inside an expression at a position are lowered at such a place. -/
def Expr.Reaches (whole : Expr) (position place : Position) : Prop :=
  if whole.opens then ∃ type, place = position.comparedWith type
  else place = .argument ∨ place.isCondition = true

theorem Position.exists_comparedWith (position : Position) :
    ∃ type, position = position.comparedWith type := by
  cases position with
  | condition type => exact ⟨type, rfl⟩
  | _ => exact ⟨none, rfl⟩

/-- What becomes of an expression at a position, if the expressions inside it become what is said of their
places. -/
def Expr.BecomesAt (scope : Scope) (user : Int64) (related : Position → Expr → Expr → Prop)
    (position : Position) (whole lowered : Expr) : Prop :=
  Expr.Becomes scope user (fun part result => ∃ place, whole.Reaches position place ∧
      related place part result) whole lowered ∧
    ∀ reference, whole = .column reference → reference.lower scope position = .ok lowered

theorem Expr.BecomesAt.becomes {scope : Scope} {user : Int64} {inner : Expr → Expr → Prop}
    {position : Position} {whole lowered : Expr}
    (becomes : BecomesAt scope user (fun _ => inner) position whole lowered) :
    Becomes scope user inner whole lowered := by
  apply becomes.1.imp
  rintro part _ result ⟨_, _, own⟩
  exact own

/-! ## Steps that relate what they are given to their value -/

/-- The user who asks is known, and the list columns that were noted are columns of bound tables. -/
structure LoweringState.Serves (user : Int64) (binding : Binding) (state : LoweringState) : Prop where
  asks : state.context.userId = user
  lists : state.Lists binding

namespace Lowering

variable {α β : Type} {invariant : LoweringState → Prop}

theorem Keeps.mono {step : Lowering α} {property weaker : α → Prop}
    (keeps : Keeps invariant step property) (each : ∀ value, property value → weaker value) :
    Keeps invariant step weaker := by
  intro state value after before ran
  obtain ⟨kept, holds⟩ := keeps state value after before ran
  exact ⟨kept, each value holds⟩

theorem keeps_pairs {step : α → Lowering β} {related : α → β → Prop} {items : List α}
    (each : ∀ item ∈ items, Keeps invariant (step item) (related item)) :
    Keeps invariant (items.mapM step) (List.Forall₂ related items) := by
  induction items with
  | nil => exact keeps_pure .nil
  | cons item items ih =>
    rw [List.mapM_cons]
    apply keeps_bind (each item List.mem_cons_self)
    intro first own
    apply keeps_bind (ih fun other member => each other (List.mem_cons_of_mem _ member))
    intro rest others
    exact keeps_pure (.cons own others)

theorem keeps_pair {step : α → Lowering β} {related : α → β → Prop} {optional : Option α}
    (each : ∀ item ∈ optional, Keeps invariant (step item) (related item)) :
    Keeps invariant (optional.mapM step) (Option.Rel related optional) := by
  cases optional with
  | none => exact keeps_pure .none
  | some item =>
    show Keeps invariant (some <$> step item) _
    rw [map_eq_pure_bind]
    exact keeps_bind (each item rfl) fun value own => keeps_pure (.some own)

/-- A step that starts over: the reset state has an invariant of its own while the step runs. -/
theorem keeps_afresh {weak : LoweringState → Prop} {change : LoweringState → LoweringState}
    {next : Lowering α} {property : α → Prop} (resets : ∀ state, weak state → invariant (change state))
    (weakens : ∀ state, invariant state → weak state) (rest : Keeps invariant next property) :
    Keeps weak (modify change >>= fun _ => next) property := by
  intro state value after before ran
  obtain ⟨_, middle, reset, ran⟩ := run_bind ran
  cases reset
  obtain ⟨kept, holds⟩ := rest _ value after (resets state before) ran
  exact ⟨weakens after kept, holds⟩

section

variable {scope : Scope} {user : Int64} {inner : Expr → Expr → Prop}

theorem keeps_lowerPairs {position : Position} {list : List Expr}
    (each : ∀ expr ∈ list, Keeps invariant (expr.lower scope position) (inner expr)) :
    Keeps invariant (Expr.lowerAll scope position list) (List.Forall₂ inner list) := by
  rw [Expr.lowerAll_eq_mapM]
  exact keeps_pairs each

theorem keeps_lowerPair {position : Position} {optional : Option Expr}
    (each : ∀ expr ∈ optional, Keeps invariant (expr.lower scope position) (inner expr)) :
    Keeps invariant (Expr.lowerOption scope position optional) (Option.Rel inner optional) := by
  rw [Expr.lowerOption_eq_mapM]
  exact keeps_pair each

theorem keeps_branchPairs {tested result : Position} {branches : List (Expr × Expr)}
    (each : ∀ branch ∈ branches, Keeps invariant (branch.1.lower scope tested) (inner branch.1) ∧
      Keeps invariant (branch.2.lower scope result) (inner branch.2)) :
    Keeps invariant (Expr.lowerBranches scope tested result branches)
      (List.Forall₂ (fun branch pair => inner branch.1 pair.1 ∧ inner branch.2 pair.2) branches) := by
  rw [Expr.lowerBranches_eq_mapM]
  refine keeps_pairs fun branch member => ?_
  obtain ⟨first, second⟩ := each branch member
  apply keeps_bind first
  intro _ one
  apply keeps_bind second
  intro _ two
  exact keeps_pure ⟨one, two⟩

theorem keeps_placeholder {binding : Binding} (value : ParameterValue) :
    Keeps (LoweringState.Serves user binding) (bind value) fun lowered =>
      ∃ index, lowered = .parameter (placeholderName index) := by
  intro state result after before ran
  cases ran
  exact ⟨⟨before.asks, before.lists⟩, _, rfl⟩

theorem keeps_noteSearch {binding : Binding} :
    Keeps (LoweringState.Serves user binding) noteSearch fun _ => True :=
  keeps_modify fun _ serves => ⟨serves.asks, serves.lists⟩

theorem keeps_noteUnnested {binding : Binding} {column : ListColumn} (of : column.Of binding) :
    Keeps (LoweringState.Serves user binding) (noteUnnested column) fun _ => True := by
  apply keeps_modify
  intro state serves
  split
  · exact serves
  · refine ⟨serves.asks, fun other member => ?_⟩
    rcases List.mem_append.mp member with before | added
    · exact serves.lists other before
    · rw [List.mem_singleton.mp added]
      exact of

/-- An expression becomes what its form says, once the expressions inside it are related to what they are
lowered to. -/
theorem keeps_becomes {whole : Expr} {position : Position}
    (each : ∀ part, .expr part ∈ whole.inside → ∀ place, whole.Reaches position place →
      Keeps (LoweringState.Serves user scope.binding) (part.lower scope place) (inner part)) :
    Keeps (LoweringState.Serves user scope.binding) (whole.lower scope position)
      (Expr.Becomes scope user inner whole) := by
  have same := position.exists_comparedWith
  cases whole with
  | literal value =>
    have kept : Keeps (LoweringState.Serves user scope.binding) (pure (.literal value))
        (Expr.Becomes scope user inner (.literal value)) := keeps_pure (.literal value)
    show Keeps _ (value.lower position) _
    unfold Literal.lower
    split
    · split
      · apply (keeps_placeholder _).mono
        rintro _ ⟨index, rfl⟩
        exact .bound value index
      · exact kept
    · exact kept
  | column reference => exact keeps_lift fun lowered ok => .column (ColumnRef.lowersTo_of_ok ok)
  | parameter name => exact keeps_pure (.parameter name)
  | wildcard => exact keeps_pure .wildcard
  | currentUser =>
    rw [Expr.lower]
    apply keeps_bind keeps_get
    intro state serves
    split
    · apply (keeps_placeholder _).mono
      rintro _ ⟨index, rfl⟩
      exact .boundUser index
    · rw [serves.asks]
      exact keeps_pure .user
  | call name distinct arguments =>
    apply keeps_bind (keeps_lowerPairs fun expr member => each expr (by simpa) _ (.inl rfl))
    intro lowered own
    exact keeps_pure (.call name distinct own)
  | cast operand target =>
    apply keeps_bind (each operand (by simp) _ (.inl rfl))
    intro lowered own
    apply keeps_bind (keeps_lift fun known ok => ok)
    intro known ok
    exact keeps_pure (.cast own ok)
  | caseWhen operand branches otherwise =>
    apply keeps_bind (keeps_lowerPair fun expr given => each expr (by cases given; simp) _ (Exists.intro _ rfl))
    intro first before
    apply keeps_bind
    · apply keeps_branchPairs
      intro branch member
      exact ⟨each _ (Expr.condition_inside member) _ (Exists.intro _ rfl),
        each _ (Expr.result_inside member) _ same⟩
    intro pairs own
    apply keeps_bind (keeps_lowerPair fun expr given => each expr (by cases given; simp) _ same)
    intro last behind
    exact keeps_pure (.caseWhen before own behind)
  | binary operator left right =>
    apply keeps_bind (each left (by simp) _ (Exists.intro _ rfl))
    intro first one
    apply keeps_bind (each right (by simp) _ (Exists.intro _ rfl))
    intro second two
    exact keeps_pure (.binary operator one two)
  | unary operator operand =>
    apply keeps_bind (each operand (by simp) _ ?_)
    rotate_left
    · split
      · exact Exists.intro none rfl
      · exact same
    intro lowered own
    exact keeps_pure (.unary operator own)
  | nested operand =>
    apply keeps_bind (each operand (by simp) _ same)
    intro lowered own
    exact keeps_pure (.nested own)
  | isNull tested negated =>
    apply keeps_bind (each tested (by simp) _ (Exists.intro _ rfl))
    intro lowered own
    exact keeps_pure (.isNull negated own)
  | isTruth tested value negated =>
    apply keeps_bind (each tested (by simp) _ (Exists.intro _ rfl))
    intro lowered own
    exact keeps_pure (.isTruth value negated own)
  | between tested low high negated =>
    apply keeps_bind (each tested (by simp) _ (Exists.intro _ rfl))
    intro first one
    apply keeps_bind (each low (by simp) _ (Exists.intro _ rfl))
    intro second two
    apply keeps_bind (each high (by simp) _ (Exists.intro _ rfl))
    intro third three
    exact keeps_pure (.between negated one two three)
  | inList tested candidates negated =>
    apply keeps_bind (each tested (by simp) _ (Exists.intro _ rfl))
    intro first own
    apply keeps_bind (keeps_lowerPairs fun expr member => each expr (by simp [member]) _ (Exists.intro _ rfl))
    intro list others
    exact keeps_pure (.inList negated own others)
  | inQuery tested candidates negated =>
    intro state value after _ ran
    cases ran
  | like tested pattern escape negated =>
    apply keeps_bind (each tested (by simp) _ (Exists.intro _ rfl))
    intro first one
    apply keeps_bind (each pattern (by simp) _ (Exists.intro _ rfl))
    intro second two
    apply keeps_bind (keeps_lowerPair fun expr given => each expr (by cases given; simp) _ (Exists.intro _ rfl))
    intro third three
    exact keeps_pure (.like negated one two three)
  | has tested values pattern negated =>
    apply keeps_bind (keeps_lift fun column ok => ok)
    intro column listed
    apply keeps_bind (keeps_lowerPairs fun expr member => each expr (by simp [member]) _ (.inr rfl))
    intro list others
    apply keeps_bind (keeps_lift fun condition ok => ok)
    intro condition matched
    exact keeps_pure (.has negated listed others matched)
  | doubleTest test reference => exact keeps_lift fun lowered ok => .doubleTest ok
  | textMatches text =>
    apply keeps_bind (each text (by simp) _ (.inr rfl))
    intro lowered own
    apply keeps_bind keeps_noteSearch
    intro _ _
    exact keeps_pure (.textMatches own)
  | matchAgainst text =>
    apply keeps_bind (each text (by simp) _ (.inr rfl))
    intro lowered own
    apply keeps_bind keeps_noteSearch
    intro _ _
    exact keeps_pure (.matchAgainst own)
  | unnest reference =>
    apply keeps_bind (keeps_lift fun column ok => ok)
    intro column listed
    apply keeps_bind (keeps_noteUnnested (ColumnRef.of_listColumn listed))
    intro _ _
    exact keeps_pure (.unnest listed)

/-- A relation that every form passes on at each position holds of an expression and what it is lowered
to there. -/
theorem keeps_relatedAt {related : Position → Expr → Expr → Prop}
    (passes : ∀ position whole lowered, Expr.BecomesAt scope user related position whole lowered →
      related position whole lowered) (position : Position) (whole : Expr) :
    Keeps (LoweringState.Serves user scope.binding) (whole.lower scope position)
      (related position whole) := by
  induction whole using Fragment.expr_induction generalizing position with
  | step expr ih =>
    intro state lowered after serves ran
    have inside : ∀ part, .expr part ∈ expr.inside → ∀ place, expr.Reaches position place →
        Keeps (LoweringState.Serves user scope.binding) (part.lower scope place) fun result =>
          ∃ place, expr.Reaches position place ∧ related place part result := fun part member place reaches =>
      (ih part member place).mono fun _ own => ⟨place, reaches, own⟩
    obtain ⟨kept, becomes⟩ := keeps_becomes inside state lowered after serves ran
    refine ⟨kept, passes position expr lowered ⟨becomes, ?_⟩⟩
    rintro reference rfl
    exact (run_lift ran).1

end

end Lowering

/-! ## Parts -/

/-- An item with its alias as it is put out. -/
def SelectItem.Becomes (related : Expr → Expr → Prop) (item lowered : SelectItem) : Prop :=
  related item.expr lowered.expr ∧ lowered.alias? = item.alias?.map Identifier.asOutput

/-- A row count, and the placeholder of its value. -/
def Expr.Counts (expr lowered : Expr) : Prop :=
  (∃ count, Page.rowCount expr = .ok count) ∧ ∃ index, lowered = .parameter (placeholderName index)

/-- What becomes of the clauses of a part: its expressions are related, each at the position of its clause, to
those that stand in their places, metadata columns follow the select list, and the tables are bound ones with
side tables behind them. -/
structure Select.BecomesAt (related : Position → Expr → Expr → Prop) (metadata : List RowMetadata)
    (binding : Binding) (part lowered : Select) : Prop where
  items : ∃ own, lowered.projection =
      .items (own ++ metadata.map fun column => ⟨column.expr binding, none⟩) ∧
    List.Forall₂ (SelectItem.Becomes (related .select)) part.projection.itemList own
  source : ∃ clause columns, lowered.source = Source.withSideTables clause columns ∧
    (binding.lowerTables part.source).Related (related (.condition none)) clause ∧
      ∀ column ∈ columns, column.Of binding
  definingFilter : lowered.definingFilter = part.definingFilter
  filter : Option.Rel (related (.condition none)) part.filter lowered.filter
  groupBy : List.Forall₂ (related .sort) part.groupBy lowered.groupBy
  orderBy : List.Forall₂ (SortKey.Related (related .sort)) part.orderBy lowered.orderBy
  page : Option.Rel (Page.Related Expr.Counts) part.page lowered.page

/-- The same, for a relation that does not depend on the position. -/
abbrev Select.Becomes (related : Expr → Expr → Prop) (metadata : List RowMetadata) (binding : Binding)
    (part lowered : Select) : Prop :=
  Select.BecomesAt (fun _ => related) metadata binding part lowered

theorem Source.Related.pairs {conditions : Expr → Expr → Prop} {one two : Source}
    (related : one.Related conditions two) : List.Forall₂ conditions one.conditions two.conditions := by
  induction related with
  | table only => exact .nil
  | join kind right _ condition ih => exact List.rel_append ih (.cons condition .nil)

/-- The expressions of the clauses, row counts apart. -/
def Select.clauses (select : Select) : List Expr := { select with page := none : Select }.exprs

theorem Select.mem_clauses {select : Select} {expr : Expr} : expr ∈ select.clauses ↔
    (∃ item ∈ select.projection.itemList, item.expr = expr) ∨ expr ∈ select.source.conditions ∨
      expr ∈ select.definingFilter ∨ expr ∈ select.filter ∨ expr ∈ select.groupBy ∨
      ∃ key ∈ select.orderBy, key.expr = expr := by
  rw [clauses, mem_exprs]
  simp

theorem Select.mem_exprs_iff {select : Select} {expr : Expr} : expr ∈ select.exprs ↔
    expr ∈ select.clauses ∨ ∃ page ∈ select.page, expr ∈ page.exprs := by
  simp only [mem_exprs, mem_clauses, or_assoc]

theorem Select.BoundAs.definingFilter {schemas : Schemas} {part : Select} {bound : Binding × Select}
    (boundAs : part.BoundAs schemas bound) : bound.2.definingFilter = part.definingFilter := by
  obtain ⟨_, _, _, same, _⟩ := boundAs
  rw [same]

/-- Binding adds nothing to the clauses but the columns of a star. -/
theorem Select.BoundAs.clauses {schemas : Schemas} {part : Select} {bound : Binding × Select}
    (boundAs : part.BoundAs schemas bound) : (∀ expr ∈ part.clauses, expr ∈ bound.2.clauses) ∧
      ∀ expr ∈ bound.2.clauses, expr ∈ part.clauses ∨
        ∃ qualifier name, expr = .column ⟨qualifier, .doubleQuoted name⟩ := by
  obtain ⟨binding, select⟩ := bound
  obtain ⟨_, projection, page, rfl, ⟨rfl, _⟩ | ⟨items, star, all, rfl⟩⟩ := boundAs
  · exact ⟨fun expr member => member, fun expr member => .inl member⟩
  · refine ⟨fun expr member => ?_, fun expr member => ?_⟩
    · rcases mem_clauses.mp member with ⟨item, among, rfl⟩ | rest
      · simp [all, Projection.itemList] at among
      · exact mem_clauses.mpr (.inr rest)
    · rcases mem_clauses.mp member with ⟨item, among, rfl⟩ | rest
      · obtain ⟨table, _, column, _, rfl⟩ := Binding.star_columns star item among
        exact .inr ⟨_, _, rfl⟩
      · exact .inl (mem_clauses.mpr (.inr rest))

/-- The condition under which the side table of a list column is joined. -/
def ListColumn.joined (column : ListColumn) : Expr :=
  .equals (.column (Physical.metadataRef (some column.owner) .rowId))
    (.column (.plain (some column.sideTable) (Physical.elementRow column.id)))

namespace Select.Becomes

variable {related : Expr → Expr → Prop} {metadata : List RowMetadata} {binding : Binding}
  {part lowered : Select}

theorem exprs (becomes : part.Becomes related metadata binding lowered)
    (undefined : part.definingFilter = none) {expr : Expr} (member : expr ∈ lowered.exprs) :
    (∃ own ∈ part.clauses, related own expr) ∨ (∃ column ∈ metadata, expr = column.expr binding) ∨
      (∃ column : ListColumn, column.Of binding ∧ ⟨column.sideTable, none⟩ ∈ lowered.source.tables ∧
        expr = column.joined) ∨ ∃ index, expr = .parameter (placeholderName index) := by
  obtain ⟨⟨items, projection, listed⟩, ⟨clause, columns, source, conditions, of⟩, defining, filter, groupBy,
    orderBy, page⟩ := becomes
  rcases mem_exprs.mp member with ⟨item, among, rfl⟩ | condition | defined | filtered | grouped |
    ⟨key, sorted, rfl⟩ | ⟨window, given, counted⟩
  · rw [projection, Projection.itemList, List.mem_append] at among
    rcases among with own | added
    · obtain ⟨before, inPart, pair⟩ := forall₂_origin listed item own
      exact .inl ⟨_, mem_clauses.mpr (.inl ⟨before, inPart, rfl⟩), pair.1⟩
    · obtain ⟨column, inMetadata, rfl⟩ := List.mem_map.mp added
      exact .inr (.inl ⟨column, inMetadata, rfl⟩)
  · rw [source, Source.conditions_withSideTables, List.mem_append] at condition
    rcases condition with own | added
    · obtain ⟨before, inPart, pair⟩ := forall₂_origin conditions.pairs expr own
      rw [Binding.conditions_lowerTables] at inPart
      exact .inl ⟨before, mem_clauses.mpr (.inr (.inl inPart)), pair⟩
    · obtain ⟨column, inColumns, rfl⟩ := List.mem_map.mp added
      refine .inr (.inr (.inl ⟨column, of column inColumns, ?_, rfl⟩))
      rw [source, Source.tables_withSideTables]
      exact List.mem_append_right _ (List.mem_map_of_mem inColumns)
  · rw [defining, undefined] at defined
    cases defined
  · obtain ⟨before, inPart, pair⟩ := Option.rel_right filter expr filtered
    exact .inl ⟨before, mem_clauses.mpr (.inr (.inr (.inr (.inl inPart)))), pair⟩
  · obtain ⟨before, inPart, pair⟩ := forall₂_origin groupBy expr grouped
    exact .inl ⟨before, mem_clauses.mpr (.inr (.inr (.inr (.inr (.inl inPart))))), pair⟩
  · obtain ⟨before, inPart, pair⟩ := forall₂_origin orderBy key sorted
    exact .inl ⟨_, mem_clauses.mpr (.inr (.inr (.inr (.inr (.inr ⟨before, inPart, rfl⟩))))), pair.1⟩
  · obtain ⟨before, _, limit, offset⟩ := Option.rel_right page window given
    rcases List.mem_cons.mp counted with rfl | behind
    · exact .inr (.inr (.inr limit.2))
    · obtain ⟨_, _, own⟩ := Option.rel_right offset expr (Option.mem_toList.mp behind)
      exact .inr (.inr (.inr own.2))

/-- Every expression of the clauses is lowered, and what it becomes is among the expressions of the lowered
part. -/
theorem lowers (becomes : part.Becomes related metadata binding lowered)
    (undefined : part.definingFilter = none) {expr : Expr} (member : expr ∈ part.clauses) :
    ∃ result ∈ lowered.exprs, related expr result := by
  obtain ⟨⟨items, projection, listed⟩, ⟨clause, columns, source, conditions, _⟩, _, filter, groupBy, orderBy,
    _⟩ := becomes
  rcases mem_clauses.mp member with ⟨item, among, rfl⟩ | condition | defined | filtered | grouped |
    ⟨key, sorted, rfl⟩
  · obtain ⟨result, own, pair⟩ := forall₂_left listed item among
    refine ⟨_, item_mem ?_, pair.1⟩
    rw [projection]
    exact List.mem_append_left _ own
  · rw [← Binding.conditions_lowerTables binding] at condition
    obtain ⟨result, own, pair⟩ := forall₂_left conditions.pairs expr condition
    refine ⟨result, condition_mem ?_, pair⟩
    rw [source, Source.conditions_withSideTables]
    exact List.mem_append_left _ own
  · rw [undefined] at defined
    cases defined
  · obtain ⟨result, own, pair⟩ := Option.rel_left filter expr filtered
    exact ⟨result, filter_mem own, pair⟩
  · obtain ⟨result, own, pair⟩ := forall₂_left groupBy expr grouped
    exact ⟨result, group_mem own, pair⟩
  · obtain ⟨result, own, pair⟩ := forall₂_left orderBy key sorted
    exact ⟨_, key_mem own, pair.1⟩

end Select.Becomes

namespace Lowering

variable {scope : Scope} {user : Int64} {related : Expr → Expr → Prop}

theorem keeps_itemPair {invariant : LoweringState → Prop} {item : SelectItem}
    (own : Keeps invariant (item.expr.lower scope .select) (related item.expr)) :
    Keeps invariant (item.lower scope) (item.Becomes related) :=
  keeps_bind own fun _ holds => keeps_pure ⟨holds, rfl⟩

theorem keeps_keyPair {invariant : LoweringState → Prop} {key : SortKey}
    (own : Keeps invariant (key.expr.lower scope .sort) (related key.expr)) :
    Keeps invariant (key.lower scope) (key.Related related) :=
  keeps_bind own fun _ holds => keeps_pure ⟨holds, rfl⟩

theorem keeps_conditionPairs {invariant : LoweringState → Prop} (source : Source)
    (each : ∀ condition, Keeps invariant (condition.lower scope (.condition none)) (related condition)) :
    Keeps invariant (source.lowerConditions scope) (source.Related related) := by
  match source with
  | .table only => exact keeps_pure (.table only)
  | .join left kind right condition =>
    apply keeps_bind (keeps_conditionPairs left each)
    intro before known
    apply keeps_bind (each condition)
    intro lowered own
    exact keeps_pure (.join kind right known own)

theorem keeps_pagePairs {binding : Binding} (page : Page) :
    Keeps (LoweringState.Serves user binding) page.lower (Page.Related Expr.Counts page) := by
  have count (expr : Expr) :
      Keeps (LoweringState.Serves user binding) (Page.lowerCount expr) expr.Counts := by
    apply keeps_bind (keeps_lift fun count ok => ok)
    intro count ok
    apply (keeps_placeholder _).mono
    intro lowered bound
    exact ⟨⟨count, ok⟩, bound⟩
  apply keeps_bind (count page.limit)
  intro limit first
  apply keeps_bind (keeps_pair fun expr _ => count expr)
  intro offset second
  exact keeps_pure ⟨first, second⟩

/-- The clauses of a part become what the relation says, once their expressions do. -/
theorem keeps_clauses {related : Position → Expr → Expr → Prop} (schemas : Schemas) (guardsDoubles : Bool)
    (metadata : List RowMetadata) (binding : Binding) (part : Select)
    (each : ∀ position expr, Keeps (LoweringState.Serves user binding)
      (Expr.lower { schemas, binding, guardsDoubles, aliases := part.aliases } position expr)
      (related position expr)) :
    Keeps (fun state => state.context.userId = user)
      (part.lower schemas guardsDoubles metadata binding) fun result =>
        part.BecomesAt related metadata binding result.1 := by
  apply @keeps_afresh _ (LoweringState.Serves user binding)
  · intro state asks
    exact ⟨asks, by simp [LoweringState.Lists]⟩
  · intro state serves
    exact serves.asks
  apply keeps_bind (keeps_pairs fun item _ => keeps_itemPair (each .select item.expr))
  intro items listed
  apply keeps_bind (keeps_conditionPairs _ (each _))
  intro source conditions
  apply keeps_bind (keeps_lowerPair fun expr _ => each _ expr)
  intro filter filtered
  apply keeps_bind (keeps_lowerPairs fun expr _ => each _ expr)
  intro groupBy grouped
  apply keeps_bind (keeps_pairs fun key _ => keeps_keyPair (each .sort key.expr))
  intro orderBy ordered
  apply keeps_bind (keeps_pair fun page _ => keeps_pagePairs page)
  intro page window
  apply keeps_bind keeps_get
  intro state serves
  exact keeps_pure ⟨⟨items, rfl, listed⟩, ⟨source, state.unnested, rfl, conditions, serves.lists⟩, rfl,
    filtered, grouped, ordered, window⟩

/-- The same for a relation that every form passes on. -/
theorem keeps_selectAt {related : Position → Expr → Expr → Prop} (schemas : Schemas) (guardsDoubles : Bool)
    (metadata : List RowMetadata) (binding : Binding) (part : Select)
    (passes : ∀ position whole lowered, Expr.BecomesAt
      { schemas, binding, guardsDoubles, aliases := part.aliases } user related position whole lowered →
        related position whole lowered) :
    Keeps (fun state => state.context.userId = user)
      (part.lower schemas guardsDoubles metadata binding) fun result =>
        part.BecomesAt related metadata binding result.1 :=
  keeps_clauses schemas guardsDoubles metadata binding part fun position expr =>
    keeps_relatedAt passes position expr

theorem keeps_select (schemas : Schemas) (guardsDoubles : Bool) (metadata : List RowMetadata)
    (binding : Binding) (part : Select)
    (passes : ∀ scope : Scope, scope.schemas = schemas → scope.binding = binding →
      ∀ whole lowered, Expr.Becomes scope user related whole lowered → related whole lowered) :
    Keeps (fun state => state.context.userId = user)
      (part.lower schemas guardsDoubles metadata binding) fun result =>
        part.Becomes related metadata binding result.1 := by
  apply keeps_selectAt
  intro position whole lowered becomes
  exact passes _ rfl rfl whole lowered becomes.becomes

end Lowering

/-! ## Statements -/

/-- A part with bound tables and row counts for its page, and what becomes of its clauses. -/
def Select.Compiles (related : Expr → Expr → Prop) (schemas : Schemas) (part lowered : Select) : Prop :=
  ∃ bound metadata, part.BoundAs schemas bound ∧ (∀ page ∈ part.page, page.Counted) ∧
    bound.2.Becomes related metadata bound.1 lowered

/-- A common table that is put out under the name or as a table of the store, with its columns under the
names of the store. -/
def CommonTable.Puts (name : Identifier) (element : CommonTable) : Prop :=
  (element.name = name ∨ ∃ id, element.name = ⟨Physical.table id, none⟩) ∧
    ∀ column ∈ element.columns, ∃ id, column = ⟨Physical.column id, none⟩

/-- A query that is compiled as it is written, together with the query of its common table. -/
inductive Query.Compiles (related : Select → Select → Prop) : Query → Query → Prop where
  | plain {query lowered : Query} (clause : query.commonTables = none)
      (also : lowered.commonTables = none)
      (undefined : ∀ part ∈ query.parts, part.definingFilter = none)
      (parts : List.Forall₂ related query.parts lowered.parts) : Query.Compiles related query lowered
  | layered {query lowered : Query} {element compiled : CommonTable}
      (clause : query.commonTables = some [element]) (also : lowered.commonTables = some [compiled])
      (puts : compiled.Puts element.name)
      (inside : Query.Compiles related element.query compiled.query)
      (undefined : ∀ part ∈ query.parts, part.definingFilter = none)
      (parts : List.Forall₂ related query.parts lowered.parts) : Query.Compiles related query lowered

theorem CompiledQuery.puts_of_ok {name : Identifier} {inner : CompiledQuery} {element : CommonTable}
    (ok : inner.toCommonTable name = .ok element) : element.Puts name := by
  obtain ⟨columns, listed, ok⟩ := Except.of_bind ok
  cases ok
  constructor
  · cases known : TableId.ofText? name.name with
    | none => exact .inl rfl
    | some id => exact .inr ⟨id, rfl⟩
  · show ∀ column ∈ columns, ∃ id, column = ⟨Physical.column id, none⟩
    refine forall₂_right (Except.forall₂_of_mapM listed) fun model _ column own => ?_
    split at own <;> cases own
    exact ⟨_, rfl⟩

theorem Page.counted_of_related {page lowered : Page} (counts : page.Related Expr.Counts lowered) :
    page.Counted := by
  refine ⟨counts.1.1, fun expr given => ?_⟩
  obtain ⟨_, _, own⟩ := Option.rel_left counts.2 expr given
  exact own.1

namespace Compiler

open Lowering

variable {compiler : Compiler} {user : Int64} {related : Expr → Expr → Prop}
  (passes : ∀ (scope : Scope) (source : Source), scope.schemas = compiler.schemas →
    Binding.ofSource compiler.schemas source = .ok scope.binding →
    ∀ whole lowered, Expr.Becomes scope user related whole lowered → related whole lowered)

include passes

theorem keeps_compileParts (role : Role) (description : IndexDescription) (query : Query)
    (inner : Option CompiledQuery) :
    Keeps (fun state => state.context.userId = user)
      (compiler.compileParts role description query inner) fun compiled =>
        compiled.query.commonTables = query.commonTables ∧
          List.Forall₂ (Select.Compiles related compiler.schemas) query.parts compiled.query.parts := by
  apply keeps_bind (keeps_lift fun parts ok => ok)
  intro parts binds
  apply keeps_bind (keeps_lift fun metadata ok => ok)
  intro metadata _
  apply keeps_bind (keeps_lift fun paged ok => ok)
  intro paged pages
  have boundAs := boundAs_of_ok binds pages
  have bound : ∀ part ∈ paged, ∃ source, Binding.ofSource compiler.schemas source = .ok part.1 :=
    forall₂_right boundAs fun part _ _ own => ⟨part.source, own.1⟩
  apply keeps_bind (keeps_pairs fun part member => ?_)
  rotate_left
  · exact fun part result => part.2.Becomes related metadata part.1 result.1
  · obtain ⟨source, known⟩ := bound part member
    exact keeps_select _ _ _ _ _ fun scope schemas binding => passes scope source schemas (binding ▸ known)
  intro lowered becomes
  apply keeps_pure
  have count := boundAs.length_eq.trans becomes.length_eq
  refine ⟨by simp, ?_⟩
  rw [Query.parts_withParts (by simpa using count.symm), List.forall₂_map_right_iff]
  have counted : ∀ part ∈ query.parts, ∀ page ∈ part.page, page.Counted := by
    refine counted_of_bound binds pages fun part member page given => ?_
    obtain ⟨result, _, clauses⟩ := forall₂_left becomes part member
    obtain ⟨_, _, counts⟩ := Option.rel_left clauses.page page given
    exact Page.counted_of_related counts
  apply forall₂_compose ((List.forall₂_and_left _ _).mpr ⟨counted, boundAs⟩) becomes
  rintro part _ own result ⟨counts, binds⟩ clauses
  exact ⟨own, metadata, binds, counts, clauses⟩

theorem keeps_layOut {lookup : List IndexDescription} {sqlContext : SqlContext} {context : BindingContext}
    {description : IndexDescription} {query : Query} {plan : Plan} (stored : description.isVirtual = false)
    (laid : Plan.layOut lookup sqlContext context description query = .ok plan) (role : Role) :
    Keeps (fun state => state.context.userId = user) (compiler.compilePlan role plan) fun compiled =>
      query.Compiles (Select.Compiles related compiler.schemas) compiled.query := by
  replace laid := Plan.laidOut_of_ok laid
  induction laid generalizing role with
  | plain checked clause =>
    obtain ⟨rfl, undefined⟩ :=
      IndexDescription.prepare_stored stored (IndexDescription.prepare_of_checked checked)
    apply (keeps_compileParts passes role _ _ none).mono
    rintro compiled ⟨also, parts⟩
    exact .plain clause (also.trans clause) undefined parts
  | layered checked clause _ found _ _ ih =>
    obtain ⟨rfl, undefined⟩ :=
      IndexDescription.prepare_stored stored (IndexDescription.prepare_of_checked checked)
    obtain rfl := Plan.dependency_of_stored stored found
    apply keeps_bind (ih rfl .definition)
    intro below compiles
    apply keeps_bind (keeps_lift fun element ok => ok)
    intro put ok
    apply (keeps_compileParts passes role _ _ (some below)).mono
    rintro compiled ⟨also, parts⟩
    rw [← CompiledQuery.toCommonTable_query ok] at compiles
    exact .layered clause also (CompiledQuery.puts_of_ok ok) compiles undefined parts

theorem compiles_of_ok {query : Query} {statement : Statement}
    (stored : compiler.description.isVirtual = false) (asks : compiler.userId = user)
    (ok : compiler.compileQuery query = .ok statement) :
    query.Compiles (Select.Compiles related compiler.schemas) statement.compiled.query := by
  obtain ⟨plan, state, planned, ran⟩ := run_of_compileQuery ok
  obtain ⟨entered, _, laid⟩ := Except.of_bind planned
  exact (keeps_layOut passes stored laid .statement _ _ state asks ran).2

end Compiler

end TabularSql
