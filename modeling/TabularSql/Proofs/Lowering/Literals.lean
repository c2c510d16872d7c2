import TabularSql.Proofs.Lowering.Parallel
import TabularSql.Proofs.Lowering.Parameters

/-!
# Bound literals

Number and string literals in the conditions of a query become bound values, wherever no call or CAST
stands above them. What they are makes no difference to the statement: it reaches the types that their
neighbours are compared with, and these reach bound values only. A masked expression has a blank in the
place of each such literal; lowering an expression and its masked form gives the same result. A subquery
cannot be lowered, so it does not matter either.
-/

namespace TabularSql

set_option autoImplicit false

/-- A literal without the contents and the kind that are lost when it is bound. -/
def Literal.blank : Literal → Literal
  | .number _ | .string _ => .string ""
  | other => other

/-- A query that stands for any subquery. -/
def Query.blank : Query := .single (.simple .all (.named ""))

mutual

/-- The expression with a blank for every bound literal, if `bound` is set, and for every subquery.
Literals beneath a call or a CAST are not bound; a subquery is never lowered. -/
def Expr.masked (bound : Bool) : Expr → Expr
  | .literal value => .literal (if bound then value.blank else value)
  | .column reference => .column reference
  | .parameter name => .parameter name
  | .currentUser => .currentUser
  | .wildcard => .wildcard
  | .call name distinct arguments => .call name distinct (Expr.maskedAll false arguments)
  | .cast operand target => .cast (operand.masked false) target
  | .caseWhen operand branches otherwise =>
    .caseWhen (Expr.maskedOption bound operand) (Expr.maskedBranches bound branches)
      (Expr.maskedOption bound otherwise)
  | .binary operator left right => .binary operator (left.masked bound) (right.masked bound)
  | .unary operator operand => .unary operator (operand.masked bound)
  | .nested inner => .nested (inner.masked bound)
  | .isNull tested negated => .isNull (tested.masked bound) negated
  | .isTruth tested value negated => .isTruth (tested.masked bound) value negated
  | .between tested low high negated =>
    .between (tested.masked bound) (low.masked bound) (high.masked bound) negated
  | .inList tested candidates negated =>
    .inList (tested.masked bound) (Expr.maskedAll bound candidates) negated
  | .inQuery tested _ negated => .inQuery (tested.masked bound) .blank negated
  | .like tested pattern escape negated =>
    .like (tested.masked bound) (pattern.masked bound) (Expr.maskedOption bound escape) negated
  | .has tested values pattern negated =>
    .has (tested.masked bound) (Expr.maskedAll bound values) pattern negated
  | .doubleTest test reference => .doubleTest test reference
  | .textMatches text => .textMatches (text.masked bound)
  | .matchAgainst text => .matchAgainst (text.masked bound)
  | .unnest reference => .unnest reference

def Expr.maskedAll (bound : Bool) : List Expr → List Expr
  | [] => []
  | expr :: rest => expr.masked bound :: Expr.maskedAll bound rest

def Expr.maskedOption (bound : Bool) : Option Expr → Option Expr
  | none => none
  | some expr => some (expr.masked bound)

def Expr.maskedBranches (bound : Bool) : List (Expr × Expr) → List (Expr × Expr)
  | [] => []
  | (condition, result) :: rest =>
    (condition.masked bound, result.masked bound) :: Expr.maskedBranches bound rest

end

/-- Expressions that are equal but for bound literals, if `bound` is set, and for subqueries. -/
def Expr.Alike (bound : Bool) (one two : Expr) : Prop := one.masked bound = two.masked bound

/-! ## Lowering a masked expression -/

/-- Positions at which an expression and its masked form are lowered alike: in conditions the types to
compare with may differ, and outside conditions no literal is bound. -/
inductive Position.Kin (bound : Bool) : Position → Position → Prop where
  | same (position : Position) (unbound : bound = false) : Position.Kin bound position position
  | conditions (one two : Option ColumnType) :
      Position.Kin bound (.condition one) (.condition two)

namespace Position.Kin

variable {bound : Bool} {one two : Position}

theorem comparedWith (kin : Position.Kin bound one two) (type other : Option ColumnType) :
    Position.Kin bound (one.comparedWith type) (two.comparedWith other) := by
  cases kin with
  | conditions => exact .conditions type other
  | same _ unbound =>
    cases one with
    | condition => exact .conditions type other
    | _ => exact .same _ unbound

theorem isCondition (kin : Position.Kin bound one two) : one.isCondition = two.isCondition := by
  cases kin <;> rfl

theorem column (kin : Position.Kin bound one two) (scope : Scope) (reference : ColumnRef) :
    reference.lower scope one = reference.lower scope two := by
  cases kin with
  | same => rfl
  | conditions =>
    have apart (compared : Option ColumnType) : decide (Position.condition compared = .select) = false :=
      decide_eq_false (by simp)
    simp only [ColumnRef.lower, ColumnRef.lowerUnresolved, apart]

end Position.Kin

/-- Any two values may be bound in the place of one another. -/
def ParameterValue.Any (_ _ : ParameterValue) : Prop := True

/-- The expression and its masked forms are lowered alike; if they are lowered, there are no subqueries in
it. -/
def Expr.Blind (scope : Scope) (expr : Expr) : Prop :=
  ∀ (bound : Bool) (one two : Position), Position.Kin bound one two →
    Lowering.Matches ParameterValue.Any (expr.lower scope one) ((expr.masked bound).lower scope two)
      fun left right => left = right ∧ expr.masked false = expr

/-- The expression is lowered at some place of a run. -/
def Expr.IsRun (expr : Expr) : Prop :=
  ∃ scope position lowered state after, (expr.lower scope position).run state = (.ok lowered, after)

namespace Lowering

variable {scope : Scope} {bound : Bool} {one two : Position}

theorem matches_literal (kin : Position.Kin bound one two) (value : Literal) :
    Matches ParameterValue.Any (value.lower one)
      (Literal.lower two (if bound then value.blank else value)) Eq := by
  have bounds (first second : Option ColumnType) :
      Matches ParameterValue.Any (value.lower (.condition first))
        (Literal.lower (.condition second) (if bound then value.blank else value)) Eq := by
    cases value with
    | null | boolean => cases bound <;> exact matches_pure rfl
    | number | string => cases bound <;> cases first <;> cases second <;> exact matches_bound trivial
  cases kin with
  | conditions => exact bounds _ _
  | same _ unbound =>
    cases one with
    | condition => exact bounds _ _
    | _ =>
      rw [unbound]
      exact matches_pure rfl

theorem matches_currentUser (kin : Position.Kin bound one two) :
    Matches ParameterValue.Any (Expr.lower scope one .currentUser) (Expr.lower scope two .currentUser)
      Eq := by
  apply matches_bind matches_get
  intro first second paired
  rw [paired.userId, kin.isCondition]
  cases two.isCondition with
  | true => exact matches_bound trivial
  | false => exact matches_pure rfl

theorem matches_maskedAll (kin : Position.Kin bound one two) {exprs : List Expr}
    (each : ∀ expr ∈ exprs, expr.Blind scope) :
    Matches ParameterValue.Any (Expr.lowerAll scope one exprs)
      (Expr.lowerAll scope two (Expr.maskedAll bound exprs))
      fun left right => left = right ∧ Expr.maskedAll false exprs = exprs := by
  induction exprs with
  | nil => exact matches_pure ⟨rfl, rfl⟩
  | cons expr exprs ih =>
    apply matches_bind (each expr List.mem_cons_self bound one two kin)
    rintro first _ ⟨rfl, own⟩
    apply matches_bind (ih fun other member => each other (List.mem_cons_of_mem _ member))
    rintro rest _ ⟨rfl, others⟩
    exact matches_pure ⟨rfl, by rw [Expr.maskedAll, own, others]⟩

theorem matches_maskedOption (kin : Position.Kin bound one two) {optional : Option Expr}
    (each : ∀ expr ∈ optional, expr.Blind scope) :
    Matches ParameterValue.Any (Expr.lowerOption scope one optional)
      (Expr.lowerOption scope two (Expr.maskedOption bound optional))
      fun left right => left = right ∧ Expr.maskedOption false optional = optional := by
  cases optional with
  | none => exact matches_pure ⟨rfl, rfl⟩
  | some expr =>
    apply matches_bind (each expr rfl bound one two kin)
    rintro value _ ⟨rfl, own⟩
    exact matches_pure ⟨rfl, by rw [Expr.maskedOption, own]⟩

theorem matches_maskedBranches {result other : Position} (kin : Position.Kin bound one two)
    (results : Position.Kin bound result other) {branches : List (Expr × Expr)}
    (each : ∀ branch ∈ branches, branch.1.Blind scope ∧ branch.2.Blind scope) :
    Matches ParameterValue.Any (Expr.lowerBranches scope one result branches)
      (Expr.lowerBranches scope two other (Expr.maskedBranches bound branches))
      fun left right => left = right ∧ Expr.maskedBranches false branches = branches := by
  induction branches with
  | nil => exact matches_pure ⟨rfl, rfl⟩
  | cons branch branches ih =>
    obtain ⟨condition, value⟩ := branch
    obtain ⟨tested, given⟩ := each _ List.mem_cons_self
    apply matches_bind (tested bound one two kin)
    rintro first _ ⟨rfl, own⟩
    apply matches_bind (given bound result other results)
    rintro second _ ⟨rfl, then_own⟩
    apply matches_bind (ih fun branch member => each branch (List.mem_cons_of_mem _ member))
    rintro rest _ ⟨rfl, others⟩
    exact matches_pure ⟨rfl, by rw [Expr.maskedBranches, own, then_own, others]⟩

/-- One case for each form of expression: the types that hints are taken from may differ, the hints end
up in bound values. -/
theorem blind_of_inside {whole : Expr}
    (inside : ∀ part, .expr part ∈ whole.inside → part.Blind scope) : whole.Blind scope := by
  intro bound one two kin
  cases whole with
  | literal value => exact (matches_literal kin value).mono fun _ _ same => ⟨same, rfl⟩
  | column reference =>
    rw [Expr.masked, Expr.lower, Expr.lower, kin.column scope reference]
    exact matches_lift (.refl (fun _ => ⟨rfl, rfl⟩) _)
  | parameter | wildcard => exact matches_pure ⟨rfl, rfl⟩
  | currentUser => exact (matches_currentUser kin).mono fun _ _ same => ⟨same, rfl⟩
  | call name distinct arguments =>
    apply matches_bind (matches_maskedAll (.same .argument rfl) fun expr member =>
      inside expr (List.mem_map_of_mem member))
    rintro lowered _ ⟨rfl, fixed⟩
    exact matches_pure ⟨rfl, by rw [Expr.masked, fixed]⟩
  | cast operand target =>
    apply matches_bind (inside operand (by simp) false .argument .argument (.same _ rfl))
    rintro lowered _ ⟨rfl, fixed⟩
    apply matches_then (matches_lift (.refl (fun _ => rfl) _))
    intro changed
    exact matches_pure ⟨rfl, by rw [Expr.masked, fixed]⟩
  | caseWhen operand branches otherwise =>
    apply matches_bind (matches_maskedOption (kin.comparedWith _ _) fun expr member =>
      inside expr (by simp [Option.mem_def.mp member]))
    rintro tested _ ⟨rfl, fixed⟩
    apply matches_bind (matches_maskedBranches (kin.comparedWith _ _) kin fun branch member =>
      ⟨inside branch.1 (by grind [Expr.inside]), inside branch.2 (by grind [Expr.inside])⟩)
    rintro lowered _ ⟨rfl, between⟩
    apply matches_bind (matches_maskedOption kin fun expr member =>
      inside expr (by simp [Option.mem_def.mp member]))
    rintro last _ ⟨rfl, behind⟩
    exact matches_pure ⟨rfl, by rw [Expr.masked, fixed, between, behind]⟩
  | binary operator left right =>
    apply matches_bind (inside left (by simp) bound _ _ (kin.comparedWith _ _))
    rintro first _ ⟨rfl, fixed⟩
    apply matches_bind (inside right (by simp) bound _ _ (kin.comparedWith _ _))
    rintro second _ ⟨rfl, behind⟩
    exact matches_pure ⟨rfl, by rw [Expr.masked, fixed, behind]⟩
  | unary operator operand =>
    have within : Position.Kin bound (if operator = .not then one.comparedWith none else one)
        (if operator = .not then two.comparedWith none else two) := by
      split
      · exact kin.comparedWith _ _
      · exact kin
    apply matches_bind (inside operand (by simp) bound _ _ within)
    rintro lowered _ ⟨rfl, fixed⟩
    exact matches_pure ⟨rfl, by rw [Expr.masked, fixed]⟩
  | nested inner =>
    apply matches_bind (inside inner (by simp) bound _ _ kin)
    rintro lowered _ ⟨rfl, fixed⟩
    exact matches_pure ⟨rfl, by rw [Expr.masked, fixed]⟩
  | isNull tested negated | isTruth tested value negated =>
    apply matches_bind (inside tested (by simp) bound _ _ (kin.comparedWith _ _))
    rintro lowered _ ⟨rfl, fixed⟩
    exact matches_pure ⟨rfl, by rw [Expr.masked, fixed]⟩
  | between tested low high negated =>
    apply matches_bind (inside tested (by simp) bound _ _ (kin.comparedWith _ _))
    rintro first _ ⟨rfl, fixed⟩
    apply matches_bind (inside low (by simp) bound _ _ (kin.comparedWith _ _))
    rintro second _ ⟨rfl, fixedLow⟩
    apply matches_bind (inside high (by simp) bound _ _ (kin.comparedWith _ _))
    rintro third _ ⟨rfl, fixedHigh⟩
    exact matches_pure ⟨rfl, by rw [Expr.masked, fixed, fixedLow, fixedHigh]⟩
  | inList tested candidates negated =>
    apply matches_bind (inside tested (by simp) bound _ _ (kin.comparedWith _ _))
    rintro first _ ⟨rfl, fixed⟩
    apply matches_bind (matches_maskedAll (kin.comparedWith _ _) fun expr member =>
      inside expr (by simp [member]))
    rintro rest _ ⟨rfl, behind⟩
    exact matches_pure ⟨rfl, by rw [Expr.masked, fixed, behind]⟩
  | inQuery tested candidates negated => exact matches_throw _
  | like tested pattern escape negated =>
    apply matches_bind (inside tested (by simp) bound _ _ (kin.comparedWith _ _))
    rintro first _ ⟨rfl, fixed⟩
    apply matches_bind (inside pattern (by simp) bound _ _ (kin.comparedWith _ _))
    rintro second _ ⟨rfl, between⟩
    apply matches_bind (matches_maskedOption (kin.comparedWith _ _) fun expr member =>
      inside expr (by simp [Option.mem_def.mp member]))
    rintro third _ ⟨rfl, behind⟩
    exact matches_pure ⟨rfl, by rw [Expr.masked, fixed, between, behind]⟩
  | has tested values pattern negated =>
    -- Only a column can be tested, and a mask leaves columns as they are.
    have lists : (tested.masked bound).testedList scope (if pattern then .hasLike else .has) =
        tested.testedList scope (if pattern then .hasLike else .has) := by
      cases tested <;> rfl
    rw [Expr.masked, Expr.lower, Expr.lower, lists]
    apply matches_after (.refl (fun _ => rfl) _)
    rintro column _ found _ rfl
    obtain ⟨reference, rfl, _⟩ := Expr.testedList_of_ok found
    apply matches_bind (matches_maskedAll (.conditions _ _) fun expr member =>
      inside expr (by simp [member]))
    rintro lowered _ ⟨rfl, fixed⟩
    apply matches_then (matches_lift (.refl (fun _ => rfl) _))
    intro condition
    exact matches_pure ⟨rfl, by rw [Expr.masked, Expr.masked, fixed]⟩
  | doubleTest test reference => exact matches_lift (.refl (fun _ => ⟨rfl, rfl⟩) _)
  | textMatches text | matchAgainst text =>
    apply matches_bind (inside text (by simp) bound _ _ (.conditions _ _))
    rintro lowered _ ⟨rfl, fixed⟩
    apply matches_then matches_noteSearch
    intro _
    exact matches_pure ⟨rfl, by rw [Expr.masked, fixed]⟩
  | unnest reference =>
    apply matches_then (matches_lift (.refl (fun _ => rfl) _))
    intro column
    apply matches_then (matches_noteUnnested column)
    intro _
    exact matches_pure ⟨rfl, rfl⟩

theorem blind (scope : Scope) (expr : Expr) : expr.Blind scope :=
  Fragment.expr_induction (fun _ => blind_of_inside) expr

/-! ## Alike expressions -/

theorem any_equivalence : Equivalence ParameterValue.Any :=
  ⟨fun _ => trivial, fun _ => trivial, fun _ _ => trivial⟩

theorem matches_alike {position : Position} (kin : Position.Kin bound position position) {one two : Expr}
    (alike : one.Alike bound two) :
    Matches ParameterValue.Any (one.lower scope position) (two.lower scope position) Eq := by
  have first := (blind scope one bound position position kin).mono fun _ _ both => both.1
  have second := (blind scope two bound position position kin).mono fun _ _ both => both.1
  rw [← alike] at second
  exact first.trans any_equivalence Eq.trans (second.symm any_equivalence)

theorem parallel_alike : Parallel ParameterValue.Any (Expr.Alike true) Eq where
  value := fun _ => trivial
  expr := fun _ position _ => @matches_alike _ false position (.same position rfl) _ _ rfl
  condition := fun _ _ _ alike => matches_alike (.conditions none none) alike
  refl := fun _ => rfl

theorem masked_of_isRun {expr : Expr} (runs : expr.IsRun) : expr.masked false = expr := by
  obtain ⟨scope, position, _, _, _, ran⟩ := runs
  obtain ⟨_, _, _, _, fixed⟩ :=
    (blind scope expr false position position (.same position rfl)).of_run (fun _ => trivial) ran
  exact fixed

theorem eq_of_isRun {one two : Expr} (alike : one.Alike false two) (runs : one.IsRun) : one = two := by
  have other : two.IsRun := by
    obtain ⟨scope, position, _, _, _, ran⟩ := runs
    obtain ⟨_, _, ran, _⟩ :=
      (@matches_alike scope _ _ (.same position rfl) _ _ alike).of_run (fun _ => trivial) ran
    exact ⟨scope, position, _, _, _, ran⟩
  calc
    one = one.masked false := (masked_of_isRun runs).symm
    _ = two.masked false := alike
    _ = two := masked_of_isRun other

end Lowering

theorem Expr.masked_parenthesized (bound : Bool) (expr : Expr) :
    expr.parenthesized.masked bound = (expr.masked bound).parenthesized := by
  cases expr <;> rfl

theorem Expr.alike_conjoined (own : Expr) {one two : Expr} (alike : one.Alike true two) :
    (Expr.and own.parenthesized one.parenthesized).Alike true
      (Expr.and own.parenthesized two.parenthesized) := by
  have same : one.masked true = two.masked true := alike
  simp only [Expr.Alike, Expr.and, Expr.masked, Expr.masked_parenthesized, same]

/-! ## Parts that are lowered -/

theorem Lowering.run_some {α β : Type} {step : α → Lowering β} {item : α} {result : Option β}
    {state after : LoweringState} (ran : ((some item).mapM step).run state = (.ok result, after)) :
    ∃ value, result = some value ∧ (step item).run state = (.ok value, after) := by
  have single : (some <$> step item).run state = (.ok result, after) := ran
  rw [map_eq_pure_bind] at single
  obtain ⟨value, between, ran, last⟩ := run_bind single
  obtain ⟨rfl, rfl⟩ := run_pure last
  exact ⟨value, rfl, ran⟩

namespace Page

def Counted (page : Page) : Prop :=
  (∃ count, rowCount page.limit = .ok count) ∧ ∀ expr ∈ page.offset, ∃ count, rowCount expr = .ok count

theorem counted_of_lowered {page lowered : Page} {state after : LoweringState}
    (ran : page.lower.run state = (.ok lowered, after)) : page.Counted := by
  have count {expr result : Expr} {start stop : LoweringState}
      (ran : (lowerCount expr).run start = (.ok result, stop)) : ∃ count, rowCount expr = .ok count := by
    obtain ⟨count, _, ran, _⟩ := Lowering.run_bind ran
    exact ⟨count, (Lowering.run_lift ran).1⟩
  obtain ⟨limit, between, ran_limit, ran⟩ := Lowering.run_bind ran
  obtain ⟨offset, last, ran_offset, _⟩ := Lowering.run_bind ran
  refine ⟨count ran_limit, fun expr given => ?_⟩
  rw [Option.mem_def.mp given] at ran_offset
  obtain ⟨_, _, ran⟩ := Lowering.run_some ran_offset
  exact count ran

theorem counted_of_window {page : Page} {counts : Option UInt64 × Option UInt64}
    (ok : window (some page) = .ok counts) : page.Counted := by
  obtain ⟨limit, own, ok⟩ := Except.of_bind ok
  obtain ⟨offset, other, _⟩ := Except.of_bind ok
  refine ⟨⟨limit, own⟩, fun expr given => ?_⟩
  rw [Option.mem_def.mp given] at other
  have single : some <$> rowCount expr = .ok offset := other
  rw [map_eq_pure_bind] at single
  obtain ⟨count, found, _⟩ := Except.of_bind single
  exact ⟨count, found⟩

theorem counted_of_paged {page : Page} {requested paged : Option Page}
    {offset limit most : Option UInt64} (within : Page.within (some page) offset limit = .ok requested)
    (capped : Page.capped requested most = .ok paged) (counted : ∀ own ∈ paged, own.Counted) :
    page.Counted := by
  unfold Page.within at within
  split at within
  · cases within
    cases most with
    | none =>
      cases capped
      exact counted page rfl
    | some most =>
      obtain ⟨own, found, capped⟩ := Except.of_bind capped
      refine ⟨⟨own, found⟩, ?_⟩
      split at capped <;> cases capped
      · exact (counted _ rfl).2
      · exact (counted _ rfl).2
  · obtain ⟨counts, windows, _⟩ := Except.of_bind within
    exact counted_of_window windows

theorem eq_of_counted {one two : Page} (related : one.Related (Expr.Alike false) two)
    (counted : one.Counted) : one.Related Eq two := by
  have count {first second : Expr} (counted : ∃ count, rowCount first = .ok count)
      (alike : first.Alike false second) : first = second := by
    obtain ⟨count, ok⟩ := counted
    unfold rowCount at ok
    split at ok
    · cases second <;> simp_all [Expr.Alike, Expr.masked]
    · cases ok
  exact ⟨count counted.1 related.1,
    Option.rel_imp related.2 fun first given second => count (counted.2 first given)⟩

end Page

theorem Select.run_clauses {schemas : Schemas} {guardsDoubles : Bool} {metadata : List RowMetadata}
    {binding : Binding} {part : Select} {result : Select × Bool} {state after : LoweringState}
    (ran : (part.lower schemas guardsDoubles metadata binding).run state = (.ok result, after)) :
    (∀ item ∈ part.projection.itemList, item.expr.IsRun) ∧ (∀ expr ∈ part.groupBy, expr.IsRun) ∧
      (∀ key ∈ part.orderBy, key.expr.IsRun) ∧ ∀ page ∈ part.page, page.Counted := by
  obtain ⟨_, _, _, ran⟩ := Lowering.run_bind ran
  obtain ⟨items, _, ran_items, ran⟩ := Lowering.run_bind ran
  obtain ⟨_, _, _, ran⟩ := Lowering.run_bind ran
  obtain ⟨_, _, _, ran⟩ := Lowering.run_bind ran
  obtain ⟨groups, _, ran_groups, ran⟩ := Lowering.run_bind ran
  obtain ⟨keys, _, ran_keys, ran⟩ := Lowering.run_bind ran
  obtain ⟨_, _, ran_page, _⟩ := Lowering.run_bind ran
  rw [Expr.lowerAll_eq_mapM] at ran_groups
  refine ⟨?_, ?_, ?_, ?_⟩
  · intro item member
    obtain ⟨_, _, _, _, ran⟩ := forall₂_left (Lowering.run_mapM ran_items) item member
    obtain ⟨_, _, ran, _⟩ := Lowering.run_bind ran
    exact ⟨_, _, _, _, _, ran⟩
  · intro expr member
    obtain ⟨_, _, _, _, ran⟩ := forall₂_left (Lowering.run_mapM ran_groups) expr member
    exact ⟨_, _, _, _, _, ran⟩
  · intro key member
    obtain ⟨_, _, _, _, ran⟩ := forall₂_left (Lowering.run_mapM ran_keys) key member
    obtain ⟨_, _, ran, _⟩ := Lowering.run_bind ran
    exact ⟨_, _, _, _, _, ran⟩
  · intro page given
    rw [Option.mem_def.mp given] at ran_page
    obtain ⟨_, _, ran⟩ := Lowering.run_some ran_page
    exact Page.counted_of_lowered ran

theorem Projection.Related.settle {one two : Projection} (related : one.Related (Expr.Alike false) two)
    (each : ∀ item ∈ one.itemList, ∀ other, item.expr.Alike false other → item.expr = other) :
    one.Related Eq two := by
  cases related with
  | all => exact .all
  | items listed =>
    exact .items (((List.forall₂_and_left _ _).mpr ⟨each, listed⟩).imp
      fun _ _ ⟨equal, alike, name⟩ => ⟨equal _ alike, name⟩)

namespace Select

open Lowering

/-- A part that is lowered has no subqueries outside its conditions, so a part that is like it has the same
expressions there. -/
theorem Related.settle {schemas : Schemas} {guardsDoubles : Bool} {metadata : List RowMetadata}
    {part other : Select} {bound : Binding × Select} {result : Select × Bool}
    {state after : LoweringState}
    (related : part.Related (Expr.Alike false) (Expr.Alike true) other)
    (boundAs : part.BoundAs schemas bound)
    (ran : (bound.2.lower schemas guardsDoubles metadata bound.1).run state = (.ok result, after))
    (counted : ∀ page ∈ part.page, page.Counted) : part.Related Eq (Expr.Alike true) other := by
  obtain ⟨binding, select⟩ := bound
  obtain ⟨_, projection, page, rfl, spelled⟩ := boundAs
  obtain ⟨items, groups, keys, _⟩ := run_clauses ran
  refine { related with projection := ?_, groupBy := ?_, orderBy := ?_, page := ?_ }
  · apply related.projection.settle
    rcases spelled with ⟨rfl, _⟩ | ⟨_, _, all, _⟩
    · intro item member opposite alike
      exact eq_of_isRun alike (items item member)
    · simp [all, Projection.itemList]
  · apply ((List.forall₂_and_left _ _).mpr ⟨groups, related.groupBy⟩).imp
    rintro expr opposite ⟨runs, alike⟩
    exact eq_of_isRun alike runs
  · apply ((List.forall₂_and_left _ _).mpr ⟨keys, related.orderBy⟩).imp
    rintro key opposite ⟨runs, alike, direction⟩
    exact ⟨eq_of_isRun alike runs, direction⟩
  · exact Option.rel_imp related.page fun page given other own =>
      Page.eq_of_counted own (counted page given)

end Select

namespace Compiler

open Lowering

variable {compiler : Compiler} {role : Role}

theorem counted_of_page {rowsPerPage : Option UInt64} {parts paged : List (Binding × Select)}
    (ok : compiler.page role rowsPerPage parts = .ok paged)
    (counted : ∀ part ∈ paged, ∀ page ∈ part.2.page, page.Counted) :
    ∀ part ∈ parts, ∀ page ∈ part.2.page, page.Counted := by
  cases role with
  | definition =>
    cases ok
    exact counted
  | statement =>
    have last : compiler.pageLast rowsPerPage parts = .ok paged := ok
    clear ok
    induction parts generalizing paged with
    | nil => simp
    | cons part rest ih =>
      obtain ⟨binding, select⟩ := part
      cases rest with
      | nil =>
        obtain ⟨requested, within, last⟩ := Except.of_bind last
        obtain ⟨changed, capped, last⟩ := Except.of_bind last
        cases last
        intro part member page given
        obtain rfl := List.mem_singleton.mp member
        rw [Option.mem_def.mp given] at within
        exact Page.counted_of_paged within capped fun own => counted _ List.mem_cons_self own
      | cons second rest =>
        obtain ⟨others, behind, last⟩ := Except.of_bind last
        cases last
        intro part member
        rcases List.mem_cons.mp member with rfl | later
        · exact counted _ List.mem_cons_self
        · exact ih (fun part member => counted part (List.mem_cons_of_mem _ member)) behind part
            later

theorem counted_of_bound {rowsPerPage : Option UInt64} {selects : List Select}
    {parts paged : List (Binding × Select)}
    (binds : selects.mapM (Select.bindTables compiler.schemas) = .ok parts)
    (pages : compiler.page role rowsPerPage parts = .ok paged)
    (counted : ∀ part ∈ paged, ∀ page ∈ part.2.page, page.Counted) :
    ∀ part ∈ selects, ∀ page ∈ part.page, page.Counted := by
  intro part member
  obtain ⟨bound, listed, ok⟩ := forall₂_left (Except.forall₂_of_mapM binds) part member
  have same : part.page = bound.2.page := by
    obtain ⟨_, ⟨rfl, _⟩ | ⟨_, _, _, spelled⟩⟩ := Select.bindTables_of_ok ok
    · rfl
    · rw [spelled]
  rw [same]
  exact counted_of_page pages counted bound listed

theorem settle_compileParts {description : IndexDescription} {one two : Query}
    {inner : Option CompiledQuery} {compiled : CompiledQuery} {state after : LoweringState}
    (related : one.RelatedParts (Expr.Alike false) (Expr.Alike true) two)
    (ran : (compiler.compileParts role description one inner).run state = (.ok compiled, after)) :
    one.RelatedParts Eq (Expr.Alike true) two := by
  obtain ⟨_, paged, _, lowered, compiles, ran⟩ := run_compileParts ran
  have lowers := run_mapM ran
  have counted : ∀ part ∈ one.parts, ∀ page ∈ part.page, page.Counted := by
    refine counted_of_bound compiles.binds compiles.pages fun paged inPages => ?_
    obtain ⟨_, _, _, _, ran⟩ := forall₂_left lowers paged inPages
    exact (Select.run_clauses ran).2.2.2
  have each : ∀ part ∈ one.parts, ∀ other, part.Related (Expr.Alike false) (Expr.Alike true) other →
      part.Related Eq (Expr.Alike true) other := by
    intro part member other own
    obtain ⟨bound, listed, boundAs⟩ := forall₂_left compiles.boundAs part member
    obtain ⟨_, _, _, _, ran⟩ := forall₂_left lowers bound listed
    exact own.settle boundAs ran (counted part member)
  have selects : ∀ branch ∈ one.unions, branch.select ∈ one.parts := fun branch member =>
    List.mem_cons_of_mem _ (List.mem_map_of_mem member)
  refine ⟨each one.first List.mem_cons_self _ related.first, ?_⟩
  apply ((List.forall₂_and_left _ _).mpr ⟨selects, related.unions⟩).imp
  rintro branch other ⟨member, all, own⟩
  exact ⟨all, each _ member _ own⟩

/-- Plans that are like a plan that is compiled have the same expressions outside conditions. -/
theorem settle_compilePlan {one two : Plan} {compiled : CompiledQuery} {state after : LoweringState}
    (related : one.Related (Expr.Alike false) (Expr.Alike true) two)
    (ran : (compiler.compilePlan role one).run state = (.ok compiled, after)) :
    one.Related Eq (Expr.Alike true) two := by
  induction related generalizing role compiled state after with
  | plain description clause other parts =>
    exact .plain description clause other (settle_compileParts parts ran)
  | @layered description name own opposite _ _ parts inside ih =>
    obtain ⟨_, _, ran_inner, ran⟩ := run_bind ran
    obtain ⟨element, _, _, ran⟩ := run_bind ran
    have changed : Query.RelatedParts (Expr.Alike false) (Expr.Alike true)
        { own with commonTables := some [element] } opposite := ⟨parts.first, parts.unions⟩
    have settled := settle_compileParts changed ran
    exact .layered description name ⟨settled.first, settled.unions⟩ (ih ran_inner)

/-- A query that is like a compiled one is compiled to the same statement with other values. -/
theorem alike_of_ok {one two : Query} {first : Statement}
    (laid : Except.Agree (Plan.Related (Expr.Alike false) (Expr.Alike true))
      (Plan.ofStatement compiler.lookup compiler.context compiler.start compiler.description one)
      (Plan.ofStatement compiler.lookup compiler.context compiler.start compiler.description two))
    (ok : compiler.compileQuery one = .ok first) :
    ∃ second, compiler.compileQuery two = .ok second ∧ first.Related ParameterValue.Any Eq second := by
  rw [compileQuery_eq] at ok ⊢
  obtain ⟨plan, own, ok⟩ := Except.of_bind ok
  obtain ⟨deeper, other, related⟩ := laid.of_ok own
  rcases ran : (compiler.compilePlan .statement plan).run { context := compiler.start } with
    ⟨result, state⟩
  -- Subqueries may differ in any way, but a plan that is compiled has none.
  have settled : plan.Related Eq (Expr.Alike true) deeper := by
    rw [ran] at ok
    obtain ⟨compiled, rfl, _⟩ := Except.of_bind ok
    exact settle_compilePlan related ran
  rw [other]
  exact (compiler.agree_ofRun parallel_alike settled (Plan.definingFilter_ofStatement own)).of_ok ok

/-- What the literals in the conditions of a query are, calls and casts apart, makes no difference to the
statement but for its bound values. -/
theorem statement_blind_to_literals (compiler : Compiler) (one two : Query)
    (alike : one.Related (Expr.Alike false) (Expr.Alike true) two) :
    (∃ problem other, compiler.compileQuery one = .error problem ∧
        compiler.compileQuery two = .error other) ∨
      ∃ first second, compiler.compileQuery one = .ok first ∧ compiler.compileQuery two = .ok second ∧
        first.text = second.text ∧
        first.parameters.entries.map Prod.fst = second.parameters.entries.map Prod.fst ∧
        first.compiled = second.compiled := by
  have laid := @Plan.agree_ofStatement (Expr.Alike false) (Expr.Alike true) (fun _ => rfl)
    (fun _ => rfl) Expr.alike_conjoined compiler.lookup compiler.context compiler.start
    compiler.description _ _ alike
  have turned := laid.symm.mono fun _ _ related => related.symm Eq.symm Eq.symm
  cases given : compiler.compileQuery one with
  | ok first =>
    obtain ⟨second, ok, same⟩ := alike_of_ok laid given
    have trees : first.compiled = second.compiled := by
      rw [same.compiled.rest, ← same.compiled.query.eq]
    refine .inr ⟨first, second, rfl, ok, ?_, ?_, trees⟩
    · rw [Statement.text, Statement.text, trees]
    · rw [Parameters.entries_names, Parameters.entries_names, same.values.length_eq]
  | error problem =>
    cases other : compiler.compileQuery two with
    | error reason => exact .inl ⟨problem, reason, rfl, rfl⟩
    | ok second =>
      obtain ⟨first, ok, _⟩ := alike_of_ok turned other
      rw [given] at ok
      cases ok

/-- `SELECT * FROM syn1.3 WHERE tags HAS ( .. )` -/
def markedInner (tag : Literal) : Query :=
  .single { Select.simple .all (.named "syn1.3") with
    filter := some (.has (.named "tags") [.literal tag] false false) }

/-- `SELECT name FROM syn2 WHERE name BETWEEN .. AND name` over the inner query. -/
def markedQuery (tag low : Literal) : Query :=
  ⟨some [⟨⟨"syn2", none⟩, [], markedInner tag⟩],
    { Select.simple (.items [⟨.named "name", none⟩]) (.named "syn2") with
      filter := some (.between (.named "name") (.literal low) (.named "name") false) }, []⟩

/-- A string and a number change places. -/
theorem statement_blind_to_literals_marked :
    ∃ first second, weighedCompiler.compileQuery (markedQuery (.string "p") (.number "1")) = .ok first ∧
      weighedCompiler.compileQuery (markedQuery (.number "2") (.string "q")) = .ok second ∧
      first.parameters.values = [.string "p", .string "1"] ∧
      second.parameters.values = [.string "2", .string "q"] ∧ first.compiled = second.compiled := by
  obtain ⟨first, one, values⟩ : ∃ first, weighedCompiler.compileQuery (markedQuery (.string "p") (.number "1")) =
      .ok first ∧ first.parameters.values = [.string "p", .string "1"] :=
    compiles_within 2 (by decide +kernel)
  obtain ⟨second, two, others⟩ : ∃ second, weighedCompiler.compileQuery (markedQuery (.number "2") (.string "q")) =
      .ok second ∧ second.parameters.values = [.string "2", .string "q"] :=
    compiles_within 2 (by decide +kernel)
  have filtered (select : Select) {one two : Expr} (alike : one.Alike true two) :=
    @Select.Related.filtered (Expr.Alike false) (Expr.Alike true) (fun _ => rfl) (fun _ => rfl) select _ _
      (.some alike)
  have inner : (markedInner (.string "p")).Related (Expr.Alike false) (Expr.Alike true)
      (markedInner (.number "2")) :=
    .mk .none ⟨filtered _ rfl, .nil⟩
  have outer : (markedQuery (.string "p") (.number "1")).Related (Expr.Alike false) (Expr.Alike true)
      (markedQuery (.number "2") (.string "q")) :=
    .mk (.some (.cons (.mk _ _ inner) .nil)) ⟨filtered _ rfl, .nil⟩
  rcases statement_blind_to_literals weighedCompiler _ _ outer with
    ⟨_, _, failed, _⟩ | ⟨_, _, ok, other, _, _, same⟩
  · cases failed.symm.trans one
  · cases ok.symm.trans one
    cases other.symm.trans two
    exact ⟨first, second, ok, other, values, others, same⟩

end Compiler

end TabularSql
