import TabularSql.Proofs.Lowering.Parallel
import TabularSql.Proofs.Lowering.Stars

/-!
# Statements that answer and statements that build

A query over a table can be compiled to answer the caller or to build another object. The two statements
differ in their select lists only: the first guards DOUBLE columns and adds the metadata columns of the
rows. Both are compiled side by side here, from the expressions up. A guard takes the place of a column and
binds nothing, so the two lowerings go through the same states.
-/

namespace TabularSql

set_option autoImplicit false

/-! ## Guards -/

namespace ColumnRef

def shadow (reference : ColumnRef) : ColumnRef :=
  ⟨reference.qualifier, ⟨"_DBL" ++ reference.name.name, none⟩⟩

end ColumnRef

/-- The column that a CASE guards, if it is a guard: it is read where its shadow is null. -/
def Expr.guarded? : Option Expr → List (Expr × Expr) → Option Expr → Option ColumnRef
  | none, [(.isNull (.column tested) false, .column guarded)], some (.column otherwise) =>
    if tested = guarded.shadow ∧ otherwise = guarded.shadow then some guarded else none
  | _, _, _ => none

mutual

/-- The expression with a plain column in the place of each guard. -/
def Expr.unguarded : Expr → Expr
  | .literal value => .literal value
  | .column reference => .column reference
  | .parameter name => .parameter name
  | .currentUser => .currentUser
  | .wildcard => .wildcard
  | .call name distinct arguments => .call name distinct (Expr.unguardedAll arguments)
  | .cast operand target => .cast operand.unguarded target
  | .caseWhen operand branches otherwise =>
    ((Expr.guarded? operand branches otherwise).map .column).getD
      (.caseWhen (Expr.unguardedOption operand) (Expr.unguardedBranches branches)
        (Expr.unguardedOption otherwise))
  | .binary operator left right => .binary operator left.unguarded right.unguarded
  | .unary operator operand => .unary operator operand.unguarded
  | .nested inner => .nested inner.unguarded
  | .isNull tested negated => .isNull tested.unguarded negated
  | .isTruth tested value negated => .isTruth tested.unguarded value negated
  | .between tested low high negated =>
    .between tested.unguarded low.unguarded high.unguarded negated
  | .inList tested candidates negated =>
    .inList tested.unguarded (Expr.unguardedAll candidates) negated
  | .inQuery tested candidates negated => .inQuery tested.unguarded candidates negated
  | .like tested pattern escape negated =>
    .like tested.unguarded pattern.unguarded (Expr.unguardedOption escape) negated
  | .has tested values pattern negated =>
    .has tested.unguarded (Expr.unguardedAll values) pattern negated
  | .doubleTest test reference => .doubleTest test reference
  | .textMatches text => .textMatches text.unguarded
  | .matchAgainst text => .matchAgainst text.unguarded
  | .unnest reference => .unnest reference

def Expr.unguardedAll : List Expr → List Expr
  | [] => []
  | expr :: rest => expr.unguarded :: Expr.unguardedAll rest

def Expr.unguardedOption : Option Expr → Option Expr
  | none => none
  | some expr => some expr.unguarded

def Expr.unguardedBranches : List (Expr × Expr) → List (Expr × Expr)
  | [] => []
  | (condition, result) :: rest =>
    (condition.unguarded, result.unguarded) :: Expr.unguardedBranches rest

end

namespace Physical

theorem shadow_column (qualifier : Option String) (id : ColumnId) :
    (columnRef qualifier id).shadow = .plain qualifier (shadow id) := by
  have name : "_DBL" ++ column id = shadow id := by
    simp only [column, shadow, ← String.append_assoc]
    rfl
  simp only [ColumnRef.shadow, columnRef, ColumnRef.plain, name]

theorem unguarded_guardedDouble (qualifier : Option String) (id : ColumnId) :
    (guardedDouble qualifier id).unguarded = .column (columnRef qualifier id) := by
  simp [guardedDouble, Expr.unguarded, Expr.guarded?, shadowExpr, shadow_column]

end Physical

def Expr.IsShadow (expr : Expr) : Prop := ∃ reference : ColumnRef, expr = .column reference.shadow

theorem Expr.guarded?_eq_none {operand otherwise : Option Expr} {branches : List (Expr × Expr)}
    (real : ∀ expr ∈ otherwise, ¬ expr.IsShadow) : Expr.guarded? operand branches otherwise = none := by
  unfold Expr.guarded?
  split
  · next tested guarded other =>
      apply if_neg
      rintro ⟨_, rfl⟩
      exact real _ rfl ⟨guarded, rfl⟩
  · rfl

theorem ColumnRef.plain_ne_shadow {qualifier : Option String} {name : String}
    (other : ∀ rest, name ≠ "_DBL" ++ rest) (reference : ColumnRef) :
    ColumnRef.plain qualifier name ≠ reference.shadow := by
  intro same
  have names := congrArg (fun reference => reference.name.name) same
  exact other _ names

namespace Physical

theorem column_ne_shadow (id : ColumnId) (rest : String) : column id ≠ "_DBL" ++ rest := by
  intro same
  have chars := congrArg String.toList same
  simp [column] at chars

theorem element_ne_shadow (id : ColumnId) (rest : String) : element id ≠ "_DBL" ++ rest := by
  intro same
  have chars := congrArg String.toList same
  simp [element, column] at chars

theorem metadata_ne_shadow (name : MetadataName) (rest : String) : name.text ≠ "_DBL" ++ rest := by
  intro same
  have chars := congrArg String.toList same
  cases name <;> simp [MetadataName.text] at chars

end Physical

theorem ResolvedColumn.physical_ne_shadow (resolved : ResolvedColumn) :
    ¬ (Expr.column resolved.physical).IsShadow := by
  rintro ⟨reference, same⟩
  have physical : resolved.physical = reference.shadow := Expr.column.inj same
  unfold ResolvedColumn.physical at physical
  split at physical
  · exact ColumnRef.plain_ne_shadow (Physical.column_ne_shadow _) reference physical
  · exact ColumnRef.plain_ne_shadow (Physical.metadata_ne_shadow _) reference physical

/-! ## Expressions side by side -/

namespace Expr

/-- What an expression is lowered to with and without guards. Guards stand in select items only, where
removing them makes the two equal; a sort key may be any name. -/
structure UnguardedAt (position : Position) (guarded plain : Expr) : Prop where
  same : position ≠ .select → guarded = plain
  unguarded : position ≠ .sort → guarded.unguarded = plain
  real : position ≠ .sort → ¬ guarded.IsShadow

theorem UnguardedAt.leaf {position : Position} {leaf : Expr} (unguarded : leaf.unguarded = leaf)
    (real : ¬ leaf.IsShadow) : UnguardedAt position leaf leaf :=
  ⟨fun _ => rfl, fun _ => unguarded, fun _ => real⟩

theorem UnguardedAt.form {position : Position} {guarded plain : Expr}
    (same : position ≠ .select → guarded = plain)
    (unguarded : position ≠ .sort → guarded.unguarded = plain)
    (form : ∀ reference, guarded ≠ .column reference) : UnguardedAt position guarded plain :=
  ⟨same, unguarded, fun _ shadow => form _ shadow.choose_spec⟩

end Expr

namespace Position

variable {position : Position} {type : Option ColumnType}

theorem comparedWith_ne_select (other : position ≠ .select) : position.comparedWith type ≠ .select := by
  cases position <;> simp_all [comparedWith]

theorem comparedWith_ne_sort (other : position ≠ .sort) : position.comparedWith type ≠ .sort := by
  cases position <;> simp_all [comparedWith]

end Position

namespace Expr

variable {position : Position} {guarded plain : Expr}

theorem UnguardedAt.of_compared {type : Option ColumnType}
    (unguarded : UnguardedAt (position.comparedWith type) guarded plain) :
    UnguardedAt position guarded plain :=
  ⟨fun other => unguarded.same (Position.comparedWith_ne_select other),
    fun other => unguarded.unguarded (Position.comparedWith_ne_sort other),
    fun other => unguarded.real (Position.comparedWith_ne_sort other)⟩

theorem unguardedAll_eq {list plains : List Expr} (other : position ≠ .sort)
    (listed : List.Forall₂ (UnguardedAt position) list plains) : unguardedAll list = plains := by
  induction listed with
  | nil => rfl
  | cons own _ ih => rw [unguardedAll, own.unguarded other, ih]

theorem all_eq {list plains : List Expr} (other : position ≠ .select)
    (listed : List.Forall₂ (UnguardedAt position) list plains) : list = plains := by
  induction listed with
  | nil => rfl
  | cons own _ ih => rw [own.same other, ih]

theorem unguardedOption_eq {optional plain : Option Expr} (other : position ≠ .sort)
    (given : Option.Rel (UnguardedAt position) optional plain) : unguardedOption optional = plain := by
  cases given with
  | none => rfl
  | some own => rw [unguardedOption, own.unguarded other]

theorem option_eq {optional plain : Option Expr} (other : position ≠ .select)
    (given : Option.Rel (UnguardedAt position) optional plain) : optional = plain := by
  cases given with
  | none => rfl
  | some own => rw [own.same other]

def UnguardedBranch (position : Position) (guarded plain : Expr × Expr) : Prop :=
  UnguardedAt position guarded.1 plain.1 ∧ UnguardedAt position guarded.2 plain.2

theorem unguardedBranches_eq {branches plains : List (Expr × Expr)} (other : position ≠ .sort)
    (listed : List.Forall₂ (UnguardedBranch position) branches plains) :
    unguardedBranches branches = plains := by
  induction listed with
  | nil => rfl
  | cons own _ ih =>
    rw [unguardedBranches, own.1.unguarded other, own.2.unguarded other, ih]

theorem branches_eq {branches plains : List (Expr × Expr)} (other : position ≠ .select)
    (listed : List.Forall₂ (UnguardedBranch position) branches plains) : branches = plains := by
  induction listed with
  | nil => rfl
  | cons own _ ih => rw [ih, Prod.ext (own.1.same other) (own.2.same other)]

end Expr

def Scope.plain (scope : Scope) : Scope := { scope with guardsDoubles := false }

theorem ColumnRef.agree_lower (scope : Scope) (position : Position) (reference : ColumnRef) :
    Except.Agree (Expr.UnguardedAt position) (reference.lower scope position)
      (reference.lower scope.plain position) := by
  apply Except.Agree.bind (.refl (fun _ => rfl) _)
  rintro found _ _ _ rfl
  cases found with
  | none =>
    show Except.Agree _ (reference.lowerUnresolved scope.aliases position)
      (reference.lowerUnresolved scope.aliases position)
    cases kept : reference.lowerUnresolved scope.aliases position with
    | error problem => exact .error problem
    | ok lowered =>
      apply Except.Agree.ok
      cases unresolved_of_ok kept with
      | delimited bare quoted place =>
        apply Expr.UnguardedAt.leaf rfl
        rintro ⟨other, same⟩
        have quotes := congrArg (fun reference => reference.name.quote) (Expr.column.inj same)
        cases quotes
      | named bare plain listed place =>
        exact ⟨fun _ => rfl, fun other => absurd place other, fun other => absurd place other⟩
  | some resolved =>
    have column : Expr.UnguardedAt position (.column resolved.physical) (.column resolved.physical) :=
      .leaf rfl resolved.physical_ne_shadow
    dsimp only
    cases stored : resolved.stored? with
    | none => exact .ok column
    | some own =>
      simp only [Scope.plain, Bool.and_false, Bool.false_and, Bool.false_eq_true, if_false]
      split
      · next guards =>
          simp only [Bool.and_eq_true, decide_eq_true_eq] at guards
          apply Except.Agree.ok
          refine .form (fun other => absurd guards.1.1 other) (fun _ => ?_) ?_
          · rw [Physical.unguarded_guardedDouble, ResolvedColumn.physical,
              ResolvedColumn.target_of_stored stored]
          · intro reference
            simp [Physical.guardedDouble]
      · exact .ok column

namespace Lowering

open TabularSql.Expr

variable {scope : Scope} {position : Position}

/-- With and without guards, the expression is lowered to the same up to the guards. -/
def Unguards (scope : Scope) (position : Position) (expr : Expr) : Prop :=
  Matches Eq (expr.lower scope position) (expr.lower scope.plain position) (UnguardedAt position)

theorem unguards_bound {value : ParameterValue} :
    Matches Eq (bind value) (bind value) (UnguardedAt position) := by
  intro first second paired
  obtain rfl := paired.eq
  exact ⟨.refl (fun _ => rfl) _, .ok (.leaf rfl (by simp [IsShadow]))⟩

theorem unguards_literal (value : Literal) : Unguards scope position (.literal value) := by
  have kept : UnguardedAt position (.literal value) (.literal value) :=
    .leaf rfl (by simp [IsShadow])
  unfold Unguards
  simp only [Expr.lower, Literal.lower]
  split
  · split
    · exact unguards_bound
    · exact matches_pure kept
  · exact matches_pure kept

theorem unguards_currentUser : Unguards scope position .currentUser := by
  apply matches_bind matches_get
  intro first second paired
  obtain rfl := paired.eq
  split
  · exact unguards_bound
  · exact matches_pure (.leaf rfl (by simp [IsShadow, Expr.integer]))

theorem unguards_lowerAll {list : List Expr} (each : ∀ expr ∈ list, Unguards scope position expr) :
    Matches Eq (Expr.lowerAll scope position list) (Expr.lowerAll scope.plain position list)
      (List.Forall₂ (UnguardedAt position)) := by
  rw [Expr.lowerAll_eq_mapM, Expr.lowerAll_eq_mapM]
  have pairs : List.Forall₂ (fun expr other => expr = other ∧ Unguards scope position expr) list list :=
    List.forall₂_same.mpr fun expr member => ⟨rfl, each expr member⟩
  apply (matches_mapM pairs _).mono fun _ _ results => results.2
  rintro expr _ ⟨rfl, own⟩
  exact own

theorem unguards_lowerOption {optional : Option Expr}
    (each : ∀ expr ∈ optional, Unguards scope position expr) :
    Matches Eq (Expr.lowerOption scope position optional)
      (Expr.lowerOption scope.plain position optional) (Option.Rel (UnguardedAt position)) := by
  cases optional with
  | none => exact matches_pure .none
  | some expr =>
    apply matches_bind (each expr rfl)
    intro guarded plain own
    exact matches_pure (.some own)

theorem unguards_lowerBranches {type : Option ColumnType} {branches : List (Expr × Expr)}
    (each : ∀ branch ∈ branches, Unguards scope (position.comparedWith type) branch.1 ∧
      Unguards scope position branch.2) :
    Matches Eq (Expr.lowerBranches scope (position.comparedWith type) position branches)
      (Expr.lowerBranches scope.plain (position.comparedWith type) position branches)
      (List.Forall₂ (UnguardedBranch position)) := by
  induction branches with
  | nil => exact matches_pure .nil
  | cons branch branches ih =>
    obtain ⟨condition, value⟩ := branch
    obtain ⟨tested, result⟩ := each (condition, value) List.mem_cons_self
    apply matches_bind tested
    intro first first' conditions
    apply matches_bind result
    intro second second' values
    apply matches_bind (ih fun other member => each other (List.mem_cons_of_mem _ member))
    intro rest rest' behind
    exact matches_pure (.cons ⟨conditions.of_compared, values⟩ behind)

theorem unguards_of_inside {whole : Expr}
    (each : ∀ part, .expr part ∈ whole.inside → ∀ position, Unguards scope position part)
    (position : Position) : Unguards scope position whole := by
  cases whole with
  | literal value => exact unguards_literal value
  | column reference => exact matches_lift (reference.agree_lower scope position)
  | parameter name => exact matches_pure (.leaf rfl (by simp [IsShadow]))
  | wildcard => exact matches_pure (.leaf rfl (by simp [IsShadow]))
  | currentUser => exact unguards_currentUser
  | call name distinct arguments =>
    apply matches_bind (unguards_lowerAll fun expr member => each expr (by simpa) _)
    intro list plains listed
    refine matches_pure (.form (fun _ => ?_) (fun _ => ?_) (by simp))
    · rw [all_eq (by simp) listed]
    · rw [Expr.unguarded, unguardedAll_eq (by simp) listed]
  | cast operand target =>
    apply matches_bind (each operand (by simp) _)
    intro first plain own
    apply matches_after (.refl (fun _ => rfl) _)
    rintro known _ _ _ rfl
    refine matches_pure (.form (fun _ => ?_) (fun _ => ?_) (by simp))
    · rw [own.same (by simp)]
    · rw [Expr.unguarded, own.unguarded (by simp)]
  | caseWhen operand branches otherwise =>
    apply matches_bind
    · exact unguards_lowerOption fun expr given => each expr (by cases given; simp) _
    intro first first' operands
    apply matches_bind
    · apply unguards_lowerBranches
      intro branch member
      exact ⟨each _ (Expr.condition_inside member) _, each _ (Expr.result_inside member) _⟩
    intro middle middle' listed
    apply matches_bind
    · exact unguards_lowerOption fun expr given => each expr (by cases given; simp) _
    intro last last' results
    refine matches_pure (.form (fun other => ?_) (fun other => ?_) (by simp))
    · rw [option_eq (Position.comparedWith_ne_select other) operands, branches_eq other listed,
        option_eq other results]
    · have real : ∀ expr ∈ last, ¬ expr.IsShadow := by
        rintro expr ⟨⟩
        cases results with
        | some own => exact own.real other
      rw [Expr.unguarded, guarded?_eq_none real, Option.map_none, Option.getD_none,
        unguardedOption_eq (Position.comparedWith_ne_sort other) operands,
        unguardedBranches_eq other listed, unguardedOption_eq other results]
  | binary operator left right =>
    apply matches_bind (each left (by simp) _)
    intro first first' lefts
    apply matches_bind (each right (by simp) _)
    intro second second' rights
    replace lefts := lefts.of_compared
    replace rights := rights.of_compared
    refine matches_pure (.form (fun other => ?_) (fun other => ?_) (by simp))
    · rw [lefts.same other, rights.same other]
    · rw [Expr.unguarded, lefts.unguarded other, rights.unguarded other]
  | unary operator operand =>
    apply matches_bind (each operand (by simp) _)
    intro first plain own
    have placed : UnguardedAt position first plain := by
      split at own
      · exact own.of_compared
      · exact own
    refine matches_pure (.form (fun other => ?_) (fun other => ?_) (by simp))
    · rw [placed.same other]
    · rw [Expr.unguarded, placed.unguarded other]
  | nested operand =>
    apply matches_bind (each operand (by simp) _)
    intro first plain own
    refine matches_pure (.form (fun other => ?_) (fun other => ?_) (by simp))
    · rw [own.same other]
    · rw [Expr.unguarded, own.unguarded other]
  | isNull tested negated | isTruth tested _ negated =>
    apply matches_bind (each tested (by simp) _)
    intro first plain own
    replace own := own.of_compared
    refine matches_pure (.form (fun other => ?_) (fun other => ?_) (by simp))
    · rw [own.same other]
    · rw [Expr.unguarded, own.unguarded other]
  | between tested low high negated =>
    apply matches_bind (each tested (by simp) _)
    intro first first' tests
    apply matches_bind (each low (by simp) _)
    intro second second' lows
    apply matches_bind (each high (by simp) _)
    intro third third' highs
    replace tests := tests.of_compared
    replace lows := lows.of_compared
    replace highs := highs.of_compared
    refine matches_pure (.form (fun other => ?_) (fun other => ?_) (by simp))
    · rw [tests.same other, lows.same other, highs.same other]
    · rw [Expr.unguarded, tests.unguarded other, lows.unguarded other, highs.unguarded other]
  | inList tested candidates negated =>
    apply matches_bind (each tested (by simp) _)
    intro first first' tests
    apply matches_bind (unguards_lowerAll fun expr member => each expr (by simp [member]) _)
    intro list plains listed
    replace tests := tests.of_compared
    refine matches_pure (.form (fun other => ?_) (fun other => ?_) (by simp))
    · rw [tests.same other, all_eq (Position.comparedWith_ne_select other) listed]
    · rw [Expr.unguarded, tests.unguarded other,
        unguardedAll_eq (Position.comparedWith_ne_sort other) listed]
  | inQuery tested candidates negated => exact matches_throw _
  | like tested pattern escape negated =>
    apply matches_bind (each tested (by simp) _)
    intro first first' tests
    apply matches_bind (each pattern (by simp) _)
    intro second second' patterns
    apply matches_bind
    · exact unguards_lowerOption fun expr given => each expr (by cases given; simp) _
    intro third third' escapes
    replace tests := tests.of_compared
    replace patterns := patterns.of_compared
    refine matches_pure (.form (fun other => ?_) (fun other => ?_) (by simp))
    · rw [tests.same other, patterns.same other,
        option_eq (Position.comparedWith_ne_select other) escapes]
    · rw [Expr.unguarded, tests.unguarded other, patterns.unguarded other,
        unguardedOption_eq (Position.comparedWith_ne_sort other) escapes]
  | has tested values pattern negated =>
    apply matches_after (.refl (fun _ => rfl) _)
    rintro column _ _ _ rfl
    apply matches_bind (unguards_lowerAll fun expr member => each expr (by simp [member]) _)
    intro list plains listed
    rw [all_eq (by simp) listed]
    apply matches_after (.refl (fun _ => rfl) _)
    rintro condition _ _ _ rfl
    exact matches_pure (.leaf rfl (by simp [IsShadow, ListColumn.rowsWith]))
  | doubleTest test reference =>
    show Matches Eq (lift (test.lower scope reference)) (lift (test.lower scope reference)) _
    cases given : test.lower scope reference with
    | error problem => exact matches_throw problem
    | ok lowered =>
      obtain ⟨resolved, stored, _, _, _, rfl | rfl⟩ := DoubleTest.lower_of_ok given
      all_goals exact matches_pure (.leaf rfl (by simp [IsShadow, Physical.nanTest,
        Physical.infinityTest]))
  | textMatches text | matchAgainst text =>
    apply matches_bind (each text (by simp) _)
    intro first plain own
    apply matches_then matches_noteSearch
    rintro ⟨⟩
    refine matches_pure (.form (fun _ => ?_) (fun _ => ?_) (by simp))
    · rw [own.same (by simp)]
    · rw [Expr.unguarded, own.unguarded (by simp)]
  | unnest reference =>
    apply matches_after (.refl (fun _ => rfl) _)
    rintro column _ _ _ rfl
    apply matches_then (matches_noteUnnested column)
    rintro ⟨⟩
    apply matches_pure
    apply UnguardedAt.leaf rfl
    rintro ⟨other, same⟩
    have names : ColumnRef.plain none (Physical.element column.id) = other.shadow :=
      Expr.column.inj same
    exact ColumnRef.plain_ne_shadow (Physical.element_ne_shadow _) other names

theorem unguards (scope : Scope) (position : Position) (whole : Expr) : Unguards scope position whole := by
  induction whole using Fragment.expr_induction generalizing position with
  | step whole ih => exact unguards_of_inside (fun part member position => ih part member position) position

theorem unguards_same {position : Position} (other : position ≠ .select) (scope : Scope) (expr : Expr) :
    Matches Eq (expr.lower scope position) (expr.lower scope.plain position) Eq :=
  (unguards scope position expr).mono fun _ _ own => own.same other

end Lowering

/-! ## Parts side by side -/

def SelectItem.unguarded (item : SelectItem) : SelectItem := ⟨item.expr.unguarded, item.alias?⟩

/-- The parts differ in their select lists only: one has guards and the given items behind its own. -/
def Select.BuiltFrom (metadata : List SelectItem) (asked built : Select) : Prop :=
  ∃ own, asked.projection = .items (own ++ metadata) ∧
    built = { asked with projection := .items (own.map SelectItem.unguarded) }

namespace Lowering

theorem matches_lowerItem (scope : Scope) (item : SelectItem) :
    Matches Eq (item.lower scope) (item.lower scope.plain)
      fun guarded plain => plain = guarded.unguarded := by
  apply matches_bind (unguards scope .select item.expr)
  intro guarded plain own
  refine matches_pure ?_
  rw [SelectItem.unguarded, own.unguarded (by simp)]

theorem matches_plainConditions (scope : Scope) (source : Source) :
    Matches Eq (source.lowerConditions scope) (source.lowerConditions scope.plain) Eq := by
  match source with
  | .table only => exact matches_pure rfl
  | .join left kind right condition =>
    apply matches_then (matches_plainConditions scope left)
    intro before
    apply matches_then (unguards_same (by simp) scope condition)
    intro lowered
    exact matches_pure rfl

theorem matches_plainOption {position : Position} (other : position ≠ .select) (scope : Scope)
    (optional : Option Expr) :
    Matches Eq (Expr.lowerOption scope position optional)
      (Expr.lowerOption scope.plain position optional) Eq := by
  cases optional with
  | none => exact matches_pure rfl
  | some expr => exact matches_then (unguards_same other scope expr) fun _ => matches_pure rfl

theorem matches_builtSelect (schemas : Schemas) (metadata : List RowMetadata) (binding : Binding)
    (part : Select) :
    Matches Eq (part.lower schemas true metadata binding) (part.lower schemas false [] binding)
      fun asked built => asked.1.BuiltFrom (metadata.map fun column => ⟨column.expr binding, none⟩)
        built.1 ∧ asked.2 = built.2 := by
  let scope : Scope := { schemas, binding, guardsDoubles := true, aliases := part.aliases }
  apply matches_then (matches_self (fun _ => rfl) _)
  rintro ⟨⟩
  have same : List.Forall₂ Eq part.projection.itemList part.projection.itemList :=
    List.forall₂_same.mpr fun _ _ => rfl
  apply matches_bind
  · apply matches_mapM same
    rintro item _ rfl
    exact matches_lowerItem scope item
  intro items plains listed
  have unguarded : plains = items.map SelectItem.unguarded := eq_map_of_forall₂ listed.2
  apply matches_then (matches_plainConditions scope _)
  intro source
  apply matches_then (matches_plainOption (by simp) scope part.filter)
  intro filter
  rw [Expr.lowerAll_eq_mapM, Expr.lowerAll_eq_mapM]
  apply matches_then (matches_mapM_same fun expr _ => unguards_same (by simp) scope expr)
  intro groupBy
  apply matches_then (matches_mapM_same fun key _ =>
    matches_then (unguards_same (by simp) scope key.expr) fun _ => matches_pure rfl)
  intro orderBy
  apply matches_then (matches_self (fun _ => rfl) _)
  intro page
  apply matches_bind matches_get
  intro state state' paired
  obtain rfl := paired.eq
  exact matches_pure ⟨⟨items, rfl, by rw [unguarded, List.map_nil, List.append_nil]⟩, rfl⟩

end Lowering


/-! ## Statements side by side -/

/-- The metadata columns of a statement that answers a query over a table. -/
def RowMetadata.ofTable (aggregated : Bool) : List RowMetadata :=
  if aggregated then [] else [.id, .version]

/-- The items for the metadata columns of a statement that answers a query over a table. -/
def SelectItem.ofTable (aggregated : Bool) : List SelectItem :=
  if aggregated then []
  else [⟨.column (Physical.metadataRef none .rowId), none⟩,
    ⟨.column (Physical.metadataRef none .rowVersion), none⟩]

/-- Compiled queries that differ in their select lists only, and in what is reported about metadata. -/
structure CompiledQuery.BuiltFrom (asked built : CompiledQuery) : Prop where
  parts : List.Forall₂ (Select.BuiltFrom (SelectItem.ofTable asked.isAggregated)) asked.query.parts
    built.query.parts
  rest : built = { asked with
    query := asked.query.withParts built.query.parts
    hasRowIds := false
    hasEtag := false }

/-- Statements that differ in their select lists only, and in what is reported about metadata. -/
structure Statement.BuiltFrom (asked built : Statement) : Prop where
  compiled : asked.compiled.BuiltFrom built.compiled
  parameters : asked.parameters = built.parameters

theorem Query.withParts_withParts {query : Query} {first second : List Select}
    (count : first.length = query.parts.length) (counted : second.length = query.parts.length) :
    (query.withParts first).withParts second = query.withParts second := by
  cases first with
  | nil => simp [Query.parts] at count
  | cons own rest =>
    cases second with
    | nil => simp [Query.parts] at counted
    | cons other others =>
      simp only [Query.parts, List.length_cons, List.length_map, Nat.add_right_cancel_iff] at count
      have unions : List.zipWith (fun (branch : UnionBranch) select => { branch with select })
          (List.zipWith (fun (branch : UnionBranch) select => { branch with select }) query.unions
            rest) others =
          List.zipWith (fun (branch : UnionBranch) select => { branch with select }) query.unions
            others :=
        List.ext_getElem (by simp [count]) (by simp)
      simp only [Query.withParts, unions]

theorem Plan.layOut_table (lookup : List IndexDescription) (context : BindingContext) (id : TableId)
    (query : Query) : layOut lookup .build context (.table id) query =
      layOut lookup .query context (.table id) query := by
  have checked : (IndexDescription.table id).prepareChecked .build query =
      (IndexDescription.table id).prepareChecked .query query := rfl
  rw [layOut_eq, layOut_eq, checked]
  cases prepares : (IndexDescription.table id).prepareChecked .query query with
  | error problem => rfl
  | ok prepared =>
    have unchanged : prepared = query := prepareChecked_stored rfl prepares
    subst unchanged
    rcases clause : prepared.commonTables with _ | _ | ⟨element, _ | ⟨second, rest⟩⟩
    · simp only [bind, Except.bind, clause]
    · simp only [bind, Except.bind, clause]
    · have inner (table : TableId) := layOut_table lookup context table element.query
      simp only [bind, Except.bind, clause, IndexDescription.dependency, IndexDescription.enter,
        IndexDescription.isVirtual, Bool.false_eq_true, if_false, inner]
    · simp only [bind, Except.bind, clause]
termination_by sizeOf query
decreasing_by
  rw [← unchanged]
  exact Query.element_size clause List.mem_cons_self

namespace Compiler

open Lowering

variable (compiler : Compiler)

def asking : Compiler := { compiler with context := .query }

def building : Compiler := { compiler with context := .build }

theorem compilePlan_definition (plan : Plan) :
    compiler.asking.compilePlan .definition plan = compiler.building.compilePlan .definition plan := by
  induction plan with
  | plain description query => rfl
  | layered description query name inner ih =>
    rw [compilePlan, compilePlan, ih]
    rfl

variable {compiler}

theorem agree_metadata {id : TableId} (aggregated : Bool) (tables : List TableId) :
    Except.Agree (fun asked built => asked = RowMetadata.ofTable aggregated ∧ built = [])
      (compiler.asking.metadata .statement (.table id) aggregated tables)
      (compiler.building.metadata .statement (.table id) aggregated tables) := by
  cases aggregated with
  | true => exact .ok ⟨rfl, rfl⟩
  | false =>
    have asked : compiler.asking.metadata .statement (.table id) false tables =
        .ok [.id, .version] := by
      simp [asking, metadata, IndexDescription.metadata, IndexDescription.isVirtual,
        IndexDescription.kind, TableKind.isEntityView]
    rw [asked]
    exact .ok ⟨rfl, rfl⟩

theorem pageLast_context (rowsPerPage : Option UInt64) (parts : List (Binding × Select)) :
    compiler.asking.pageLast rowsPerPage parts = compiler.building.pageLast rowsPerPage parts := by
  induction parts with
  | nil => rfl
  | cons part rest ih =>
    cases rest with
    | nil => rfl
    | cons second rest =>
      show (do return part :: (← compiler.asking.pageLast rowsPerPage (second :: rest))) = _
      rw [ih]
      rfl

theorem matches_builtPart {schemas : Schemas} {source : Source} {binding : Binding}
    (binds : Binding.ofSource schemas source = .ok binding) (single : source.isJoin = false)
    (aggregated : Bool) (part : Select) :
    Matches Eq (part.lower schemas true (RowMetadata.ofTable aggregated) binding)
      (part.lower schemas false [] binding) fun asked built =>
        asked.1.BuiltFrom (SelectItem.ofTable aggregated) built.1 ∧ asked.2 = built.2 := by
  have each : ∀ table ∈ binding.tables, table.correlation = none := by
    refine forall₂_right (Binding.forall₂_of_ofSource binds) fun pair _ table own => ?_
    rw [(Binding.bound_of_bindTable own).2.2.1, single]
    rfl
  have first : binding.tables.head?.bind BoundTable.correlation = none := by
    cases tables : binding.tables with
    | nil => rfl
    | cons table rest => exact each table (by simp [tables])
  have items : ((RowMetadata.ofTable aggregated).map fun column =>
      (⟨column.expr binding, none⟩ : SelectItem)) = SelectItem.ofTable aggregated := by
    cases aggregated with
    | true => rfl
    | false =>
      simp [RowMetadata.ofTable, SelectItem.ofTable, RowMetadata.expr, RowMetadata.ofFirst, first]
  rw [← items]
  exact matches_builtSelect schemas _ binding part

theorem matches_builtParts {id : TableId} {query : Query}
    (single : ∀ part ∈ query.parts, part.source.isJoin = false) (inner : Option CompiledQuery) :
    Matches Eq (compiler.asking.compileParts .statement (.table id) query inner)
      (compiler.building.compileParts .statement (.table id) query inner) CompiledQuery.BuiltFrom := by
  unfold compileParts
  apply matches_after (.refl (fun _ => rfl) _)
  rintro parts _ bound _ rfl
  apply matches_after (agree_metadata _ _)
  rintro _ _ _ _ ⟨rfl, rfl⟩
  apply matches_after
  · rw [page, page, pageLast_context]
    exact .refl (fun _ => rfl) _
  rintro paged _ pages _ rfl
  have boundAs := boundAs_of_ok bound pages
  have tables : ∀ part ∈ paged, ∃ source, source.isJoin = false ∧
      Binding.ofSource compiler.schemas source = .ok part.1 :=
    forall₂_right boundAs fun part member result own => ⟨part.source, single part member, own.1⟩
  have pairs : List.Forall₂ (fun part other => part = other ∧ ∃ source, source.isJoin = false ∧
      Binding.ofSource compiler.schemas source = .ok part.1) paged paged :=
    List.forall₂_same.mpr fun part member => ⟨rfl, tables part member⟩
  apply matches_bind
  · apply matches_mapM pairs
    rintro ⟨binding, part⟩ _ ⟨rfl, source, alone, binds⟩
    exact matches_builtPart binds alone _ part
  intro asked built results
  have count : (asked.map Prod.fst).length = query.parts.length := by
    rw [List.length_map, results.1, boundAs.length_eq]
  have counted : (built.map Prod.fst).length = query.parts.length := by
    rw [List.length_map, ← results.2.length_eq, ← count, List.length_map]
  have searches : asked.any Prod.snd = built.any Prod.snd :=
    any_eq_of_forall₂ results.2 fun _ _ result => result.2
  refine matches_pure ⟨?_, ?_⟩
  · show List.Forall₂ _ (query.withParts (asked.map Prod.fst)).parts
      (query.withParts (built.map Prod.fst)).parts
    rw [Query.parts_withParts count, Query.parts_withParts counted, List.forall₂_map_left_iff,
      List.forall₂_map_right_iff]
    exact results.2.imp fun _ _ result => result.1
  · simp only [Query.parts_withParts counted, Query.withParts_withParts count counted, searches]
    rfl

theorem matches_builtPlan {id : TableId} {plan : Plan} {lookup : List IndexDescription}
    {context : BindingContext} {query : Query}
    (laid : Plan.layOut lookup .query context (.table id) query = .ok plan) :
    Matches Eq (compiler.asking.compilePlan .statement plan)
      (compiler.building.compilePlan .statement plan) CompiledQuery.BuiltFrom := by
  obtain ⟨prepared, checked, rest⟩ := Plan.layOut_cases laid
  have single := (IndexDescription.single_of_checked rfl checked).2
  obtain ⟨_, rfl⟩ | ⟨element, _, _, _, inner, _, _, _, _, _, rfl⟩ := rest
  · exact matches_builtParts single none
  · rw [compilePlan, compilePlan, compilePlan_definition]
    apply matches_then (matches_self (fun _ => rfl) _)
    intro below
    apply matches_after (.refl (fun _ => rfl) _)
    rintro table _ _ _ rfl
    have same : Query.parts { prepared with commonTables := some [table] } = prepared.parts := rfl
    rw [← same] at single
    exact matches_builtParts single (some below)

/-- A query over a table is compiled alike for both contexts: both statements fail with the same error, or
they differ in their select lists only. -/
theorem contexts_agree (compiler : Compiler) (id : TableId) (query : Query)
    (description : compiler.description = .table id) :
    Except.Agree Statement.BuiltFrom (compiler.asking.compileQuery query)
      (compiler.building.compileQuery query) := by
  have laid : Plan.ofStatement compiler.lookup .build compiler.start (.table id) query =
      Plan.ofStatement compiler.lookup .query compiler.start (.table id) query :=
    Plan.layOut_table compiler.lookup compiler.start id query
  rw [compileQuery_eq, compileQuery_eq]
  show Except.Agree _
    (Plan.ofStatement compiler.lookup .query compiler.start compiler.description query >>= _)
    (Plan.ofStatement compiler.lookup .build compiler.start compiler.description query >>= _)
  rw [description, laid]
  apply Except.Agree.bind (.refl (fun _ => rfl) _)
  rintro plan _ planned _ rfl
  obtain ⟨states, outcomes⟩ := matches_builtPlan planned _ _
    (.refl (fun _ => rfl) { context := compiler.start })
  apply Except.Agree.bind outcomes
  intro asked built _ _ both
  have values := congrArg (fun state => state.context.parameters) states.eq
  exact .ok ⟨both, values⟩

/-- `SELECT weight, weight + 1 AS more FROM syn2 WHERE weight > 2 ORDER BY weight` -/
def heavyQuery : Query :=
  let weight : Expr := .named "weight"
  .single { Select.simple (.items [⟨weight, none⟩,
      ⟨.binary .add weight (.natural 1), some ⟨"more", none⟩⟩]) (.named "syn2") with
    filter := some (.binary .greater weight (.natural 2))
    orderBy := [⟨weight, none⟩] }

def heavyAsked : String :=
  "SELECT CASE WHEN _DBL_C13_ IS NULL THEN _C13_ ELSE _DBL_C13_ END, " ++
    "CASE WHEN _DBL_C13_ IS NULL THEN _C13_ ELSE _DBL_C13_ END+1 AS more, ROW_ID, ROW_VERSION " ++
    "FROM T2 WHERE _C13_ > :b0 ORDER BY _C13_"

def heavyBuilt : String :=
  "SELECT _C13_, _C13_+1 AS more FROM T2 WHERE _C13_ > :b0 ORDER BY _C13_"

theorem contexts_agree_heavy :
    ∃ asked built, weighedCompiler.asking.compileQuery heavyQuery = .ok asked ∧
      weighedCompiler.building.compileQuery heavyQuery = .ok built ∧
      asked.text = heavyAsked ∧ built.text = heavyBuilt ∧ asked.BuiltFrom built := by
  obtain ⟨asked, compiled, text⟩ : ∃ asked, weighedCompiler.asking.compileQuery heavyQuery = .ok asked ∧
      asked.text = heavyAsked := compiles_within 1 (by decide +kernel)
  obtain ⟨built, recompiled, other⟩ : ∃ built, weighedCompiler.building.compileQuery heavyQuery = .ok built ∧
      built.text = heavyBuilt := compiles_within 1 (by decide +kernel)
  obtain ⟨result, same, both⟩ :=
    (contexts_agree weighedCompiler ⟨2, none⟩ heavyQuery rfl).of_ok compiled
  cases same.symm.trans recompiled
  exact ⟨asked, built, compiled, recompiled, text, other, both⟩

end Compiler

end TabularSql
