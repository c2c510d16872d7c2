import TabularSql.Proofs.Lowering.Forms

/-!
# References in lowered expressions

Lowering keeps the form of most expressions and lowers what is inside them in its place; only a few forms are
spelled out. What a lowered expression refers to, at any depth and in the lookups of list elements too, is
therefore known as soon as it is known what these few forms refer to.
-/

namespace TabularSql

set_option autoImplicit false

/-- Two expressions that stand in the same place. -/
inductive Fragment.Paired (inner : Expr → Expr → Prop) : Fragment → Fragment → Prop where
  | expr {whole lowered : Expr} (own : inner whole lowered) : Paired inner (.expr whole) (.expr lowered)

theorem Fragment.paired_exprs {inner : Expr → Expr → Prop} {list lowered : List Expr}
    (pairs : List.Forall₂ inner list lowered) :
    List.Forall₂ (Paired inner) (list.map .expr) (lowered.map .expr) := by
  rw [List.forall₂_map_left_iff, List.forall₂_map_right_iff]
  exact pairs.imp fun _ _ own => .expr own

theorem Fragment.paired_optional {inner : Expr → Expr → Prop} {clause lowered : Option Expr}
    (pair : Option.Rel inner clause lowered) :
    List.Forall₂ (Paired inner) (clause.toList.map .expr) (lowered.toList.map .expr) := by
  cases pair with
  | none => exact .nil
  | some own => exact .cons (.expr own) .nil

theorem Fragment.paired_branches {inner : Expr → Expr → Prop} {branches lowered : List (Expr × Expr)}
    (pairs : List.Forall₂ (fun branch pair => inner branch.1 pair.1 ∧ inner branch.2 pair.2) branches
      lowered) :
    List.Forall₂ (Paired inner)
      (branches.flatMap fun (condition, result) => [Fragment.expr condition, .expr result])
      (lowered.flatMap fun (condition, result) => [Fragment.expr condition, .expr result]) := by
  induction pairs with
  | nil => exact .nil
  | cons own _ ih => exact .cons (.expr own.1) (.cons (.expr own.2) ih)

namespace Expr

/-- How a lowered expression comes about. A column, a test on a list, a test on a double and the elements of a
list are spelled out; any other expression keeps its form as far as positions are concerned, with the
expressions inside it in their places. -/
inductive Arises (scope : Scope) (inner : Expr → Expr → Prop) : Expr → Expr → Prop where
  | column {position : Position} {reference : ColumnRef} {lowered : Expr}
      (own : reference.LowersTo scope position lowered) : Arises scope inner (.column reference) lowered
  | rows (negated : Bool) {reference : ColumnRef} {condition : Expr} {values lowered : List Expr}
      {pattern : Bool} {form : ListForm} {column : ListColumn}
      (listed : reference.listColumn scope form = .ok column) (each : List.Forall₂ inner values lowered)
      (matched : column.matching pattern lowered = .ok condition) :
      Arises scope inner (.has (.column reference) values pattern negated)
        (column.rowsWith condition negated)
  | doubleTest {test : DoubleTest} {reference : ColumnRef} {lowered : Expr}
      (own : test.lower scope reference = .ok lowered) :
      Arises scope inner (.doubleTest test reference) lowered
  | unnest {reference : ColumnRef} {column : ListColumn}
      (listed : reference.listColumn scope .unnest = .ok column) :
      Arises scope inner (.unnest reference) column.elementExpr
  | kept {whole lowered : Expr} (form : lowered.IsKept) (same : lowered.opens = whole.opens)
      (inside : List.Forall₂ (Fragment.Paired inner) whole.inside lowered.inside) :
      Arises scope inner whole lowered

theorem Becomes.arises {scope : Scope} {user : Int64} {inner : Expr → Expr → Prop} {whole lowered : Expr}
    (becomes : Becomes scope user inner whole lowered) : Arises scope inner whole lowered := by
  open Fragment in
  cases becomes with
  | literal | bound | parameter | wildcard | user | boundUser => exact .kept trivial rfl .nil
  | column own => exact .column own
  | call name distinct each => exact .kept trivial rfl (paired_exprs each)
  | cast own converts => exact .kept (CastTarget.lower_of_ok converts) rfl (.cons (.expr own) .nil)
  | caseWhen before each behind =>
    refine .kept trivial rfl (List.rel_append (List.rel_append ?_ ?_) ?_)
    · exact paired_optional before
    · exact paired_branches each
    · exact paired_optional behind
  | binary operator one two => exact .kept trivial rfl (.cons (.expr one) (.cons (.expr two) .nil))
  | unary _ own | nested own | isNull _ own | isTruth _ _ own | textMatches own | matchAgainst own =>
    exact .kept trivial rfl (.cons (.expr own) .nil)
  | between negated one two three =>
    exact .kept trivial rfl (.cons (.expr one) (.cons (.expr two) (.cons (.expr three) .nil)))
  | inList negated own each => exact .kept trivial rfl (.cons (.expr own) (paired_exprs each))
  | like negated one two three =>
    exact .kept trivial rfl (.cons (.expr one) (.cons (.expr two) (paired_optional three)))
  | has negated listed each matched =>
    obtain ⟨reference, rfl, listed⟩ := testedList_of_ok listed
    exact .rows negated listed each matched
  | doubleTest own => exact .doubleTest own
  | unnest listed => exact .unnest listed

end Expr

/-! ## References at any depth -/

/-- Every column that is referred to in the fragment, at any depth, is an allowed one. -/
def Fragment.Refers (allowed : ColumnRef → Prop) (whole : Fragment) : Prop :=
  Everywhere (fun fragment => ∀ reference, fragment = .expr (.column reference) → allowed reference) whole

namespace Fragment

variable {allowed : ColumnRef → Prop}

theorem Refers.mono {other : ColumnRef → Prop} {whole : Fragment} (refers : whole.Refers allowed)
    (weaker : ∀ reference, allowed reference → other reference) : whole.Refers other :=
  fun fragment within reference same => weaker reference (refers fragment within reference same)

theorem refers_column {reference : ColumnRef} :
    (Fragment.expr (.column reference)).Refers allowed ↔ allowed reference := by
  rw [Refers, everywhere_iff]
  simp [inside]

theorem refers_form {whole : Expr} (form : ∀ reference, whole ≠ .column reference) :
    (Fragment.expr whole).Refers allowed ↔ ∀ part ∈ whole.inside, part.Refers allowed := by
  rw [Refers, everywhere_iff]
  apply and_iff_right
  intro reference same
  exact absurd (Fragment.expr.inj same) (form reference)

theorem refers_leaf {whole : Expr} (form : ∀ reference, whole ≠ .column reference)
    (leaf : whole.inside = []) : (Fragment.expr whole).Refers allowed := by
  rw [refers_form form, leaf]
  simp

theorem refers_anyOf {list : List Expr} {whole : Expr} (any : Expr.anyOf list = some whole)
    (each : ∀ expr ∈ list, (Fragment.expr expr).Refers allowed) : (Fragment.expr whole).Refers allowed := by
  cases list with
  | nil => cases any
  | cons first rest =>
    cases any
    obtain ⟨own, others⟩ := List.forall_mem_cons.mp each
    refine List.foldlRecOn (motive := fun expr => (Fragment.expr expr).Refers allowed) rest Expr.or own ?_
    intro left chain right listed
    rw [Expr.or, refers_form (by simp)]
    simpa using ⟨chain, others right listed⟩

end Fragment

open Fragment (refers_column refers_form refers_anyOf)

variable {allowed : ColumnRef → Prop}

theorem Expr.IsKept.refers {inner : Expr → Expr → Prop} {whole lowered : Expr} (kept : lowered.IsKept)
    (inside : List.Forall₂ (Fragment.Paired inner) whole.inside lowered.inside)
    (each : ∀ part result, .expr part ∈ whole.inside → inner part result →
      (Fragment.expr result).Refers allowed) : (Fragment.expr lowered).Refers allowed := by
  rw [refers_form]
  · refine forall₂_right inside fun part member result own => ?_
    cases own with
    | expr own => exact each _ _ member own
  · rintro reference rfl
    exact kept

theorem ListColumn.refers_matching {column : ListColumn} {pattern : Bool} {values : List Expr}
    {condition : Expr} (element : allowed ⟨none, ⟨Physical.element column.id, none⟩⟩)
    (each : ∀ value ∈ values, (Fragment.expr value).Refers allowed)
    (ok : column.matching pattern values = .ok condition) : (Fragment.expr condition).Refers allowed := by
  have own : (Fragment.expr column.elementExpr).Refers allowed := refers_column.mpr element
  rcases ListColumn.matching_of_ok ok with rfl | ⟨_, any⟩
  · rw [refers_form (by simp)]
    exact List.forall_mem_cons.mpr ⟨own, List.forall_mem_map.mpr each⟩
  · refine refers_anyOf any fun expr member => ?_
    obtain ⟨value, listed, rfl⟩ := List.mem_map.mp member
    rw [refers_form (by simp)]
    simpa using ⟨own, each value listed⟩

/-- A lookup of list elements refers to the row, to the side table and to what its condition refers to. -/
theorem ListColumn.refers_rowsWith {column : ListColumn} {condition : Expr}
    (row : allowed (Physical.metadataRef column.qualifier .rowId))
    (reference : allowed ⟨none, ⟨Physical.elementRow column.id, none⟩⟩)
    (own : (Fragment.expr condition).Refers allowed) (negated : Bool) :
    (Fragment.expr (column.rowsWith condition negated)).Refers allowed := by
  rw [rowsWith, refers_form (by simp), Expr.inside, List.forall_mem_cons, List.forall_mem_singleton]
  refine ⟨refers_column.mpr row, Fragment.everywhere_single.mpr ⟨by simp, ?_⟩⟩
  refine Fragment.everywhere_select.mpr ⟨by simp, ?_⟩
  have listed : (Fragment.expr (.named (Physical.elementRow column.id))).Refers allowed :=
    refers_column.mpr reference
  simpa [Select.exprs, Select.simple, Projection.itemList, Source.named, Source.conditions] using
    ⟨listed, own⟩

/-- A lowered expression refers to what the spelled out forms and the expressions inside refer to. -/
theorem Expr.Arises.refers {scope : Scope} {inner : Expr → Expr → Prop} {whole lowered : Expr}
    (arises : Arises scope inner whole lowered)
    (column : ∀ position reference, whole = .column reference → reference.LowersTo scope position lowered →
      (Fragment.expr lowered).Refers allowed)
    (double : ∀ test reference, whole = .doubleTest test reference → test.lower scope reference = .ok lowered →
      (Fragment.expr lowered).Refers allowed)
    (row : ∀ list : ListColumn, list.Of scope.binding → allowed (Physical.metadataRef list.qualifier .rowId))
    (side : ∀ id, ∀ name ∈ [Physical.element id, Physical.elementRow id], allowed (.plain none name))
    (each : ∀ part result, .expr part ∈ whole.inside → inner part result →
      (Fragment.expr result).Refers allowed) : (Fragment.expr lowered).Refers allowed := by
  have element (id : ColumnId) : allowed ⟨none, ⟨Physical.element id, none⟩⟩ := side id _ (by simp)
  cases arises with
  | column own => exact column _ _ rfl own
  | @rows negated reference condition values results pattern form list listed pairs matched =>
    have lowered : ∀ value ∈ results, (Fragment.expr value).Refers allowed :=
      forall₂_right pairs fun value member result own => each value result (by simp [inside, member]) own
    have own := ListColumn.refers_matching (element list.id) lowered matched
    exact ListColumn.refers_rowsWith (row list (ColumnRef.of_listColumn listed)) (side list.id _ (by simp))
      own negated
  | doubleTest own => exact double _ _ rfl own
  | unnest listed => exact refers_column.mpr (element _)
  | kept form _ inside => exact form.refers inside each

theorem RowMetadata.refers {binding : Binding}
    (each : ∀ bound ∈ binding.tables, ∀ name, allowed (Physical.metadataRef bound.correlation name))
    (bare : ∀ name, allowed (Physical.metadataRef none name)) (column : RowMetadata) :
    (Fragment.expr (column.expr binding)).Refers allowed := by
  have first (name : MetadataName) : (Fragment.expr (ofFirst binding name)).Refers allowed := by
    rw [ofFirst, refers_column]
    cases head : binding.tables.head? with
    | none => exact bare name
    | some bound => exact each bound (List.mem_of_mem_head? head) name
  cases column with
  | id => exact first .rowId
  | version => exact first .rowVersion
  | etag => exact first .rowEtag
  | benefactor view =>
    simp only [RowMetadata.expr]
    split
    · next table found =>
        have own := each table (List.mem_of_find?_eq_some found) .rowBenefactor
        simp [Physical.benefactor, Expr.apply, Expr.integer, refers_form, refers_column, own]
    · exact Fragment.refers_leaf (by simp [Expr.integer]) rfl

theorem ListColumn.refers_joined {column : ListColumn}
    (row : allowed (Physical.metadataRef (some column.owner) .rowId))
    (side : allowed (.plain (some column.sideTable) (Physical.elementRow column.id))) :
    (Fragment.expr column.joined).Refers allowed := by
  simp [joined, Expr.equals, refers_form, refers_column, row, side]

end TabularSql
