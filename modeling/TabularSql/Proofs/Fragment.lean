import TabularSql.Query.View

/-!
# Fragments of queries

An expression, a select or a query is a fragment of a tree. A fragment directly holds smaller ones: an
expression its operands and its subquery, a select the expressions of its clauses, a query the queries
of its common tables and its selects. What is asked of a tree at every depth is asked of every fragment
that can be reached this way, and what each fragment passes on from the ones inside it holds of all.
-/

namespace TabularSql

set_option autoImplicit false

/-- A part of a tree that can be looked at by itself. -/
inductive Fragment where
  | expr (expr : Expr)
  | select (select : Select)
  | query (query : Query)

namespace Source

def conditions : Source → List Expr
  | table _ => []
  | join left _ _ condition => left.conditions ++ [condition]

end Source

namespace Page

def exprs (page : Page) : List Expr :=
  page.limit :: page.offset.toList

end Page

namespace Expr

/-- The expressions and the query directly inside an expression, from left to right. -/
@[simp] def inside : Expr → List Fragment
  | literal _ | column _ | parameter _ | currentUser | wildcard | doubleTest .. | unnest _ => []
  | call _ _ arguments => arguments.map .expr
  | caseWhen operand branches otherwise =>
    operand.toList.map .expr ++
      branches.flatMap (fun (condition, result) => [.expr condition, .expr result]) ++
      otherwise.toList.map .expr
  | cast operand _ | unary _ operand => [.expr operand]
  | nested inner => [.expr inner]
  | binary _ left right => [.expr left, .expr right]
  | isNull tested _ | isTruth tested _ _ => [.expr tested]
  | between tested low high _ => [.expr tested, .expr low, .expr high]
  | inList tested candidates _ => .expr tested :: candidates.map .expr
  | inQuery tested candidates _ => [.expr tested, .query candidates]
  | like tested pattern escape _ => .expr tested :: .expr pattern :: escape.toList.map .expr
  | has tested values _ _ => .expr tested :: values.map .expr
  | textMatches text | matchAgainst text => [.expr text]

variable {operand otherwise : Option Expr} {branches : List (Expr × Expr)} {branch : Expr × Expr}

theorem condition_inside (member : branch ∈ branches) :
    .expr branch.1 ∈ (caseWhen operand branches otherwise).inside := by
  simp only [inside, List.mem_append, List.mem_flatMap]
  exact .inl (.inr ⟨branch, member, by simp⟩)

theorem result_inside (member : branch ∈ branches) :
    .expr branch.2 ∈ (caseWhen operand branches otherwise).inside := by
  simp only [inside, List.mem_append, List.mem_flatMap]
  exact .inl (.inr ⟨branch, member, by simp⟩)

end Expr

namespace Select

/-- The expressions of the clauses in the order in which they are written. -/
def exprs (select : Select) : List Expr :=
  select.projection.itemList.map SelectItem.expr ++ select.source.conditions ++
    select.definingFilter.toList ++ select.filter.toList ++ select.groupBy ++
    select.orderBy.map SortKey.expr ++ (select.page.map Page.exprs).getD []

variable {select : Select} {expr : Expr}

theorem mem_exprs : expr ∈ select.exprs ↔
    (∃ item ∈ select.projection.itemList, item.expr = expr) ∨ expr ∈ select.source.conditions ∨
      expr ∈ select.definingFilter ∨ expr ∈ select.filter ∨ expr ∈ select.groupBy ∨
      (∃ key ∈ select.orderBy, key.expr = expr) ∨ ∃ page ∈ select.page, expr ∈ page.exprs := by
  have window : expr ∈ (select.page.map Page.exprs).getD [] ↔
      ∃ page ∈ select.page, expr ∈ page.exprs := by
    cases select.page <;> simp
  simp only [exprs, List.mem_append, List.mem_map, Option.mem_toList, Option.mem_def, window,
    or_assoc]

theorem item_mem {item : SelectItem} (member : item ∈ select.projection.itemList) :
    item.expr ∈ select.exprs := by
  have listed : item.expr ∈ select.projection.itemList.map SelectItem.expr := List.mem_map_of_mem member
  simp only [exprs, List.mem_append, listed, true_or]

theorem condition_mem (member : expr ∈ select.source.conditions) : expr ∈ select.exprs := by
  simp only [exprs, List.mem_append, member, or_true, true_or]

theorem defining_mem (given : expr ∈ select.definingFilter) : expr ∈ select.exprs := by
  simp only [exprs, List.mem_append, Option.mem_toList.mpr given, or_true, true_or]

theorem filter_mem (given : expr ∈ select.filter) : expr ∈ select.exprs := by
  simp only [exprs, List.mem_append, Option.mem_toList.mpr given, or_true, true_or]

theorem group_mem (member : expr ∈ select.groupBy) : expr ∈ select.exprs := by
  simp only [exprs, List.mem_append, member, or_true, true_or]

theorem key_mem {key : SortKey} (member : key ∈ select.orderBy) : key.expr ∈ select.exprs := by
  have listed : key.expr ∈ select.orderBy.map SortKey.expr := List.mem_map_of_mem member
  simp only [exprs, List.mem_append, listed, or_true, true_or]

theorem window_mem {page : Page} (given : page ∈ select.page) (member : expr ∈ page.exprs) :
    expr ∈ select.exprs := by
  have window : (select.page.map Page.exprs).getD [] = page.exprs := by rw [Option.mem_def.mp given]; rfl
  simp only [exprs, List.mem_append, window, member, or_true]

end Select

namespace Query

def elements (query : Query) : List CommonTable := query.commonTables.getD []

end Query

namespace Fragment

def inside : Fragment → List Fragment
  | expr whole => whole.inside
  | select whole => whole.exprs.map .expr
  | query whole =>
    whole.elements.map (fun element => .query element.query) ++ whole.parts.map .select

/-- A measure that is smaller for the fragments inside. -/
noncomputable def size : Fragment → Nat
  | expr whole => sizeOf whole
  | select whole => sizeOf whole
  | query whole => sizeOf whole

end Fragment

/-! ## Induction over fragments -/

theorem Source.condition_size : ∀ (source : Source) (condition : Expr),
    condition ∈ source.conditions → sizeOf condition < sizeOf source
  | .table _, condition, member => by simp [Source.conditions] at member
  | .join left kind right own, condition, member => by
      simp only [Source.conditions, List.mem_append, List.mem_singleton] at member
      rcases member with inner | rfl
      · have smaller := Source.condition_size left condition inner
        simp only [Source.join.sizeOf_spec]
        omega
      · simp only [Source.join.sizeOf_spec]
        omega

theorem Expr.size_of_optional {optional : Option Expr} {part : Fragment}
    (member : part ∈ optional.toList.map Fragment.expr) : part.size < sizeOf optional := by
  cases optional with
  | none => simp at member
  | some expr =>
    simp only [Option.toList_some, List.map_cons, List.map_nil, List.mem_singleton] at member
    subst member
    simp [Fragment.size]

theorem Expr.size_of_listed {list : List Expr} {part : Fragment}
    (member : part ∈ list.map Fragment.expr) : part.size < sizeOf list := by
  obtain ⟨expr, listed, rfl⟩ := List.mem_map.mp member
  exact List.sizeOf_lt_of_mem listed

theorem Expr.size_of_branch {branches : List (Expr × Expr)} {part : Fragment}
    (member : part ∈ branches.flatMap fun (condition, result) =>
      [Fragment.expr condition, Fragment.expr result]) : part.size < sizeOf branches := by
  obtain ⟨⟨condition, result⟩, listed, inBranch⟩ := List.mem_flatMap.mp member
  have smaller := List.sizeOf_lt_of_mem listed
  simp only [Prod.mk.sizeOf_spec] at smaller
  simp only [List.mem_cons, List.not_mem_nil, or_false] at inBranch
  rcases inBranch with rfl | rfl <;> simp only [Fragment.size] <;> omega

theorem Expr.inside_size {whole : Expr} {part : Fragment} (member : part ∈ whole.inside) :
    part.size < sizeOf whole := by
  cases whole with
  | literal | column | parameter | currentUser | wildcard | doubleTest | unnest =>
    simp at member
  | cast operand _ | unary _ operand | nested operand | isNull operand _ | isTruth operand _ _
  | textMatches operand | matchAgainst operand =>
    simp only [Expr.inside, List.mem_singleton] at member
    subst member
    simp [Fragment.size] <;> omega
  | binary _ left right =>
    simp only [Expr.inside, List.mem_cons, List.not_mem_nil, or_false] at member
    rcases member with rfl | rfl
    all_goals
      simp only [Fragment.size, Expr.binary.sizeOf_spec]
      omega
  | between tested low high _ =>
    simp only [Expr.inside, List.mem_cons, List.not_mem_nil, or_false] at member
    rcases member with rfl | rfl | rfl <;> simp [Fragment.size] <;> omega
  | inQuery tested candidates _ =>
    simp only [Expr.inside, List.mem_cons, List.not_mem_nil, or_false] at member
    rcases member with rfl | rfl
    all_goals
      simp only [Fragment.size, Expr.inQuery.sizeOf_spec]
      omega
  | call _ _ arguments =>
    have smaller := Expr.size_of_listed member
    simp
    omega
  | inList tested list _ | has tested list _ _ =>
    rcases List.mem_cons.mp member with rfl | listed
    · simp [Fragment.size]
      omega
    · have smaller := Expr.size_of_listed listed
      simp
      omega
  | like tested pattern escape _ =>
    simp only [Expr.inside, List.mem_cons] at member
    rcases member with rfl | rfl | optional
    · simp [Fragment.size]
      omega
    · simp [Fragment.size]
      omega
    · have smaller := Expr.size_of_optional optional
      simp
      omega
  | caseWhen operand branches otherwise =>
    simp only [Expr.inside, List.mem_append] at member
    rcases member with (optional | branch) | optional
    · have smaller := Expr.size_of_optional optional
      simp
      omega
    · have smaller := Expr.size_of_branch branch
      simp
      omega
    · have smaller := Expr.size_of_optional optional
      simp
      omega

theorem Select.expr_size {select : Select} {expr : Expr} (member : expr ∈ select.exprs) :
    sizeOf expr < sizeOf select := by
  obtain ⟨distinct, projection, source, definingFilter, filter, groupBy, orderBy, page⟩ := select
  simp only [Select.exprs, List.mem_append] at member
  simp only [Select.mk.sizeOf_spec]
  have optional {clause : Option Expr} (inClause : expr ∈ clause.toList) :
      sizeOf expr < sizeOf clause := by
    rw [Option.mem_toList] at inClause
    subst inClause
    simp
  rcases member with (((((item | condition) | defining) | own) | group) | key) | window
  · cases projection with
    | all => simp [Projection.itemList] at item
    | items list =>
      obtain ⟨⟨own, name⟩, listed, rfl⟩ := List.mem_map.mp item
      have smaller := List.sizeOf_lt_of_mem listed
      simp only [SelectItem.mk.sizeOf_spec] at smaller
      simp only [Projection.items.sizeOf_spec]
      simp only [Projection.itemList] at smaller
      omega
  · have smaller := Source.condition_size source expr condition
    omega
  · have smaller := optional defining
    omega
  · have smaller := optional own
    omega
  · have smaller := List.sizeOf_lt_of_mem group
    omega
  · obtain ⟨⟨own, direction⟩, listed, rfl⟩ := List.mem_map.mp key
    have smaller := List.sizeOf_lt_of_mem listed
    simp only [SortKey.mk.sizeOf_spec] at smaller
    simp only
    omega
  · cases page with
    | none => simp at window
    | some page =>
      obtain ⟨limit, offset⟩ := page
      simp only [Option.map_some, Option.getD_some, Page.exprs, List.mem_cons] at window
      simp only [Option.some.sizeOf_spec, Page.mk.sizeOf_spec]
      rcases window with rfl | inOffset
      · omega
      · have smaller := optional inOffset
        omega

theorem Query.inside_size {query : Query} {part : Fragment}
    (member : part ∈ (Fragment.query query).inside) : part.size < sizeOf query := by
  obtain ⟨commonTables, first, unions⟩ := query
  simp only [Fragment.inside, List.mem_append, Query.parts, List.map_cons, List.mem_cons] at member
  simp only [Query.mk.sizeOf_spec]
  rcases member with common | rfl | branch
  · obtain ⟨⟨name, columns, inner⟩, listed, rfl⟩ := List.mem_map.mp common
    cases commonTables with
    | none => simp [Query.elements] at listed
    | some elements =>
      have smaller := List.sizeOf_lt_of_mem (show _ ∈ elements from listed)
      simp only [CommonTable.mk.sizeOf_spec] at smaller
      simp only [Fragment.size, Option.some.sizeOf_spec]
      omega
  · simp only [Fragment.size]
    omega
  · obtain ⟨select, selected, rfl⟩ := List.mem_map.mp branch
    obtain ⟨⟨all, own⟩, listed, rfl⟩ := List.mem_map.mp selected
    have smaller := List.sizeOf_lt_of_mem listed
    simp only [UnionBranch.mk.sizeOf_spec] at smaller
    simp only [Fragment.size]
    omega

namespace Fragment

variable {whole : Fragment} {property : Fragment → Prop}

theorem inside_size {part : Fragment} (member : part ∈ whole.inside) :
    part.size < whole.size := by
  cases whole with
  | expr whole => exact Expr.inside_size member
  | select whole =>
    obtain ⟨expr, listed, rfl⟩ := List.mem_map.mp member
    exact Select.expr_size listed
  | query whole => exact Query.inside_size member

/-- What every fragment has as soon as the fragments inside it have it, all fragments have. -/
theorem induction {motive : Fragment → Prop}
    (step : ∀ whole, (∀ part ∈ whole.inside, motive part) → motive whole) (whole : Fragment) :
    motive whole :=
  step whole fun part _ => induction step part
termination_by whole.size
decreasing_by exact inside_size (by assumption)

/-- The same for expressions, when only the expressions inside matter. -/
theorem expr_induction {motive : Expr → Prop}
    (step : ∀ whole : Expr, (∀ part, Fragment.expr part ∈ whole.inside → motive part) → motive whole)
    (whole : Expr) : motive whole := by
  suffices every : ∀ fragment own, fragment = Fragment.expr own → motive own from every _ whole rfl
  intro fragment
  induction fragment using Fragment.induction with
  | step fragment ih =>
    rintro own rfl
    exact step own fun part member => ih (Fragment.expr part) member part rfl

/-! ## Every depth -/

/-- The fragment itself, or a fragment at any depth inside it. -/
inductive Within : Fragment → Fragment → Prop where
  | self (fragment : Fragment) : Within fragment fragment
  | deeper {fragment part whole : Fragment} (member : part ∈ whole.inside)
      (within : Within fragment part) : Within fragment whole

/-- What holds of a fragment and of everything inside it, at any depth. -/
def Everywhere (property : Fragment → Prop) (whole : Fragment) : Prop :=
  ∀ fragment, Within fragment whole → property fragment

theorem everywhere_iff :
    Everywhere property whole ↔
      property whole ∧ ∀ part ∈ whole.inside, Everywhere property part := by
  constructor
  · intro everywhere
    exact ⟨everywhere _ (.self _), fun part member fragment within =>
      everywhere fragment (.deeper member within)⟩
  · rintro ⟨here, inside⟩ fragment within
    cases within with
    | self => exact here
    | deeper member deeper => exact inside _ member fragment deeper

theorem everywhere_select {whole : Select} :
    Everywhere property (.select whole) ↔
      property (.select whole) ∧ ∀ expr ∈ whole.exprs, Everywhere property (.expr expr) := by
  rw [everywhere_iff, inside, List.forall_mem_map]

theorem everywhere_query {whole : Query} :
    Everywhere property (.query whole) ↔ property (.query whole) ∧
      (∀ element ∈ whole.elements, Everywhere property (.query element.query)) ∧
        ∀ part ∈ whole.parts, Everywhere property (.select part) := by
  rw [everywhere_iff, inside, List.forall_mem_append, List.forall_mem_map, List.forall_mem_map]

theorem everywhere_single {part : Select} :
    Everywhere property (.query (.single part)) ↔
      property (.query (.single part)) ∧ Everywhere property (.select part) := by
  rw [everywhere_query]
  simp [Query.single, Query.elements, Query.parts]

theorem Everywhere.and {first second : Fragment → Prop} (holds : Everywhere first whole)
    (other : Everywhere second whole) :
    Everywhere (fun fragment => first fragment ∧ second fragment) whole :=
  fun fragment within => ⟨holds fragment within, other fragment within⟩

/-- Whether a test passes at every depth. -/
def checks (test : Fragment → Bool) (whole : Fragment) : Bool :=
  test whole && whole.inside.attach.all fun ⟨part, _⟩ => checks test part
termination_by whole.size
decreasing_by exact inside_size (by assumption)

theorem checks_iff [DecidablePred property] (whole : Fragment) :
    checks (fun fragment => decide (property fragment)) whole = true ↔ Everywhere property whole := by
  induction whole using Fragment.induction with
  | step whole ih =>
    rw [checks, everywhere_iff, Bool.and_eq_true, decide_eq_true_eq, List.all_eq_true]
    refine and_congr_right fun _ => ⟨fun passes part member => ?_, fun each part _ => ?_⟩
    · exact (ih part member).mp (passes ⟨part, member⟩ (List.mem_attach _ _))
    · exact (ih part.1 part.2).mpr (each part.1 part.2)

instance {property : Fragment → Prop} [DecidablePred property] :
    DecidablePred (Everywhere property) :=
  fun whole => decidable_of_iff _ (checks_iff whole)

/-! ## Some depth -/

section

variable {test : Expr → Prop}

/-- At some depth there is an expression that passes the test. -/
def Holds (test : Expr → Prop) (whole : Fragment) : Prop :=
  ∃ expr, test expr ∧ Within (.expr expr) whole

theorem holds_expr {whole : Expr} :
    Holds test (.expr whole) ↔ test whole ∨ ∃ part ∈ whole.inside, Holds test part := by
  constructor
  · rintro ⟨expr, passes, within⟩
    cases within with
    | self => exact .inl passes
    | deeper member within => exact .inr ⟨_, member, expr, passes, within⟩
  · rintro (passes | ⟨part, member, expr, passes, within⟩)
    · exact ⟨whole, passes, .self _⟩
    · exact ⟨expr, passes, .deeper member within⟩

/-- A fragment that does not pass itself holds what is inside it. -/
theorem holds_inside {whole : Fragment} (other : ∀ expr, whole = .expr expr → ¬ test expr) :
    Holds test whole ↔ ∃ part ∈ whole.inside, Holds test part := by
  constructor
  · rintro ⟨expr, passes, within⟩
    cases within with
    | self => exact absurd passes (other expr rfl)
    | deeper member within => exact ⟨_, member, expr, passes, within⟩
  · rintro ⟨part, member, expr, passes, within⟩
    exact ⟨expr, passes, .deeper member within⟩

theorem holds_form {whole : Expr} (other : ¬ test whole) :
    Holds test (.expr whole) ↔ ∃ part ∈ whole.inside, Holds test part := by
  rw [holds_expr, or_iff_right other]

theorem not_holds_leaf {whole : Expr} (other : ¬ test whole) (leaf : whole.inside = []) :
    ¬ Holds test (.expr whole) := by
  rw [holds_form other, leaf]
  simp

theorem holds_select {whole : Select} :
    Holds test (.select whole) ↔ ∃ expr ∈ whole.exprs, Holds test (.expr expr) := by
  rw [holds_inside nofun]
  constructor
  · rintro ⟨part, member, holds⟩
    obtain ⟨expr, listed, rfl⟩ := List.mem_map.mp member
    exact ⟨expr, listed, holds⟩
  · rintro ⟨expr, listed, holds⟩
    exact ⟨_, List.mem_map_of_mem listed, holds⟩

theorem holds_query {whole : Query} : Holds test (.query whole) ↔
    (∃ element ∈ whole.elements, Holds test (.query element.query)) ∨
      ∃ part ∈ whole.parts, Holds test (.select part) := by
  rw [holds_inside nofun]
  constructor
  · rintro ⟨part, member, holds⟩
    rcases List.mem_append.mp member with inElement | inPart
    · obtain ⟨element, listed, rfl⟩ := List.mem_map.mp inElement
      exact .inl ⟨element, listed, holds⟩
    · obtain ⟨select, listed, rfl⟩ := List.mem_map.mp inPart
      exact .inr ⟨select, listed, holds⟩
  · rintro (⟨element, listed, holds⟩ | ⟨part, listed, holds⟩)
    · exact ⟨_, List.mem_append_left _ (List.mem_map.mpr ⟨element, listed, rfl⟩), holds⟩
    · exact ⟨_, List.mem_append_right _ (List.mem_map_of_mem listed), holds⟩

theorem holds_single {part : Select} : Holds test (.query (.single part)) ↔ Holds test (.select part) := by
  rw [holds_query]
  simp [Query.single, Query.elements, Query.parts]

end

end Fragment

end TabularSql
