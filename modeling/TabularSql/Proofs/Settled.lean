import TabularSql.Proofs.RoundTrip

/-!
# Trees as their text is read

Two forms of a tree share their text with another form: a minus in front of a number is read as part of the
number, and a physical type that is named like a logical type is read as the logical type. A settled tree
has the form that is read. Everything else of a legible tree is read as it is, so the text of a legible
query is read as the settled query.
-/

namespace TabularSql

set_option autoImplicit false

/-! ## Settled trees -/

namespace CastTarget

/-- The target as its text is read: the name of a logical type stands for that type. -/
def settled : CastTarget → CastTarget
  | physical name => ((ColumnType.ofName? name).map type).getD (physical name)
  | other => other

end CastTarget

namespace Expr

/-- An operator in front of an operand as it is read: a minus belongs to the number behind it. -/
def signed : UnaryOperator → Expr → Expr
  | .negate, literal (.number digits) =>
    if digits.toList.head? = some '-' then unary .negate (literal (.number digits))
    else literal (.number ("-" ++ digits))
  | operator, operand => unary operator operand

end Expr

mutual

def Expr.settled : Expr → Expr
  | .literal value => .literal value
  | .column reference => .column reference
  | .parameter name => .parameter name
  | .currentUser => .currentUser
  | .wildcard => .wildcard
  | .call name distinct arguments => .call name distinct (Expr.settledAll arguments)
  | .cast operand target => .cast operand.settled target.settled
  | .caseWhen operand branches otherwise =>
    .caseWhen (Expr.settledOption operand) (Expr.settledBranches branches)
      (Expr.settledOption otherwise)
  | .binary operator left right => .binary operator left.settled right.settled
  | .unary operator operand => .signed operator operand.settled
  | .nested inner => .nested inner.settled
  | .isNull tested negated => .isNull tested.settled negated
  | .isTruth tested value negated => .isTruth tested.settled value negated
  | .between tested low high negated =>
    .between tested.settled low.settled high.settled negated
  | .inList tested candidates negated =>
    .inList tested.settled (Expr.settledAll candidates) negated
  | .inQuery tested candidates negated => .inQuery tested.settled candidates.settled negated
  | .like tested pattern escape negated =>
    .like tested.settled pattern.settled (Expr.settledOption escape) negated
  | .has tested values pattern negated =>
    .has tested.settled (Expr.settledAll values) pattern negated
  | .doubleTest test reference => .doubleTest test reference
  | .textMatches text => .textMatches text.settled
  | .matchAgainst text => .matchAgainst text.settled
  | .unnest reference => .unnest reference

def Expr.settledAll : List Expr → List Expr
  | [] => []
  | expr :: rest => expr.settled :: Expr.settledAll rest

def Expr.settledOption : Option Expr → Option Expr
  | none => none
  | some expr => some expr.settled

def Expr.settledBranches : List (Expr × Expr) → List (Expr × Expr)
  | [] => []
  | (condition, result) :: rest =>
    (condition.settled, result.settled) :: Expr.settledBranches rest

def Source.settled : Source → Source
  | .table only => .table only
  | .join left kind right condition => .join left.settled kind right condition.settled

def SelectItem.settledAll : List SelectItem → List SelectItem
  | [] => []
  | ⟨expr, name⟩ :: rest => ⟨expr.settled, name⟩ :: SelectItem.settledAll rest

def Projection.settled : Projection → Projection
  | .all => .all
  | .items list => .items (SelectItem.settledAll list)

def SortKey.settledAll : List SortKey → List SortKey
  | [] => []
  | ⟨expr, direction⟩ :: rest => ⟨expr.settled, direction⟩ :: SortKey.settledAll rest

def Page.settledOption : Option Page → Option Page
  | none => none
  | some ⟨limit, offset⟩ => some ⟨limit.settled, Expr.settledOption offset⟩

def Select.settled : Select → Select
  | ⟨distinct, projection, source, definingFilter, filter, groupBy, orderBy, page⟩ =>
    ⟨distinct, projection.settled, source.settled, Expr.settledOption definingFilter,
      Expr.settledOption filter, Expr.settledAll groupBy, SortKey.settledAll orderBy,
      Page.settledOption page⟩

def UnionBranch.settledAll : List UnionBranch → List UnionBranch
  | [] => []
  | ⟨all, select⟩ :: rest => ⟨all, select.settled⟩ :: UnionBranch.settledAll rest

def CommonTable.settledAll : List CommonTable → List CommonTable
  | [] => []
  | ⟨name, columns, query⟩ :: rest => ⟨name, columns, query.settled⟩ :: CommonTable.settledAll rest

def CommonTable.settledClause : Option (List CommonTable) → Option (List CommonTable)
  | none => none
  | some elements => some (CommonTable.settledAll elements)

def Query.settled : Query → Query
  | ⟨commonTables, first, unions⟩ =>
    ⟨CommonTable.settledClause commonTables, first.settled, UnionBranch.settledAll unions⟩

end

/-! ## The parts of a settled tree -/

@[simp] theorem Expr.settledAll_eq_map (list : List Expr) : Expr.settledAll list = list.map Expr.settled := by
  induction list with
  | nil => rfl
  | cons expr rest ih => rw [Expr.settledAll, ih, List.map_cons]

@[simp] theorem Expr.settledOption_eq_map (clause : Option Expr) :
    Expr.settledOption clause = clause.map Expr.settled := by
  cases clause <;> rfl

@[simp] theorem Expr.settledBranches_eq_map (branches : List (Expr × Expr)) :
    Expr.settledBranches branches = branches.map fun branch => (branch.1.settled, branch.2.settled) := by
  induction branches with
  | nil => rfl
  | cons branch rest ih =>
    obtain ⟨condition, result⟩ := branch
    rw [Expr.settledBranches, ih, List.map_cons]

namespace SelectItem

def settled (item : SelectItem) : SelectItem := ⟨item.expr.settled, item.alias?⟩

@[simp] theorem settledAll_eq_map (list : List SelectItem) : settledAll list = list.map settled := by
  induction list with
  | nil => rfl
  | cons item rest ih =>
    obtain ⟨expr, name⟩ := item
    rw [settledAll, ih, List.map_cons, settled]

end SelectItem

namespace SortKey

def settled (key : SortKey) : SortKey := ⟨key.expr.settled, key.direction⟩

@[simp] theorem settledAll_eq_map (list : List SortKey) : settledAll list = list.map settled := by
  induction list with
  | nil => rfl
  | cons key rest ih =>
    obtain ⟨expr, direction⟩ := key
    rw [settledAll, ih, List.map_cons, settled]

end SortKey

namespace Page

def settled (page : Page) : Page := ⟨page.limit.settled, page.offset.map Expr.settled⟩

@[simp] theorem settledOption_eq_map (page : Option Page) : settledOption page = page.map settled := by
  match page with
  | none => rfl
  | some ⟨limit, offset⟩ => simp [settledOption, settled]

@[simp] theorem exprs_settled (page : Page) : page.settled.exprs = page.exprs.map Expr.settled := by
  obtain ⟨limit, offset⟩ := page
  cases offset <;> rfl

end Page

namespace Source

@[simp] theorem tables_settled (source : Source) : source.settled.tables = source.tables := by
  match source with
  | .table _ => rfl
  | .join left _ right _ =>
    have before := tables_settled left
    simp [settled, tables, before]

@[simp] theorem conditions_settled (source : Source) :
    source.settled.conditions = source.conditions.map Expr.settled := by
  match source with
  | .table _ => rfl
  | .join left _ right _ =>
    have before := conditions_settled left
    simp [settled, conditions, before]

end Source

namespace Projection

@[simp] theorem itemList_settled (projection : Projection) :
    projection.settled.itemList = projection.itemList.map SelectItem.settled := by
  cases projection with
  | all => rfl
  | items list => simp [settled, itemList]

end Projection

namespace Select

@[simp] theorem exprs_settled (select : Select) : select.settled.exprs = select.exprs.map Expr.settled := by
  obtain ⟨distinct, projection, source, definingFilter, filter, groupBy, orderBy, page⟩ := select
  have items : projection.settled.itemList.map SelectItem.expr =
      (projection.itemList.map SelectItem.expr).map Expr.settled := by
    simp [Function.comp_def, SelectItem.settled]
  have keys : (SortKey.settledAll orderBy).map SortKey.expr =
      (orderBy.map SortKey.expr).map Expr.settled := by
    simp [Function.comp_def, SortKey.settled]
  have optional (clause : Option Expr) :
      (Expr.settledOption clause).toList = clause.toList.map Expr.settled := by
    cases clause <;> rfl
  have pages : ((Page.settledOption page).map Page.exprs).getD [] =
      ((page.map Page.exprs).getD []).map Expr.settled := by
    cases page <;> simp
  simp only [settled, exprs, items, keys, optional, pages, Source.conditions_settled,
    Expr.settledAll_eq_map, List.map_append]

end Select

@[simp] theorem CommonTable.settledAll_eq_map (elements : List CommonTable) : settledAll elements =
    elements.map fun element => { element with query := element.query.settled } := by
  induction elements with
  | nil => rfl
  | cons element rest ih =>
    obtain ⟨name, columns, inner⟩ := element
    rw [settledAll, ih, List.map_cons]

namespace Query

@[simp] theorem elements_settled (query : Query) : query.settled.elements =
    query.elements.map fun element => { element with query := element.query.settled } := by
  obtain ⟨commonTables, first, unions⟩ := query
  cases commonTables with
  | none => rfl
  | some elements => exact CommonTable.settledAll_eq_map elements

@[simp] theorem parts_settled (query : Query) : query.settled.parts = query.parts.map Select.settled := by
  obtain ⟨commonTables, first, unions⟩ := query
  have branches : (UnionBranch.settledAll unions).map UnionBranch.select =
      (unions.map UnionBranch.select).map Select.settled := by
    induction unions with
    | nil => rfl
    | cons branch rest ih =>
      obtain ⟨all, select⟩ := branch
      rw [UnionBranch.settledAll, List.map_cons, ih, List.map_cons, List.map_cons]
  simp [settled, parts, branches]

end Query

namespace Fragment

def settled : Fragment → Fragment
  | expr whole => expr whole.settled
  | select whole => select whole.settled
  | query whole => query whole.settled

end Fragment

namespace Expr

theorem inside_signed {operator : UnaryOperator} {operand : Expr} {part : Fragment}
    (member : part ∈ (signed operator operand).inside) : part = .expr operand := by
  unfold signed at member
  split at member
  · split at member
    · simpa using member
    · simp at member
  · simpa using member

theorem inside_settled {whole : Expr} {part : Fragment} (member : part ∈ whole.settled.inside) :
    ∃ own ∈ whole.inside, part = own.settled := by
  cases whole with
  | unary operator operand =>
    rw [settled] at member
    exact ⟨.expr operand, by simp, inside_signed member⟩
  | literal | column | parameter | currentUser | wildcard | doubleTest | unnest =>
    simp [settled] at member
  | _ =>
    simp [settled] at member ⊢
    grind [Fragment.settled]

theorem level_signed (operator : UnaryOperator) (operand : Expr) :
    (signed operator operand).level ≤ (unary operator operand).level := by
  unfold signed
  split
  · split <;> simp [level]
  · exact Nat.le_refl _

theorem level_settled (expr : Expr) : expr.settled.level ≤ expr.level := by
  cases expr with
  | unary operator operand =>
    have same : (unary operator operand.settled).level = (unary operator operand).level := by
      cases operator <;> rfl
    rw [settled, ← same]
    exact level_signed operator operand.settled
  | _ => exact Nat.le_refl _

end Expr

theorem Fragment.inside_settled {whole part : Fragment} (member : part ∈ whole.settled.inside) :
    ∃ own ∈ whole.inside, part = own.settled := by
  cases whole with
  | expr whole => exact Expr.inside_settled member
  | select whole =>
    simp only [settled, inside, Select.exprs_settled, List.map_map, List.mem_map,
      Function.comp_apply] at member
    obtain ⟨expr, listed, rfl⟩ := member
    exact ⟨.expr expr, List.mem_map_of_mem listed, rfl⟩
  | query whole =>
    simp only [settled, inside, Query.elements_settled, Query.parts_settled, List.map_map,
      List.mem_append, List.mem_map, Function.comp_apply] at member
    rcases member with ⟨element, listed, rfl⟩ | ⟨own, listed, rfl⟩
    · exact ⟨.query element.query, List.mem_append_left _ (List.mem_map.mpr ⟨element, listed, rfl⟩), rfl⟩
    · exact ⟨.select own, List.mem_append_right _ (List.mem_map_of_mem listed), rfl⟩

/-! ## The text is the same -/

theorem CastTarget.text_settled (target : CastTarget) : target.settled.text = target.text := by
  cases target with
  | physical name =>
    simp only [settled]
    cases known : ColumnType.ofName? name with
    | none => rfl
    | some type => simpa [CastTarget.text] using List.find?_some known
  | _ => rfl

theorem Expr.text_signed (operator : UnaryOperator) (operand : Expr) :
    (signed operator operand).text = (unary operator operand).text := by
  unfold signed
  split
  · split
    · rfl
    · rfl
  · rfl

def Fragment.SameText : Fragment → Prop
  | expr whole => whole.settled.text = whole.text
  | select whole => whole.settled.text = whole.text
  | query whole => whole.settled.text = whole.text

namespace Expr

theorem texts_settled {list : List Expr} (each : ∀ expr ∈ list, expr.settled.text = expr.text) :
    texts (settledAll list) = texts list := by
  rw [settledAll_eq_map, texts_eq_map, texts_eq_map, List.map_map]
  exact List.map_congr_left each

theorem textAfter_settled {clause : Option Expr} (each : ∀ expr ∈ clause, expr.settled.text = expr.text)
    (keyword : String) : textAfter keyword (settledOption clause) = textAfter keyword clause := by
  cases clause with
  | none => rfl
  | some expr =>
    dsimp only [settledOption, textAfter]
    rw [each expr rfl]

theorem branchTexts_settled {branches : List (Expr × Expr)}
    (each : ∀ branch ∈ branches, branch.1.settled.text = branch.1.text ∧
      branch.2.settled.text = branch.2.text) :
    branchTexts (settledBranches branches) = branchTexts branches := by
  induction branches with
  | nil => rfl
  | cons branch rest ih =>
    obtain ⟨condition, result⟩ := branch
    obtain ⟨first, second⟩ := each (condition, result) (by simp)
    have others := ih fun other member => each other (by simp [member])
    dsimp only [settledBranches, branchTexts]
    rw [first, second, others]

theorem text_settled_of_inside {whole : Expr} (inside : ∀ part ∈ whole.inside, part.SameText) :
    whole.settled.text = whole.text := by
  have own (part : Expr) (member : .expr part ∈ whole.inside) : part.settled.text = part.text :=
    inside (.expr part) member
  cases whole with
  | literal | column | parameter | currentUser | wildcard | doubleTest | unnest => rfl
  | call name distinct arguments =>
    have listed := @texts_settled arguments fun expr member => own expr (by simp [member])
    dsimp only [settled, text]
    rw [listed]
  | cast operand target =>
    dsimp only [settled, text]
    rw [own operand (by simp), target.text_settled]
  | caseWhen operand branches otherwise =>
    have first := @textAfter_settled operand fun expr given =>
      own expr (by simp [Option.mem_def.mp given])
    have middle := @branchTexts_settled branches fun branch member =>
      ⟨own _ (by simp; grind), own _ (by simp; grind)⟩
    have last := @textAfter_settled otherwise fun expr given =>
      own expr (by simp [Option.mem_def.mp given])
    dsimp only [settled, text]
    rw [first, middle, last]
  | binary operator left right =>
    dsimp only [settled, text]
    rw [own left (by simp), own right (by simp)]
  | unary operator operand =>
    dsimp only [settled]
    rw [text_signed]
    dsimp only [text]
    rw [own operand (by simp)]
  | nested operand | isNull operand _ | isTruth operand _ _ | textMatches operand
  | matchAgainst operand =>
    dsimp only [settled, text]
    rw [own operand (by simp)]
  | between tested low high negated =>
    dsimp only [settled, text]
    rw [own tested (by simp), own low (by simp),
      own high (by simp)]
  | inList tested list _ | has tested list _ _ =>
    have listed := @texts_settled list fun expr member => own expr (by simp [member])
    dsimp only [settled, text]
    rw [own tested (by simp), listed]
  | inQuery tested candidates negated =>
    have queried : candidates.settled.text = candidates.text :=
      inside (.query candidates) (by simp)
    dsimp only [settled, text]
    rw [own tested (by simp), queried]
  | like tested pattern escape negated =>
    have last := @textAfter_settled escape fun expr given =>
      own expr (by simp [Option.mem_def.mp given])
    dsimp only [settled, text]
    rw [own tested (by simp), own pattern (by simp), last]

end Expr

theorem Source.text_settled {source : Source}
    (each : ∀ condition ∈ source.conditions, condition.settled.text = condition.text) :
    source.settled.text = source.text := by
  match source with
  | .table _ => rfl
  | .join left kind right condition =>
    have before := @text_settled left fun own member => each own (by simp [Source.conditions, member])
    dsimp only [Source.settled, Source.text]
    rw [before, each condition (by simp [Source.conditions])]

theorem SelectItem.texts_settled {list : List SelectItem}
    (each : ∀ item ∈ list, item.expr.settled.text = item.expr.text) :
    SelectItem.texts (SelectItem.settledAll list) = SelectItem.texts list := by
  rw [settledAll_eq_map, texts_eq_map, texts_eq_map, List.map_map]
  refine List.map_congr_left fun item member => ?_
  have own := each item member
  obtain ⟨expr, _ | name⟩ := item <;> simpa [settled, SelectItem.text] using own

theorem SortKey.texts_settled {list : List SortKey}
    (each : ∀ key ∈ list, key.expr.settled.text = key.expr.text) :
    SortKey.texts (SortKey.settledAll list) = SortKey.texts list := by
  rw [settledAll_eq_map, texts_eq_map, texts_eq_map, List.map_map]
  refine List.map_congr_left fun key member => ?_
  have own := each key member
  obtain ⟨expr, _ | direction⟩ := key <;> simpa [settled, SortKey.text] using own

theorem Page.textAfter_settled {page : Option Page}
    (each : ∀ own ∈ page, ∀ expr ∈ own.exprs, expr.settled.text = expr.text) :
    Page.textAfter (Page.settledOption page) = Page.textAfter page := by
  match page with
  | none => rfl
  | some ⟨limit, offset⟩ =>
    have own := each ⟨limit, offset⟩ rfl
    have last := @Expr.textAfter_settled offset fun expr given =>
      own expr (by simp [Page.exprs, Option.mem_def.mp given])
    dsimp only [Page.settledOption, Page.textAfter, Page.text]
    rw [own limit (by simp [Page.exprs]), last]

theorem Select.text_settled_of_inside {select : Select}
    (each : ∀ expr ∈ select.exprs, expr.settled.text = expr.text) : select.settled.text = select.text := by
  have items := @SelectItem.texts_settled select.projection.itemList fun item member =>
    each item.expr (item_mem member)
  have source := @Source.text_settled select.source fun own member => each own (condition_mem member)
  have defining := @Expr.textAfter_settled select.definingFilter fun own given =>
    each own (defining_mem given)
  have filter := @Expr.textAfter_settled select.filter fun own given => each own (filter_mem given)
  have groups := @Expr.texts_settled select.groupBy fun own member => each own (group_mem member)
  have keys := @SortKey.texts_settled select.orderBy fun key member => each key.expr (key_mem member)
  have window := @Page.textAfter_settled select.page fun own given expr member =>
    each expr (window_mem given member)
  obtain ⟨distinct, projection, source, definingFilter, filter, groupBy, orderBy, page⟩ := select
  have someGroups : (Expr.settledAll groupBy).isEmpty = groupBy.isEmpty := by cases groupBy <;> rfl
  have someKeys : (SortKey.settledAll orderBy).isEmpty = orderBy.isEmpty := by
    obtain _ | ⟨⟨_, _⟩, _⟩ := orderBy <;> rfl
  have projected : projection.settled.text = projection.text := by
    cases projection with
    | all => rfl
    | items list =>
      dsimp only [Projection.settled, Projection.text]
      rw [show SelectItem.texts (SelectItem.settledAll list) = SelectItem.texts list from items]
  dsimp only at *
  dsimp only [Select.settled, Select.text]
  rw [projected, source, defining, filter, groups, keys, window, someGroups, someKeys]

theorem UnionBranch.texts_settled {unions : List UnionBranch}
    (each : ∀ branch ∈ unions, branch.select.settled.text = branch.select.text) :
    UnionBranch.texts (UnionBranch.settledAll unions) = UnionBranch.texts unions := by
  induction unions with
  | nil => rfl
  | cons branch rest ih =>
    have own := each branch (by simp)
    have others := ih fun other member => each other (by simp [member])
    obtain ⟨all, select⟩ := branch
    dsimp only [UnionBranch.settledAll, UnionBranch.texts] at own ⊢
    rw [own, others]

theorem CommonTable.texts_settled {elements : List CommonTable}
    (each : ∀ element ∈ elements, element.query.settled.text = element.query.text) :
    CommonTable.texts (CommonTable.settledAll elements) = CommonTable.texts elements := by
  rw [settledAll_eq_map, texts_eq_map, texts_eq_map, List.map_map]
  refine List.map_congr_left fun element member => ?_
  have own := each element member
  cases element
  simpa [CommonTable.text] using own

theorem Query.text_settled_of_inside {query : Query}
    (inside : ∀ part ∈ (Fragment.query query).inside, part.SameText) :
    query.settled.text = query.text := by
  have element (own : CommonTable) (member : own ∈ query.elements) :
      own.query.settled.text = own.query.text :=
    inside (.query own.query) (List.mem_append_left _ (List.mem_map.mpr ⟨own, member, rfl⟩))
  have part (own : Select) (member : own ∈ query.parts) : own.settled.text = own.text :=
    inside (.select own) (List.mem_append_right _ (List.mem_map_of_mem member))
  obtain ⟨commonTables, first, unions⟩ := query
  have branches := @UnionBranch.texts_settled unions fun branch member =>
    part branch.select (by simp [Query.parts]; grind)
  have clause : CommonTable.clause (CommonTable.settledClause commonTables) =
      CommonTable.clause commonTables := by
    cases commonTables with
    | none => rfl
    | some elements =>
      dsimp only [CommonTable.settledClause, CommonTable.clause]
      rw [@CommonTable.texts_settled elements element]
  dsimp only [Query.settled, Query.text]
  rw [clause, part first (by simp [Query.parts]), branches]

theorem Fragment.sameText (fragment : Fragment) : fragment.SameText := by
  induction fragment using Fragment.induction with
  | step whole ih =>
    cases whole with
    | expr whole => exact Expr.text_settled_of_inside ih
    | select whole =>
      exact Select.text_settled_of_inside fun expr member =>
        ih (.expr expr) (List.mem_map_of_mem member)
    | query whole => exact Query.text_settled_of_inside ih

theorem Expr.text_settled (expr : Expr) : expr.settled.text = expr.text :=
  Fragment.sameText (.expr expr)

theorem Query.text_settled (query : Query) : query.settled.text = query.text :=
  Fragment.sameText (.query query)

/-! ## Legible trees -/

namespace Expr

/-- Whether the text of the expression starts with a minus. -/
def leadsMinus : Expr → Bool
  | literal (.number digits) => digits.toList.head? = some '-'
  | unary .negate _ => true
  | binary _ left _ => left.leadsMinus
  | isNull tested _ | isTruth tested _ _ | between tested _ _ _ | inList tested _ _ | inQuery tested _ _
  | like tested _ _ _ | has tested _ _ _ => tested.leadsMinus
  | _ => false

/-- The expression itself can be read, perhaps in its settled form: a minus may stand in front of a number,
and a physical type may have the name of a logical one. -/
def Legible : Expr → Prop
  | cast operand (.physical name) =>
    operand.level ≤ 7 ∧ Text.upper name = name ∧ Token.IsPlainWord name
  | unary .negate operand => operand.level ≤ 1 ∧ operand.leadsMinus = false
  | binary .subtract left right => left.level ≤ 3 ∧ right.level < 3 ∧ right.leadsMinus = false
  | other => other.Grammatical ∧ other.Restorable

end Expr

namespace Fragment

def Legible : Fragment → Prop
  | expr whole => whole.Legible
  | other => other.Writable

end Fragment

namespace Expr

variable {expr front operand : Expr}

theorem head_append {first second : String} {char : Char} (head : first.toList.head? = some char) :
    (first ++ second).toList.head? = some char := by
  rw [String.toList_append, List.head?_append, head, Option.some_or]

/-- The operand that the text of an expression starts with. -/
def front? : Expr → Option Expr
  | binary _ left _ => some left
  | isNull tested _ | isTruth tested _ _ | between tested _ _ _ | inList tested _ _ | inQuery tested _ _
  | like tested _ _ _ | has tested _ _ _ => some tested
  | _ => none

theorem text_front (leads : expr.front? = some front) :
    ∃ rest, expr.text = front.text ++ rest := by
  cases expr with
  | binary | isNull | isTruth | between | inList | inQuery | like | has =>
    cases leads
    dsimp only [text]
    simp only [String.append_assoc]
    exact ⟨_, rfl⟩
  | _ => cases leads

theorem leadsMinus_front (leads : expr.front? = some front) :
    expr.leadsMinus = front.leadsMinus := by
  cases expr <;> cases leads <;> rfl

theorem inside_front (leads : expr.front? = some front) :
    .expr front ∈ expr.inside := by
  cases expr <;> cases leads <;> simp

theorem head_front {char : Char} (leads : expr.front? = some front)
    (head : front.text.toList.head? = some char) : expr.text.toList.head? = some char := by
  obtain ⟨rest, same⟩ := text_front leads
  rw [same]
  exact head_append head

theorem front_induction {motive : Expr → Prop}
    (step : ∀ expr, (∀ front, expr.front? = some front → motive front) → motive expr) (expr : Expr) :
    motive expr :=
  step expr fun front _ => front_induction step front
termination_by sizeOf expr
decreasing_by
  have inside := inside_front (by assumption)
  exact inside_size inside

theorem head_of_leadsMinus (expr : Expr) (leads : expr.leadsMinus = true) :
    expr.text.toList.head? = some '-' := by
  induction expr using front_induction with
  | step expr ih =>
    cases first : expr.front? with
    | some front =>
      rw [leadsMinus_front first] at leads
      exact head_front first (ih front first leads)
    | none =>
      unfold leadsMinus at leads
      split at leads
      · exact of_decide_eq_true leads
      · exact head_append (by decide)
      all_goals first | cases first | cases leads

theorem head_of_word {name : String} (plain : Token.IsPlainWord name) :
    ∃ char, name.toList.head? = some char ∧ char ≠ '-' := by
  obtain ⟨first, rest, same, start⟩ := Lexeme.word_first (Token.isPlainWord_iff.mp plain)
  have sign := Lexeme.first_not_sign (.inl start)
  rw [same]
  refine ⟨first, rfl, ?_⟩
  rintro rfl
  exact sign (by decide)

theorem head_of_identifier {identifier : Identifier} (spelled : identifier.Spelled) :
    ∃ char, identifier.text.toList.head? = some char ∧ char ≠ '-' := by
  obtain ⟨name, _ | quote⟩ := identifier
  · exact head_of_word (Token.isPlainWord_iff.mpr spelled)
  · refine ⟨quote, by simp [Identifier.text, Text.enclosed], ?_⟩
    rcases spelled with rfl | rfl <;> decide

theorem head_of_literal {value : Literal} (grammatical : value.Grammatical)
    (plain : (literal value).leadsMinus = false) :
    ∃ char, value.text.toList.head? = some char ∧ char ≠ '-' := by
  cases value with
  | null => exact ⟨'N', rfl, by decide⟩
  | boolean value => cases value <;> exact ⟨_, rfl, by decide⟩
  | string value => exact ⟨'\'', by simp [Literal.text, Text.enclosed], by decide⟩
  | number digits =>
    have notMinus := of_decide_eq_false plain
    rcases grammatical with shape | ⟨behind, same, _⟩
    · obtain ⟨first, rest, same, _⟩ := Lexeme.numeral_first shape
      refine ⟨first, by rw [Literal.text, same]; rfl, ?_⟩
      rintro rfl
      exact notMinus (by rw [same]; rfl)
    · exact absurd (by rw [same]; rfl) notMinus

/-- The text of an expression that does not lead with a minus starts with another character. -/
theorem head_of_legible (expr : Expr) (legible : Fragment.Everywhere Fragment.Legible (.expr expr))
    (plain : expr.leadsMinus = false) : ∃ char, expr.text.toList.head? = some char ∧ char ≠ '-' := by
  induction expr using front_induction with
  | step expr ih =>
    obtain ⟨own, inside⟩ := Fragment.everywhere_iff.mp legible
    cases first : expr.front? with
    | some front =>
      rw [leadsMinus_front first] at plain
      obtain ⟨char, head, other⟩ := ih front first (inside _ (inside_front first)) plain
      exact ⟨char, head_front first head, other⟩
    | none =>
      cases expr with
      | binary | isNull | isTruth | between | inList | inQuery | like | has => cases first
      | literal value => exact head_of_literal own.1 plain
      | column reference =>
        obtain ⟨⟨qualified, named⟩, _⟩ := own.1
        obtain ⟨_ | qualifier, name⟩ := reference
        · exact head_of_identifier named
        · obtain ⟨char, head, other⟩ := head_of_identifier (qualified qualifier rfl)
          exact ⟨char, head_append (head_append head), other⟩
      | parameter name => exact ⟨':', head_append rfl, by decide⟩
      | currentUser => exact ⟨'C', rfl, by decide⟩
      | wildcard => exact ⟨'*', rfl, by decide⟩
      | call name distinct arguments =>
        obtain ⟨char, head, other⟩ := head_of_word own.1.1
        exact ⟨char, head_append (head_append (head_append (head_append head))), other⟩
      | cast | caseWhen =>
        exact ⟨'C', head_append (head_append (head_append (head_append rfl))), by decide⟩
      | unary operator operand =>
        cases operator with
        | not => exact ⟨'N', head_append rfl, by decide⟩
        | negate => cases plain
        | plus => exact ⟨'+', head_append rfl, by decide⟩
      | nested inner => exact ⟨'(', head_append (head_append rfl), by decide⟩
      | doubleTest test column =>
        cases test <;> exact ⟨'i', head_append (head_append (head_append rfl)), by decide⟩
      | textMatches text => exact ⟨'T', head_append (head_append rfl), by decide⟩
      | matchAgainst text => exact ⟨'M', head_append (head_append rfl), by decide⟩
      | unnest column => exact ⟨'U', head_append (head_append rfl), by decide⟩

theorem head_ne_minus (legible : Fragment.Everywhere Fragment.Legible (.expr expr))
    (plain : expr.leadsMinus = false) : expr.text.toList.head? ≠ some '-' := by
  obtain ⟨char, head, other⟩ := head_of_legible expr legible plain
  simpa [head] using other

theorem level_settled_le {bound : Nat} (level : expr.level ≤ bound) :
    expr.settled.level ≤ bound :=
  Nat.le_trans (level_settled expr) level

theorem level_settled_lt {bound : Nat} (level : expr.level < bound) :
    expr.settled.level < bound :=
  Nat.lt_of_le_of_lt (level_settled expr) level

theorem levels_settled {list : List Expr} {bound : Nat} (levels : ∀ expr ∈ list, expr.level ≤ bound) :
    ∀ expr ∈ list.map settled, expr.level ≤ bound :=
  List.forall_mem_map.mpr fun expr member => level_settled_le (levels expr member)

theorem arguments_settled {distinct : Bool} {arguments : List Expr}
    (grammatical : ArgumentsGrammatical distinct arguments) :
    ArgumentsGrammatical distinct (arguments.map settled) := by
  rcases grammatical with ⟨plain, rfl⟩ | ⟨levels, some⟩
  · exact .inl ⟨plain, rfl⟩
  · exact .inr ⟨levels_settled levels, by simpa using some⟩

theorem writable_negated (writable : Fragment.Writable (.expr operand)) (level : operand.level ≤ 1)
    (plain : operand.text.toList.head? ≠ some '-') :
    Fragment.Writable (.expr (signed .negate operand)) := by
  by_cases number : ∃ digits, operand = literal (.number digits)
  · obtain ⟨digits, rfl⟩ := number
    have unsigned : digits.toList.head? ≠ some '-' := plain
    rw [signed, if_neg unsigned]
    rcases writable.1 with shape | ⟨behind, same, _⟩
    · exact ⟨.inr ⟨digits.toList, by simp, shape⟩, trivial⟩
    · exact absurd (by rw [same]; rfl) unsigned
  · have other : signed .negate operand = unary .negate operand := by
      unfold signed
      split
      · next digits _ => exact absurd ⟨digits, rfl⟩ number
      · rfl
    have notNumber : operand.isUnsignedNumber = false := by
      unfold isUnsignedNumber
      split
      · next digits => exact absurd ⟨digits, rfl⟩ number
      · rfl
    rw [other]
    exact ⟨⟨level, notNumber⟩, plain⟩

theorem ofText_eq_none {name : String} (upper : Text.upper name = name)
    (unknown : ColumnType.ofName? name = none) : ColumnType.ofText? name = none := by
  have names : ∀ type ∈ ColumnType.all, Text.upper type.name = type.name := by decide +kernel
  rw [ColumnType.ofName?, List.find?_eq_none] at unknown
  rw [ColumnType.ofText?, List.find?_eq_none]
  intro type member same
  apply unknown type member
  simpa [Text.sameWord, names type member, upper] using same

theorem writable_cast {target : CastTarget} (legible : (cast operand target).Legible) :
    Fragment.Writable (.expr (cast operand.settled target.settled)) := by
  cases target with
  | physical name =>
    obtain ⟨level, upper, plain⟩ := legible
    rw [CastTarget.settled]
    cases known : ColumnType.ofName? name with
    | some type => exact ⟨⟨level_settled_le level, trivial⟩, trivial⟩
    | none => exact ⟨⟨level_settled_le level, upper, ofText_eq_none upper known⟩, plain⟩
  | type logical => exact ⟨⟨level_settled_le legible.1.1, trivial⟩, trivial⟩
  | column id => exact ⟨⟨level_settled_le legible.1.1, trivial⟩, trivial⟩

theorem writable_binary {operator : BinaryOperator} {left right : Expr}
    (legible : Fragment.Everywhere Fragment.Legible (.expr (binary operator left right))) :
    Fragment.Writable (.expr (binary operator left.settled right.settled)) := by
  obtain ⟨own, inside⟩ := Fragment.everywhere_iff.mp legible
  by_cases subtract : operator = .subtract
  · subst subtract
    obtain ⟨first, second, plain⟩ := own
    refine ⟨⟨level_settled_le first, level_settled_lt second⟩, ?_⟩
    show right.settled.text.toList.head? ≠ some '-'
    rw [text_settled]
    exact head_ne_minus (inside (.expr right) (by simp [Fragment.inside])) plain
  · have kept : (binary operator left right).Grammatical := by
      cases operator with
      | subtract => exact absurd rfl subtract
      | _ => exact own.1
    refine ⟨⟨level_settled_le kept.1, level_settled_lt kept.2⟩, ?_⟩
    cases operator with
    | subtract => exact absurd rfl subtract
    | _ => trivial

theorem writable_unary {operator : UnaryOperator}
    (legible : Fragment.Everywhere Fragment.Legible (.expr (unary operator operand)))
    (writable : Fragment.Writable (.expr operand.settled)) :
    Fragment.Writable (.expr (signed operator operand.settled)) := by
  obtain ⟨own, inside⟩ := Fragment.everywhere_iff.mp legible
  cases operator with
  | negate =>
    obtain ⟨level, plain⟩ := own
    apply writable_negated writable (level_settled_le level)
    rw [text_settled]
    exact head_ne_minus (inside (.expr operand) (by simp [Fragment.inside])) plain
  | not => exact ⟨level_settled_le own.1, trivial⟩
  | plus => exact ⟨level_settled_le own.1, trivial⟩

theorem writable_settled {whole : Expr} (legible : Fragment.Everywhere Fragment.Legible (.expr whole))
    (inside : ∀ part, .expr part ∈ whole.inside → Fragment.Writable (.expr part.settled)) :
    Fragment.Writable (.expr whole.settled) := by
  have own := (Fragment.everywhere_iff.mp legible).1
  have optional {clause : Option Expr} {bound : Nat} (levels : ∀ expr ∈ clause, expr.level ≤ bound) :
      ∀ expr ∈ clause.map settled, expr.level ≤ bound := by
    intro expr member
    obtain ⟨other, given, rfl⟩ := Option.map_eq_some_iff.mp member
    exact level_settled_le (levels other given)
  cases whole with
  | literal | column | parameter | currentUser | wildcard | doubleTest | unnest => exact own
  | unary operator operand => exact writable_unary legible (inside operand (by simp))
  | binary operator left right => exact writable_binary legible
  | cast operand target => exact writable_cast own
  | call name distinct arguments =>
    obtain ⟨⟨plain, opens, grammatical⟩, _⟩ := own
    rw [settled, settledAll_eq_map]
    exact ⟨⟨plain, opens, arguments_settled grammatical⟩, trivial⟩
  | caseWhen operand branches otherwise =>
    obtain ⟨⟨first, some, each, last⟩, _⟩ := own
    rw [settled, settledOption_eq_map, settledOption_eq_map, settledBranches_eq_map]
    refine ⟨⟨optional first, by simpa using some, ?_, optional last⟩, trivial⟩
    intro branch member
    obtain ⟨other, among, rfl⟩ := List.mem_map.mp member
    exact ⟨level_settled_le (each other among).1, level_settled_le (each other among).2⟩
  | nested inner => exact ⟨level_settled_le own.1, trivial⟩
  | isNull tested _ | isTruth tested _ _ => exact ⟨level_settled_le own.1, trivial⟩
  | textMatches text | matchAgainst text => exact ⟨level_settled_le own.1, trivial⟩
  | between tested low high _ =>
    obtain ⟨⟨first, second, third⟩, _⟩ := own
    exact ⟨⟨level_settled_le first, level_settled_le second, level_settled_le third⟩, trivial⟩
  | inQuery tested candidates _ => exact ⟨level_settled_le own.1, trivial⟩
  | inList tested list _ | has tested list _ _ =>
    obtain ⟨⟨first, some, levels⟩, _⟩ := own
    rw [settled, settledAll_eq_map]
    exact ⟨⟨level_settled_le first, by simpa using some, levels_settled levels⟩, trivial⟩
  | like tested pattern escape _ =>
    obtain ⟨⟨first, second, third⟩, _⟩ := own
    rw [settled, settledOption_eq_map]
    exact ⟨⟨level_settled_le first, level_settled_le second, optional third⟩, trivial⟩

end Expr

theorem Projection.grammatical_settled {projection : Projection} (grammatical : projection.Grammatical) :
    projection.settled.Grammatical := by
  cases projection with
  | all => trivial
  | items list =>
    rw [Projection.settled, SelectItem.settledAll_eq_map]
    refine ⟨by simpa using grammatical.1, ?_⟩
    intro item member
    obtain ⟨own, listed, rfl⟩ := List.mem_map.mp member
    exact grammatical.2 own listed

theorem Select.writable_settled {select : Select} (writable : Fragment.Writable (.select select)) :
    Fragment.Writable (.select select.settled) := by
  have sources : select.settled.source.tables = select.source.tables := by
    cases select
    exact Source.tables_settled _
  have pages : select.settled.page = select.page.map Page.settled := by
    cases select
    exact Page.settledOption_eq_map _
  have projection : select.settled.projection = select.projection.settled := by
    cases select
    rfl
  obtain ⟨⟨projected, tables, levels, window⟩, restorable⟩ := writable
  refine ⟨⟨projection ▸ Projection.grammatical_settled projected, ?_, ?_, ?_⟩, ?_⟩
  · rwa [sources]
  · rw [Select.exprs_settled]
    exact Expr.levels_settled levels
  · rw [pages]
    intro page given
    obtain ⟨own, known, rfl⟩ := Option.map_eq_some_iff.mp given
    rw [Page.exprs_settled]
    exact Expr.levels_settled (window own known)
  · show ∀ table ∈ select.settled.source.tables, table.Restorable
    rwa [sources]

theorem Query.writable_settled {query : Query} (writable : Fragment.Writable (.query query)) :
    Fragment.Writable (.query query.settled) := by
  obtain ⟨⟨some, spelled⟩, _⟩ := writable
  refine ⟨⟨?_, ?_⟩, trivial⟩
  · obtain ⟨_ | _ | ⟨⟨_, _, _⟩, _⟩, first, unions⟩ := query
    · exact nofun
    · exact absurd rfl some
    · exact nofun
  · rw [Query.elements_settled]
    intro element member
    obtain ⟨own, listed, rfl⟩ := List.mem_map.mp member
    exact spelled own listed

namespace Fragment

theorem writable_settled (whole : Fragment) (legible : Everywhere Legible whole) :
    Everywhere Writable whole.settled := by
  induction whole using Fragment.induction with
  | step whole ih =>
    obtain ⟨own, inside⟩ := everywhere_iff.mp legible
    refine everywhere_iff.mpr ⟨?_, fun part member => ?_⟩
    · cases whole with
      | expr whole =>
        apply Expr.writable_settled legible
        intro part member
        exact (everywhere_iff.mp (ih (.expr part) member (inside (.expr part) member))).1
      | select whole => exact Select.writable_settled own
      | query whole => exact Query.writable_settled own
    · obtain ⟨other, among, rfl⟩ := inside_settled member
      exact ih other among (inside other among)

end Fragment

namespace Query

/-- The text of a legible query is read as the settled query. -/
theorem parse_text_settled {query : Query}
    (legible : Fragment.Everywhere Fragment.Legible (.query query)) :
    parse query.text = .ok query.settled := by
  rw [← text_settled]
  exact parse_text (Fragment.writable_settled (.query query) legible)

end Query

/-! ## Trees that are settled already -/

namespace Expr

/-- The form of the expression itself is the one that its text is read as. -/
def IsSettled : Expr → Prop
  | cast _ (.physical name) => ColumnType.ofName? name = none
  | unary .negate operand => operand.isUnsignedNumber = false
  | _ => True

instance : DecidablePred IsSettled
  | cast _ (.physical name) => inferInstanceAs (Decidable (ColumnType.ofName? name = none))
  | unary .negate operand => inferInstanceAs (Decidable (operand.isUnsignedNumber = false))
  | cast _ (.type _) | cast _ (.column _) | unary .not _ | unary .plus _ | literal _ | column _
  | parameter _ | currentUser | wildcard | call _ _ _ | caseWhen _ _ _ | binary _ _ _ | nested _
  | isNull _ _ | isTruth _ _ _ | between _ _ _ _ | inList _ _ _ | inQuery _ _ _ | like _ _ _ _
  | has _ _ _ _ | doubleTest _ _ | textMatches _ | matchAgainst _ | unnest _ => isTrue trivial

end Expr

namespace Fragment

def IsSettled : Fragment → Prop
  | expr whole => whole.IsSettled
  | _ => True

instance : DecidablePred IsSettled
  | expr whole => inferInstanceAs (Decidable whole.IsSettled)
  | select _ | query _ => isTrue trivial

end Fragment

namespace Expr

theorem writable_of_isSettled {whole : Expr}
    (legible : Fragment.Everywhere Fragment.Legible (.expr whole)) (known : whole.IsSettled) :
    Fragment.Writable (.expr whole) := by
  obtain ⟨own, inside⟩ := Fragment.everywhere_iff.mp legible
  simp only [Fragment.Legible, Legible] at own
  split at own
  · exact ⟨⟨own.1, own.2.1, ofText_eq_none own.2.1 known⟩, own.2.2⟩
  · next operand =>
      exact ⟨⟨own.1, known⟩, head_ne_minus (inside (.expr operand) (by simp [Fragment.inside])) own.2⟩
  · next left right =>
      exact ⟨⟨own.1, own.2.1⟩, head_ne_minus (inside (.expr right) (by simp [Fragment.inside])) own.2.2⟩
  · exact own

end Expr

namespace Fragment

theorem writable_of_isSettled (whole : Fragment) (legible : Everywhere Legible whole)
    (known : Everywhere IsSettled whole) : Everywhere Writable whole := by
  induction whole using Fragment.induction with
  | step whole ih =>
    obtain ⟨own, inside⟩ := everywhere_iff.mp legible
    obtain ⟨form, deeper⟩ := everywhere_iff.mp known
    refine everywhere_iff.mpr ⟨?_, fun part member =>
      ih part member (inside part member) (deeper part member)⟩
    cases whole with
    | expr whole => exact Expr.writable_of_isSettled legible form
    | select whole => exact own
    | query whole => exact own

end Fragment

theorem Expr.isSettled_of_grammatical {whole : Expr} (grammatical : whole.Grammatical) : whole.IsSettled := by
  unfold IsSettled
  split
  · next operand name =>
      have unknown := grammatical.2.2
      simp only [ColumnType.ofText?, ColumnType.ofName?, List.find?_eq_none, beq_iff_eq] at unknown ⊢
      intro type listed same
      exact unknown type listed (by simp [Text.sameWord, same])
  · exact grammatical.2
  · trivial

namespace Query

/-- A legible query is read as it is exactly if it is settled. -/
theorem parse_text_iff {query : Query} (legible : Fragment.Everywhere Fragment.Legible (.query query)) :
    parse query.text = .ok query ↔ Fragment.Everywhere Fragment.IsSettled (.query query) := by
  constructor
  · intro parsed fragment within
    have grammatical := grammatical_of_parse parsed fragment within
    cases fragment with
    | expr whole => exact Expr.isSettled_of_grammatical grammatical
    | select | query => trivial
  · intro settled
    exact parse_text (Fragment.writable_of_isSettled (.query query) legible settled)

end Query

end TabularSql
