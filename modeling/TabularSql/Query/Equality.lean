import TabularSql.Query.Basic

/-!
# Equality of queries

Two queries are equal when they are made of the same parts; it can be decided part by part.
-/

namespace TabularSql

set_option autoImplicit false

mutual

def Expr.same : Expr → Expr → Bool
  | .literal value, other => match other with
    | .literal value' => value == value'
    | _ => false
  | .column reference, other => match other with
    | .column reference' => reference == reference'
    | _ => false
  | .parameter name, other => match other with
    | .parameter name' => name == name'
    | _ => false
  | .currentUser, other => match other with
    | .currentUser => true
    | _ => false
  | .wildcard, other => match other with
    | .wildcard => true
    | _ => false
  | .call name distinct arguments, other => match other with
    | .call name' distinct' arguments' =>
        name == name' && distinct == distinct' && Expr.sameList arguments arguments'
    | _ => false
  | .cast operand target, other => match other with
    | .cast operand' target' => operand.same operand' && target == target'
    | _ => false
  | .caseWhen operand branches otherwise, other => match other with
    | .caseWhen operand' branches' otherwise' =>
        Expr.sameOption operand operand' && Expr.sameBranches branches branches' &&
          Expr.sameOption otherwise otherwise'
    | _ => false
  | .binary operator left right, other => match other with
    | .binary operator' left' right' =>
        operator == operator' && left.same left' && right.same right'
    | _ => false
  | .unary operator operand, other => match other with
    | .unary operator' operand' => operator == operator' && operand.same operand'
    | _ => false
  | .nested inner, other => match other with
    | .nested inner' => inner.same inner'
    | _ => false
  | .isNull tested negated, other => match other with
    | .isNull tested' negated' => tested.same tested' && negated == negated'
    | _ => false
  | .isTruth tested value negated, other => match other with
    | .isTruth tested' value' negated' =>
        tested.same tested' && value == value' && negated == negated'
    | _ => false
  | .between tested low high negated, other => match other with
    | .between tested' low' high' negated' =>
        tested.same tested' && low.same low' && high.same high' && negated == negated'
    | _ => false
  | .inList tested candidates negated, other => match other with
    | .inList tested' candidates' negated' =>
        tested.same tested' && Expr.sameList candidates candidates' && negated == negated'
    | _ => false
  | .inQuery tested candidates negated, other => match other with
    | .inQuery tested' candidates' negated' =>
        tested.same tested' && candidates.same candidates' && negated == negated'
    | _ => false
  | .like tested pattern escape negated, other => match other with
    | .like tested' pattern' escape' negated' =>
        tested.same tested' && pattern.same pattern' && Expr.sameOption escape escape' &&
          negated == negated'
    | _ => false
  | .has tested values pattern negated, other => match other with
    | .has tested' values' pattern' negated' =>
        tested.same tested' && Expr.sameList values values' && pattern == pattern' &&
          negated == negated'
    | _ => false
  | .doubleTest test reference, other => match other with
    | .doubleTest test' reference' => test == test' && reference == reference'
    | _ => false
  | .textMatches text, other => match other with
    | .textMatches text' => text.same text'
    | _ => false
  | .matchAgainst text, other => match other with
    | .matchAgainst text' => text.same text'
    | _ => false
  | .unnest reference, other => match other with
    | .unnest reference' => reference == reference'
    | _ => false

def Expr.sameList : List Expr → List Expr → Bool
  | [], other => other.isEmpty
  | expr :: rest, other => match other with
    | expr' :: rest' => expr.same expr' && Expr.sameList rest rest'
    | [] => false

def Expr.sameOption : Option Expr → Option Expr → Bool
  | none, other => other.isNone
  | some expr, other => match other with
    | some expr' => expr.same expr'
    | none => false

def Expr.sameBranches : List (Expr × Expr) → List (Expr × Expr) → Bool
  | [], other => other.isEmpty
  | (condition, result) :: rest, other => match other with
    | (condition', result') :: rest' =>
        condition.same condition' && result.same result' && Expr.sameBranches rest rest'
    | [] => false

def Source.same : Source → Source → Bool
  | .table only, other => match other with
    | .table only' => only == only'
    | _ => false
  | .join left kind right condition, other => match other with
    | .join left' kind' right' condition' =>
        left.same left' && kind == kind' && right == right' && condition.same condition'
    | _ => false

def SelectItem.sameList : List SelectItem → List SelectItem → Bool
  | [], other => other.isEmpty
  | ⟨expr, name⟩ :: rest, other => match other with
    | ⟨expr', name'⟩ :: rest' => expr.same expr' && name == name' && SelectItem.sameList rest rest'
    | [] => false

def Projection.same : Projection → Projection → Bool
  | .all, other => match other with
    | .all => true
    | _ => false
  | .items list, other => match other with
    | .items list' => SelectItem.sameList list list'
    | _ => false

def SortKey.sameList : List SortKey → List SortKey → Bool
  | [], other => other.isEmpty
  | ⟨expr, direction⟩ :: rest, other => match other with
    | ⟨expr', direction'⟩ :: rest' =>
        expr.same expr' && direction == direction' && SortKey.sameList rest rest'
    | [] => false

def Page.sameOption : Option Page → Option Page → Bool
  | none, other => other.isNone
  | some ⟨limit, offset⟩, other => match other with
    | some ⟨limit', offset'⟩ => limit.same limit' && Expr.sameOption offset offset'
    | none => false

def Select.same : Select → Select → Bool
  | ⟨distinct, projection, source, definingFilter, filter, groupBy, orderBy, page⟩, other =>
    match other with
    | ⟨distinct', projection', source', definingFilter', filter', groupBy', orderBy', page'⟩ =>
        distinct == distinct' && projection.same projection' && source.same source' &&
          Expr.sameOption definingFilter definingFilter' && Expr.sameOption filter filter' &&
          Expr.sameList groupBy groupBy' && SortKey.sameList orderBy orderBy' &&
          Page.sameOption page page'

def UnionBranch.sameList : List UnionBranch → List UnionBranch → Bool
  | [], other => other.isEmpty
  | ⟨all, select⟩ :: rest, other => match other with
    | ⟨all', select'⟩ :: rest' =>
        all == all' && select.same select' && UnionBranch.sameList rest rest'
    | [] => false

def CommonTable.sameList : List CommonTable → List CommonTable → Bool
  | [], other => other.isEmpty
  | ⟨name, columns, query⟩ :: rest, other => match other with
    | ⟨name', columns', query'⟩ :: rest' =>
        name == name' && columns == columns' && query.same query' && CommonTable.sameList rest rest'
    | [] => false

def CommonTable.sameClause : Option (List CommonTable) → Option (List CommonTable) → Bool
  | none, other => other.isNone
  | some elements, other => match other with
    | some elements' => CommonTable.sameList elements elements'
    | none => false

def Query.same : Query → Query → Bool
  | ⟨commonTables, first, unions⟩, other => match other with
    | ⟨commonTables', first', unions'⟩ =>
        CommonTable.sameClause commonTables commonTables' && first.same first' &&
          UnionBranch.sameList unions unions'

end

mutual

theorem Expr.same_iff (left right : Expr) : left.same right = true ↔ left = right := by
  cases left with
  | literal | column | parameter | currentUser | wildcard | doubleTest | unnest =>
    cases right <;> simp [Expr.same]
  | call name distinct arguments =>
    cases right <;> simp [Expr.same, Expr.sameList_iff arguments, and_assoc]
  | cast operand _ | unary _ operand | nested operand | isNull operand _ | isTruth operand _ _
  | textMatches operand | matchAgainst operand =>
    cases right <;> simp [Expr.same, Expr.same_iff operand, and_assoc]
  | caseWhen operand branches otherwise =>
    cases right <;> simp [Expr.same, Expr.sameOption_iff operand, Expr.sameBranches_iff branches,
      Expr.sameOption_iff otherwise, and_assoc]
  | binary operator first second =>
    cases right <;> simp [Expr.same, Expr.same_iff first, Expr.same_iff second, and_assoc]
  | between tested low high _ =>
    cases right <;>
      simp [Expr.same, Expr.same_iff tested, Expr.same_iff low, Expr.same_iff high, and_assoc]
  | inList tested list _ | has tested list _ _ =>
    cases right <;> simp [Expr.same, Expr.same_iff tested, Expr.sameList_iff list, and_assoc]
  | inQuery tested candidates _ =>
    cases right <;> simp [Expr.same, Expr.same_iff tested, Query.same_iff candidates, and_assoc]
  | like tested pattern escape _ =>
    cases right <;> simp [Expr.same, Expr.same_iff tested, Expr.same_iff pattern,
      Expr.sameOption_iff escape, and_assoc]

theorem Expr.sameList_iff : ∀ left right : List Expr, Expr.sameList left right = true ↔ left = right
  | [], right => by cases right <;> simp [Expr.sameList]
  | expr :: rest, right => by
      cases right <;> simp [Expr.sameList, Expr.same_iff expr, Expr.sameList_iff rest]

theorem Expr.sameOption_iff :
    ∀ left right : Option Expr, Expr.sameOption left right = true ↔ left = right
  | none, right => by cases right <;> simp [Expr.sameOption]
  | some expr, right => by cases right <;> simp [Expr.sameOption, Expr.same_iff expr]

theorem Expr.sameBranches_iff :
    ∀ left right : List (Expr × Expr), Expr.sameBranches left right = true ↔ left = right
  | [], right => by cases right <;> simp [Expr.sameBranches]
  | (condition, result) :: rest, right => by
      rcases right with _ | ⟨⟨_, _⟩, _⟩ <;>
        simp [Expr.sameBranches, Expr.same_iff condition, Expr.same_iff result,
          Expr.sameBranches_iff rest]

theorem Source.same_iff : ∀ left right : Source, left.same right = true ↔ left = right
  | .table _, right => by cases right <;> simp [Source.same]
  | .join left _ _ condition, right => by
      cases right <;> simp [Source.same, Source.same_iff left, Expr.same_iff condition, and_assoc]

theorem SelectItem.sameList_iff :
    ∀ left right : List SelectItem, SelectItem.sameList left right = true ↔ left = right
  | [], right => by cases right <;> simp [SelectItem.sameList]
  | ⟨expr, _⟩ :: rest, right => by
      rcases right with _ | ⟨⟨_, _⟩, _⟩ <;>
        simp [SelectItem.sameList, Expr.same_iff expr, SelectItem.sameList_iff rest]

theorem Projection.same_iff : ∀ left right : Projection, left.same right = true ↔ left = right
  | .all, right => by cases right <;> simp [Projection.same]
  | .items list, right => by cases right <;> simp [Projection.same, SelectItem.sameList_iff list]

theorem SortKey.sameList_iff :
    ∀ left right : List SortKey, SortKey.sameList left right = true ↔ left = right
  | [], right => by cases right <;> simp [SortKey.sameList]
  | ⟨expr, _⟩ :: rest, right => by
      rcases right with _ | ⟨⟨_, _⟩, _⟩ <;>
        simp [SortKey.sameList, Expr.same_iff expr, SortKey.sameList_iff rest]

theorem Page.sameOption_iff :
    ∀ left right : Option Page, Page.sameOption left right = true ↔ left = right
  | none, right => by cases right <;> simp [Page.sameOption]
  | some ⟨limit, offset⟩, right => by
      rcases right with _ | ⟨_, _⟩ <;>
        simp [Page.sameOption, Expr.same_iff limit, Expr.sameOption_iff offset]

theorem Select.same_iff : ∀ left right : Select, left.same right = true ↔ left = right
  | ⟨_, projection, source, definingFilter, filter, groupBy, orderBy, page⟩, right => by
      cases right
      simp [Select.same, Projection.same_iff projection, Source.same_iff source,
        Expr.sameOption_iff definingFilter, Expr.sameOption_iff filter, Expr.sameList_iff groupBy,
        SortKey.sameList_iff orderBy, Page.sameOption_iff page, and_assoc]

theorem UnionBranch.sameList_iff :
    ∀ left right : List UnionBranch, UnionBranch.sameList left right = true ↔ left = right
  | [], right => by cases right <;> simp [UnionBranch.sameList]
  | ⟨_, select⟩ :: rest, right => by
      rcases right with _ | ⟨⟨_, _⟩, _⟩ <;>
        simp [UnionBranch.sameList, Select.same_iff select, UnionBranch.sameList_iff rest]

theorem CommonTable.sameList_iff :
    ∀ left right : List CommonTable, CommonTable.sameList left right = true ↔ left = right
  | [], right => by cases right <;> simp [CommonTable.sameList]
  | ⟨_, _, query⟩ :: rest, right => by
      rcases right with _ | ⟨⟨_, _, _⟩, _⟩ <;>
        simp [CommonTable.sameList, Query.same_iff query, CommonTable.sameList_iff rest, and_assoc]

theorem CommonTable.sameClause_iff :
    ∀ left right : Option (List CommonTable), CommonTable.sameClause left right = true ↔ left = right
  | none, right => by cases right <;> simp [CommonTable.sameClause]
  | some elements, right => by
      cases right <;> simp [CommonTable.sameClause, CommonTable.sameList_iff elements]

theorem Query.same_iff : ∀ left right : Query, left.same right = true ↔ left = right
  | ⟨commonTables, first, unions⟩, right => by
      cases right
      simp [Query.same, CommonTable.sameClause_iff commonTables, Select.same_iff first,
        UnionBranch.sameList_iff unions, and_assoc]

end

instance : DecidableEq Expr := fun left right =>
  decidable_of_iff _ (Expr.same_iff left right)

instance : DecidableEq Query := fun left right =>
  decidable_of_iff _ (Query.same_iff left right)

end TabularSql
