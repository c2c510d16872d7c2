import TabularSql.Error

/-!
# Filters

Conditions that a caller adds to a query. Values are written into the condition as string literals, so
the result is again a query over logical names.
-/

namespace TabularSql

set_option autoImplicit false

inductive ValueOperator where
  | like
  | equal
  | among
  deriving DecidableEq, Repr, Inhabited

inductive ListFunction where
  | has
  | hasLike
  deriving DecidableEq, Repr, Inhabited

/-- A filter; a defining one applies to the defining query of a virtual table. -/
inductive QueryFilter where
  | value (column : String) (operator : ValueOperator) (values : List String) (defining : Bool)
  | list (column : String) (function : ListFunction) (values : List String) (defining : Bool)
  | textMatches (search : String) (defining : Bool)
  deriving DecidableEq, Repr, Inhabited

namespace QueryFilter

def isDefining : QueryFilter → Bool
  | value _ _ _ defining | list _ _ _ defining | textMatches _ defining => defining

def asDefining : QueryFilter → QueryFilter
  | value column operator values _ => value column operator values true
  | list column function values _ => list column function values true
  | textMatches search _ => textMatches search true

def columnExpr (column : String) : Except CompileError Expr :=
  if column.isEmpty then .error (.missing .filterColumn) else .ok (.quoted column)

def valueExprs (values : List String) : Except CompileError (List Expr) :=
  if values.isEmpty then .error (.missing .filterValues) else .ok (values.map Expr.string)

def compare (operator : ValueOperator) (column value : Expr) : Expr :=
  match operator with
  | .like => .like column value none false
  | .equal | .among => .equals column value

def bareCondition : QueryFilter → Except CompileError Expr
  | value column operator values _ => do
      let column ← columnExpr column
      let values ← valueExprs values
      match operator with
      | .among => return .inList column values false
      | .like | .equal =>
          match Expr.anyOf (values.map (compare operator column)) with
          | some condition => return condition
          | none => throw (.missing .filterValues)
  | list column function values _ => do
      let column ← columnExpr column
      return .has column (← valueExprs values) (function = .hasLike) false
  | textMatches search _ =>
      if search.isEmpty then .error (.missing .searchText) else .ok (.textMatches (.string search))

def condition (filter : QueryFilter) : Except CompileError Expr :=
  filter.bareCondition.map Expr.nested

def combine (filters : List QueryFilter) : Except CompileError (Option Expr) :=
  (filters.mapM condition).map Expr.allOf

end QueryFilter

end TabularSql
