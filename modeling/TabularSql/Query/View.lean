import TabularSql.Query.Text

/-!
# Views of queries

The expressions inside an expression, and what a select says about aggregation.
-/

namespace TabularSql

set_option autoImplicit false

mutual

/-- The expression and the expressions inside it, from left to right; those of a subquery belong to
the subquery. -/
def Expr.subexpressions : Expr → List Expr
  | .literal value => [.literal value]
  | .column reference => [.column reference]
  | .parameter name => [.parameter name]
  | .currentUser => [.currentUser]
  | .wildcard => [.wildcard]
  | .call name distinct arguments =>
      .call name distinct arguments :: Expr.allSubexpressions arguments
  | .cast operand target => .cast operand target :: operand.subexpressions
  | .caseWhen operand branches otherwise =>
      .caseWhen operand branches otherwise ::
        (Expr.optionalSubexpressions operand ++ Expr.branchSubexpressions branches ++
          Expr.optionalSubexpressions otherwise)
  | .binary operator left right =>
      .binary operator left right :: (left.subexpressions ++ right.subexpressions)
  | .unary operator operand => .unary operator operand :: operand.subexpressions
  | .nested inner => .nested inner :: inner.subexpressions
  | .isNull tested negated => .isNull tested negated :: tested.subexpressions
  | .isTruth tested value negated => .isTruth tested value negated :: tested.subexpressions
  | .between tested low high negated =>
      .between tested low high negated ::
        (tested.subexpressions ++ low.subexpressions ++ high.subexpressions)
  | .inList tested candidates negated =>
      .inList tested candidates negated ::
        (tested.subexpressions ++ Expr.allSubexpressions candidates)
  | .inQuery tested candidates negated => .inQuery tested candidates negated :: tested.subexpressions
  | .like tested pattern escape negated =>
      .like tested pattern escape negated ::
        (tested.subexpressions ++ pattern.subexpressions ++ Expr.optionalSubexpressions escape)
  | .has tested values pattern negated =>
      .has tested values pattern negated :: (tested.subexpressions ++ Expr.allSubexpressions values)
  | .doubleTest test reference => [.doubleTest test reference]
  | .textMatches text => .textMatches text :: text.subexpressions
  | .matchAgainst text => .matchAgainst text :: text.subexpressions
  | .unnest reference => [.unnest reference]

def Expr.allSubexpressions : List Expr → List Expr
  | [] => []
  | expr :: rest => expr.subexpressions ++ Expr.allSubexpressions rest

def Expr.optionalSubexpressions : Option Expr → List Expr
  | none => []
  | some expr => expr.subexpressions

def Expr.branchSubexpressions : List (Expr × Expr) → List Expr
  | [] => []
  | (condition, result) :: rest =>
      condition.subexpressions ++ result.subexpressions ++ Expr.branchSubexpressions rest

end

namespace Expr

def isSetFunction : Expr → Bool
  | call name _ _ => isSetFunctionName name
  | _ => false

/-- Whether a set function occurs at any depth. -/
def containsSetFunction (expr : Expr) : Bool :=
  expr.subexpressions.any isSetFunction

/-- Expressions with the same value for every row. -/
def isConstant : Expr → Bool
  | literal _ | currentUser => true
  | _ => false

end Expr

namespace Projection

def containsSetFunction (projection : Projection) : Bool :=
  projection.itemList.any fun item => item.expr.containsSetFunction

end Projection

namespace Select

/-- Whether a row of the result can stand for several rows of the source. -/
def isAggregate (select : Select) : Bool :=
  select.distinct || !select.groupBy.isEmpty || select.projection.containsSetFunction

def hasOnlySetFunctions (select : Select) : Bool :=
  match select.projection with
  | .all => false
  | .items list => list.all fun item => item.expr.isSetFunction

end Select

end TabularSql
