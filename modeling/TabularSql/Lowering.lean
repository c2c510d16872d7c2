import TabularSql.Context
import TabularSql.Typing

/-!
# Lowering of expressions

An expression over logical names becomes one over the physical store. Column names become physical
references, literals in conditions become bound parameters, and the forms for lists, doubles and
searches are spelled out. Values are bound in the order in which the expression is written; what was
bound before a failure stays bound.
-/

namespace TabularSql

set_option autoImplicit false

inductive Position where
  | select
  /-- An argument of a function or of a CAST, where literals stay as they are. -/
  | argument
  /-- A condition, where literals are bound as values of the type they are compared with. -/
  | condition (compared : Option ColumnType)
  /-- A key of GROUP BY or ORDER BY, which may name an alias of the select list. -/
  | sort
  deriving DecidableEq, Repr

namespace Position

def isCondition : Position → Bool
  | condition _ => true
  | _ => false

def comparedWith (type : Option ColumnType) : Position → Position
  | condition _ => condition type
  | other => other

end Position

structure ListColumn where
  table : TableId
  qualifier : Option String
  id : ColumnId
  element : ColumnType
  deriving DecidableEq, Repr, Inhabited

namespace ListColumn

/-- The name under which the FROM clause has the table of the column. -/
def owner (column : ListColumn) : String :=
  column.qualifier.getD (Physical.table column.table)

def sideTable (column : ListColumn) : String :=
  Physical.sideTable column.table column.id

def elementExpr (column : ListColumn) : Expr :=
  .named (Physical.element column.id)

/-- The rows with an element for which the condition holds. -/
def rowsWith (column : ListColumn) (condition : Expr) (negated : Bool) : Expr :=
  let rows : Select :=
    { Select.simple (.items [⟨.named (Physical.elementRow column.id), none⟩])
        (.named column.sideTable) with
      filter := some condition }
  .inQuery (.column (Physical.metadataRef column.qualifier .rowId)) (.single rows) negated

def joinTo (source : Source) (column : ListColumn) : Source :=
  .join source .left ⟨column.sideTable, none⟩
    (.equals (.column (Physical.metadataRef (some column.owner) .rowId))
      (.column (.plain (some column.sideTable) (Physical.elementRow column.id))))

end ListColumn

structure Scope where
  schemas : Schemas
  binding : Binding
  /-- Whether selected DOUBLE columns are read through their shadows. -/
  guardsDoubles : Bool := false
  aliases : List String := []

structure LoweringState where
  context : BindingContext
  /-- The list columns that the FROM clause has to bring in, in order of first use. -/
  unnested : List ListColumn := []
  searches : Bool := false
  deriving DecidableEq, Repr

/-- A lowering step; a failure keeps the state that was reached. -/
abbrev Lowering := ExceptT CompileError (StateM LoweringState)

namespace Lowering

def lift {α : Type} : Except CompileError α → Lowering α
  | .ok value => pure value
  | .error error => throw error

def bind (value : ParameterValue) : Lowering Expr :=
  modifyGet fun state =>
    let (placeholder, context) := state.context.bind value
    (placeholder, { state with context })

def noteUnnested (column : ListColumn) : Lowering Unit :=
  modify fun state =>
    if column ∈ state.unnested then state
    else { state with unnested := state.unnested ++ [column] }

def noteSearch : Lowering Unit :=
  modify fun state => { state with searches := true }

end Lowering

namespace Literal

/-- The value that a literal is bound as; NULL and truth values are not bound. -/
def boundValue? (compared : Option ColumnType) : Literal → Option ParameterValue
  | number digits =>
      match compared with
      | some type => some (.read type digits)
      | none => some (.readNumber digits)
  | string value =>
      match compared with
      | some type => some (.read type value)
      | none => some (.string value)
  | null | boolean _ => none

def lower (position : Position) (literal : Literal) : Lowering Expr :=
  match position with
  | .condition compared =>
      match literal.boundValue? compared with
      | some value => Lowering.bind value
      | none => return .literal literal
  | _ => return .literal literal

end Literal

namespace ColumnRef

/-- A name that the store resolves itself; a delimited name is back-quoted. -/
def leftToStore (reference : ColumnRef) : Expr :=
  if reference.name.isDelimited then .column ⟨none, .backQuoted reference.name.name⟩
  else .column reference

/-- A name that stands for no column: a sort key may name an alias, and a delimited name in a sort key
or a condition is left to the store. -/
def lowerUnresolved (aliases : List String) (position : Position) (reference : ColumnRef) :
    Except CompileError Expr :=
  let bare := reference.qualifier.isNone
  let delimited := bare && reference.name.isDelimited
  let named := bare && aliases.contains reference.name.name
  let kept := match position with
    | .sort => named || delimited
    | .condition _ => delimited
    | .select | .argument => false
  if kept then .ok reference.leftToStore else .error (.columnDoesNotExist reference.unquoted)

def lower (scope : Scope) (position : Position) (reference : ColumnRef) :
    Except CompileError Expr := do
  match ← scope.binding.resolve reference with
  | none => reference.lowerUnresolved scope.aliases position
  | some resolved =>
      match resolved.stored? with
      | some column =>
          if position = .select && scope.guardsDoubles && column.model.type = .double then
            return Physical.guardedDouble resolved.qualifier column.id
          return .column resolved.physical
      | none => return .column resolved.physical

def listColumn (scope : Scope) (form : ListForm) (reference : ColumnRef) :
    Except CompileError ListColumn := do
  let resolved ← scope.binding.resolveRequired reference
  match resolved.stored? with
  | none => throw (.invalidOperand (.notInSchema form))
  | some column =>
      if column.model.type.isList then
        return ⟨resolved.table.id, resolved.qualifier, column.id, column.model.type.element⟩
      throw (.invalidOperand (.notList form))

end ColumnRef

namespace DoubleTest

def lower (scope : Scope) (test : DoubleTest) (reference : ColumnRef) : Except CompileError Expr := do
  let resolved ← scope.binding.resolveRequired reference
  match resolved.stored? with
  | some column =>
      if column.model.type = .double then
        match test with
        | isNaN => return Physical.nanTest resolved.qualifier column.id
        | isInfinity => return Physical.infinityTest resolved.qualifier column.id
      throw (.invalidOperand (.notDouble test))
  | none => throw (.invalidOperand (.notDouble test))

end DoubleTest

namespace CastTarget

def lower (schemas : Schemas) : CastTarget → Except CompileError CastTarget
  | type logical => .ok (physical logical.physicalCast)
  | column id =>
      match schemas.column? id with
      | some model => .ok (physical model.type.physicalCast)
      | none => .error (.columnDoesNotExist (Number.decimal id.toNat))
  | physical name => .ok (physical name)

end CastTarget

namespace ListColumn

def matching (column : ListColumn) (pattern : Bool) (values : List Expr) :
    Except CompileError Expr :=
  if pattern then
    match Expr.anyOf (values.map fun value => .like column.elementExpr value none false) with
    | some condition => .ok condition
    | none => .error (.invalidOperand (.noValues .hasLike))
  else .ok (.inList column.elementExpr values false)

end ListColumn

def Expr.testedList (scope : Scope) (form : ListForm) : Expr → Except CompileError ListColumn
  | .column reference => reference.listColumn scope form
  | _ => .error (.invalidOperand (.notList form))

mutual

def Expr.lower (scope : Scope) (position : Position) : Expr → Lowering Expr
  | .literal value => value.lower position
  | .column reference => .lift (reference.lower scope position)
  | .parameter name => return .parameter name
  | .wildcard => return .wildcard
  | .currentUser => do
      let user := (← get).context.userId
      if position.isCondition then .bind (.integer user) else return .integer user.toInt
  | .call name distinct arguments =>
      return .call name distinct (← Expr.lowerAll scope .argument arguments)
  | .cast operand target => do
      let lowered ← operand.lower scope .argument
      return .cast lowered (← .lift (target.lower scope.schemas))
  | .caseWhen operand branches otherwise => do
      let compared := operand.bind (Expr.infer scope.schemas scope.binding)
      let operand ← Expr.lowerOption scope (position.comparedWith none) operand
      let branches ← Expr.lowerBranches scope (position.comparedWith compared) position branches
      return .caseWhen operand branches (← Expr.lowerOption scope position otherwise)
  | .binary operator left right => do
      let leftType := if operator.isLogical then none else left.infer scope.schemas scope.binding
      let rightType := if operator.isLogical then none else right.infer scope.schemas scope.binding
      let left ← left.lower scope (position.comparedWith rightType)
      return .binary operator left (← right.lower scope (position.comparedWith leftType))
  | .unary operator operand =>
      let inside := if operator = .not then position.comparedWith none else position
      return .unary operator (← operand.lower scope inside)
  | .nested inner => return .nested (← inner.lower scope position)
  | .isNull tested negated =>
      return .isNull (← tested.lower scope (position.comparedWith none)) negated
  | .isTruth tested value negated =>
      return .isTruth (← tested.lower scope (position.comparedWith none)) value negated
  | .between tested low high negated => do
      let testedType := tested.infer scope.schemas scope.binding
      let boundType :=
        low.infer scope.schemas scope.binding <|> high.infer scope.schemas scope.binding
      let tested ← tested.lower scope (position.comparedWith boundType)
      let low ← low.lower scope (position.comparedWith testedType)
      return .between tested low (← high.lower scope (position.comparedWith testedType)) negated
  | .inList tested candidates negated => do
      let testedType := tested.infer scope.schemas scope.binding
      let candidateType := candidates.findSome? (Expr.infer scope.schemas scope.binding)
      let tested ← tested.lower scope (position.comparedWith candidateType)
      return .inList tested
        (← Expr.lowerAll scope (position.comparedWith testedType) candidates) negated
  | .inQuery .. => throw (.invalidOperand .subquery)
  | .like tested pattern escape negated => do
      let testedType := tested.infer scope.schemas scope.binding
      let patternType := pattern.infer scope.schemas scope.binding
      let tested ← tested.lower scope (position.comparedWith patternType)
      let pattern ← pattern.lower scope (position.comparedWith testedType)
      return .like tested pattern
        (← Expr.lowerOption scope (position.comparedWith (some .string)) escape) negated
  | .has tested values pattern negated => do
      let column ← .lift (tested.testedList scope (if pattern then .hasLike else .has))
      let values ← Expr.lowerAll scope (.condition (some column.element)) values
      return column.rowsWith (← .lift (column.matching pattern values)) negated
  | .doubleTest test reference => .lift (test.lower scope reference)
  | .textMatches text | .matchAgainst text => do
      let lowered ← text.lower scope (.condition (some .string))
      Lowering.noteSearch
      return .matchAgainst lowered
  | .unnest reference => do
      let column ← .lift (reference.listColumn scope .unnest)
      Lowering.noteUnnested column
      return column.elementExpr

def Expr.lowerAll (scope : Scope) (position : Position) : List Expr → Lowering (List Expr)
  | [] => return []
  | expr :: rest => return (← expr.lower scope position) :: (← Expr.lowerAll scope position rest)

def Expr.lowerOption (scope : Scope) (position : Position) : Option Expr → Lowering (Option Expr)
  | none => return none
  | some expr => return some (← expr.lower scope position)

def Expr.lowerBranches (scope : Scope) (tested result : Position) :
    List (Expr × Expr) → Lowering (List (Expr × Expr))
  | [] => return []
  | (condition, value) :: rest => do
      let condition ← condition.lower scope tested
      let value ← value.lower scope result
      return (condition, value) :: (← Expr.lowerBranches scope tested result rest)

end

end TabularSql
