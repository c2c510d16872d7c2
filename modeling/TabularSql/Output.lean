import TabularSql.Column.Size
import TabularSql.Typing

/-!
# Output columns

Each select item is described by a column model: the name that the caller sees, its type, and the
stored column it reads when that is one column under its own name or the target of a cast.
-/

namespace TabularSql

set_option autoImplicit false

namespace Expr

def castColumn? : Expr → Option ColumnId
  | cast _ (.column id) => some id
  | _ => none

def castSource (schemas : Schemas) (expr : Expr) : Option ColumnModel :=
  expr.subexpressions.findSome? castColumn? >>= schemas.column?

end Expr

namespace SelectItem

/-- The stored column behind a reference that uses the column's own name. -/
def columnSource (binding : Binding) (reference : ColumnRef) : Option ColumnModel := do
  let resolved ← binding.resolve? reference
  let column ← resolved.stored?
  if column.model.name = reference.name.name then some column.model else none

def nameAndSource (schemas : Schemas) (binding : Binding) (item : SelectItem) :
    String × Option ColumnModel :=
  match item.alias?, item.expr with
  | some name, expr => (name.name, expr.castSource schemas)
  | none, .column reference => (reference.unquoted, columnSource binding reference)
  | none, .cast operand (.column id) =>
      let source := schemas.column? id
      ((source.map ColumnModel.name).getD (Expr.cast operand (.column id)).text, source)
  | none, expr => (expr.text, expr.castSource schemas)

def describe (schemas : Schemas) (binding : Binding) (item : SelectItem) : ColumnModel :=
  let (name, source) := item.nameAndSource schemas binding
  { id := source.bind ColumnModel.id
    name
    type := (item.expr.infer schemas binding).getD .string
    maxSize := source.bind ColumnModel.maxSize
    maxListLength := source.bind ColumnModel.maxListLength }

end SelectItem

namespace Output

def widerSize : Option UInt64 → Option UInt64 → Option UInt64
  | some current, some other => some (if current < other then other else current)
  | none, some other => some other
  | current, none => current

def widenBy (columns other : List ColumnModel) : List ColumnModel :=
  columns.zipIdx.map fun (model, index) =>
    { model with maxSize := widerSize model.maxSize (other[index]?.bind ColumnModel.maxSize) }

/-- The columns of a union: those of the first part, as wide as the widest part. -/
def widen : List (List ColumnModel) → List ColumnModel
  | [] => []
  | first :: rest => rest.foldl widenBy first

/-- The columns as they are reported. Ids are given when every row stands for one stored row and every
column is stored. -/
def selectColumns (columns : List ColumnModel) (aggregated : Bool) : List SelectColumn :=
  let keepIds := !aggregated && columns.all fun model => model.id.isSome
  columns.map fun model =>
    { name := model.name, type := model.type, id := if keepIds then model.id else none }

end Output

end TabularSql
