import TabularSql.Error
import TabularSql.Parameter

/-!
# Binding context

What a compilation carries along: the values bound so far, the virtual tables that are being expanded
from the outermost to the innermost, and the user who asks.
-/

namespace TabularSql

set_option autoImplicit false

structure BindingContext where
  userId : Int64
  parameters : Parameters := {}
  expanding : List TableId := []
  deriving DecidableEq, Repr, Inhabited

namespace BindingContext

def bind (context : BindingContext) (value : ParameterValue) : Expr × BindingContext :=
  let (name, parameters) := context.parameters.bind value
  (.parameter name, { context with parameters })

/-- Starts to expand a virtual table, which must not be under expansion already. -/
def enter (context : BindingContext) (table : TableId) : Except CompileError BindingContext :=
  if table ∈ context.expanding then
    .error (.configuration (.selfDependent table context.expanding))
  else .ok { context with expanding := context.expanding ++ [table] }

def leave (context : BindingContext) : BindingContext :=
  { context with expanding := context.expanding.dropLast }

end BindingContext

end TabularSql
