import TabularSql.Error
import TabularSql.Number.Word

/-!
# Page windows

A query may have a window of its own, and the caller may ask for a page inside it. The page never
reaches outside the window of the query, and a page budget can only shorten it.
-/

namespace TabularSql

set_option autoImplicit false

namespace Page

/-- The limit of a window that has none. -/
def unbounded : UInt64 := 9223372036854775807

def rowCount : Expr → Except CompileError UInt64
  | .literal (.number digits) =>
      match Number.readUnsigned digits with
      | some count => .ok count
      | none => .error (.malformed (.invalidRowCount digits))
  | other => .error (.malformed (.invalidRowCount other.text))

def window : Option Page → Except CompileError (Option UInt64 × Option UInt64)
  | none => .ok (none, none)
  | some page => do
      let limit ← rowCount page.limit
      let offset ← page.offset.mapM rowCount
      return (some limit, offset)

/-- The page at an offset inside a window; without offset and limit, the window itself. -/
def within (page : Option Page) (offset limit : Option UInt64) : Except CompileError (Option Page) :=
  match offset, limit with
  | none, none => .ok page
  | _, _ => do
      let skipped := offset.getD 0
      let (ownLimit, ownOffset) ← window page
      let left := Number.subClamped (ownLimit.getD unbounded) skipped
      return some (.ofCounts (min (limit.getD unbounded) left)
        (some (Number.addClamped (ownOffset.getD 0) skipped)))

def capped (page : Option Page) (most : Option UInt64) : Except CompileError (Option Page) :=
  match most, page with
  | none, _ => .ok page
  | some most, none => .ok (some (.ofCounts most (some 0)))
  | some most, some page => do
      let limit ← rowCount page.limit
      if most < limit then return some { page with limit := .natural most.toNat }
      return some page

/-- A window with its limit and offset replaced where they are given. -/
def replaced (page : Option Page) (offset limit : Option UInt64) :
    Except CompileError (Option Page) :=
  match offset, limit with
  | none, none => .ok page
  | _, _ => do
      let (ownLimit, ownOffset) ← window page
      return some (.ofCounts ((limit <|> ownLimit).getD unbounded) (offset <|> ownOffset))

end Page

end TabularSql
