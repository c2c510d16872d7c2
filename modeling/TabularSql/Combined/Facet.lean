import TabularSql.Column.Model
import TabularSql.Error

/-!
# Facets

A facet is a column, or a path inside a JSON column, that the schema offers for narrowing. A request
picks values of an enumeration or bounds of a range; a keyword stands for rows without a value.
-/

namespace TabularSql

set_option autoImplicit false

inductive FacetSelection where
  | values (values : List String)
  | range (min max : Option String)
  deriving DecidableEq, Repr, Inhabited

structure FacetRequest where
  column : String
  path : Option String := none
  selection : FacetSelection
  deriving DecidableEq, Repr, Inhabited

structure ResolvedFacet where
  kind : FacetKind
  type : ColumnType
  request : FacetRequest
  deriving DecidableEq, Repr, Inhabited

namespace FacetSelection

def kind : FacetSelection → FacetKind
  | values _ => .enumeration
  | range .. => .range

end FacetSelection

namespace Facet

/-- Stands for rows without a value. -/
def nullKeyword : String := "org.sagebionetworks.UNDEFINED_NULL_NOTSET"

def valueExpr (cast : Option ColumnType) (value : String) : Expr :=
  match cast with
  | some type => .cast (.string value) (.type type)
  | none => .string value

def valueCondition (subject : Expr) (cast : Option ColumnType) (value : String) : Expr :=
  if value = nullKeyword then .isNull subject false else .equals subject (valueExpr cast value)

def enumeration (subject : Expr) (values : List String) (cast : Option ColumnType) : Option Expr :=
  (Expr.anyOf (values.map (valueCondition subject cast))).map Expr.nested

def listEnumeration (subject : Expr) (values : List String) : Option Expr :=
  let listed := values.filter (· ≠ nullKeyword)
  let has := if listed.isEmpty then [] else [.has subject (listed.map Expr.string) false false]
  let isNull := if nullKeyword ∈ values then [.isNull subject false] else []
  (Expr.anyOf (has ++ isNull)).map Expr.nested

/-- A bound that says something. -/
def bound? (text : Option String) : Option String :=
  text.filter fun text => !text.isEmpty

/-- The condition that the bounds of a range stand for, without its parentheses. -/
def bareRange (subject : Expr) (cast : Option ColumnType) :
    Option String → Option String → Option Expr
  | some min, some max =>
      some (.between subject (valueExpr cast min) (valueExpr cast max) false)
  | some min, none => some (.binary .greaterEqual subject (valueExpr cast min))
  | none, some max => some (.binary .lessEqual subject (valueExpr cast max))
  | none, none => none

def range (subject : Expr) (min max : Option String) (cast : Option ColumnType) : Option Expr :=
  let min := bound? min
  let max := bound? max
  if min = some nullKeyword || max = some nullKeyword then some (.nested (.isNull subject false))
  else (bareRange subject cast min max).map Expr.nested

def ofColumn (column : ColumnModel) (request : FacetRequest) :
    Except CompileError (FacetKind × ColumnType) :=
  match column.facet, request.path with
  | none, _ => .error (.unresolvedFacet (.notFaceted request.column))
  | some _, some path => .error (.unresolvedFacet (.noSubColumn request.column path))
  | some kind, none => .ok (kind, column.type)

def ofSubColumn (column : ColumnModel) (request : FacetRequest) :
    Except CompileError (FacetKind × ColumnType) :=
  match column.subColumns.find? fun sub => some sub.path = request.path with
  | some sub => .ok (sub.facet, sub.type)
  | none =>
      .error (.unresolvedFacet (.unexpectedPath request.path (column.subColumns.map SubColumn.path)))

end Facet

namespace ResolvedFacet

def resolve (columns : List ColumnModel) (request : FacetRequest) :
    Except CompileError ResolvedFacet := do
  match columns.find? fun column => column.name == request.column with
  | none => throw (.unresolvedFacet (.noColumn request.column))
  | some column =>
      let (kind, type) ←
        if column.subColumns.isEmpty then Facet.ofColumn column request
        else Facet.ofSubColumn column request
      if request.selection.kind = kind then return ⟨kind, type, request⟩
      throw (.invalidOperand (.facetKind request.column kind))

def subject (facet : ResolvedFacet) : Expr :=
  match facet.request.path with
  | some path => .apply "JSON_EXTRACT" [.quoted facet.request.column, .string path]
  | none => .quoted facet.request.column

def condition (facet : ResolvedFacet) : Option Expr :=
  let cast := facet.request.path.map fun _ => facet.type
  match facet.request.selection with
  | .values values =>
      if facet.type.isList then Facet.listEnumeration facet.subject values
      else Facet.enumeration facet.subject values cast
  | .range min max => Facet.range facet.subject min max cast

def combine (facets : List ResolvedFacet) : Option Expr :=
  Expr.allOf (facets.filterMap condition)

end ResolvedFacet

end TabularSql
