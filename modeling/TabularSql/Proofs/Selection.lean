import Mathlib.Logic.Basic
import TabularSql.Combined.Facet

/-!
# Rows that facets select

A condition is true, false or unknown in a row; a comparison with NULL is unknown, and a query keeps the
rows for which its condition is true. What values there are, when two of them are equal and which one comes
first is left open. Facets then select the rows that their requests ask for and no others: NULL is asked for
by the keyword only, and never selected by a comparison.
-/

namespace TabularSql

set_option autoImplicit false

/-! ## Three-valued logic -/

/-- The truth of a condition in a row; `none` is unknown. -/
abbrev TruthValue := Option Bool

namespace TruthValue

/-- True if one side is, whatever the other is; false only if both are. -/
def or : TruthValue → TruthValue → TruthValue
  | some true, _ => some true
  | _, some true => some true
  | some false, some false => some false
  | _, _ => none

/-- False if one side is, whatever the other is; true only if both are. -/
def and : TruthValue → TruthValue → TruthValue
  | some false, _ => some false
  | _, some false => some false
  | some true, some true => some true
  | _, _ => none

def not (truth : TruthValue) : TruthValue := truth.map Bool.not

def any (truths : List TruthValue) : TruthValue := truths.foldr or (some false)

/-- A comparison, which is unknown if one side is NULL. -/
def compare {Value : Type} (test : Value → Value → Bool) : Option Value → Option Value → TruthValue
  | some left, some right => some (test left right)
  | _, _ => none

theorem or_eq_true {left right : TruthValue} :
    or left right = some true ↔ left = some true ∨ right = some true := by
  rcases left with _ | _ | _ <;> rcases right with _ | _ | _ <;> simp [or]

theorem and_eq_true {left right : TruthValue} :
    and left right = some true ↔ left = some true ∧ right = some true := by
  rcases left with _ | _ | _ <;> rcases right with _ | _ | _ <;> simp [and]

theorem any_eq_true {truths : List TruthValue} : any truths = some true ↔ some true ∈ truths := by
  induction truths with
  | nil => simp [any]
  | cons truth truths ih =>
    show or truth (any truths) = some true ↔ _
    rw [or_eq_true, ih, List.mem_cons, eq_comm]

theorem compare_eq_true {Value : Type} {test : Value → Value → Bool} {left right : Option Value} :
    compare test left right = some true ↔
      ∃ one two, left = some one ∧ right = some two ∧ test one two = true := by
  cases left <;> cases right <;> simp [compare]

end TruthValue

/-! ## Requests that ask for nothing -/

theorem Expr.anyOf_eq_none {list : List Expr} : Expr.anyOf list = none ↔ list = [] := by
  cases list <;> simp [Expr.anyOf]

theorem Expr.allOf_eq_none {list : List Expr} : Expr.allOf list = none ↔ list = [] := by
  cases list <;> simp [Expr.allOf]

namespace Facet

variable {subject : Expr} {cast : Option ColumnType}

theorem enumeration_eq_none {values : List String} : enumeration subject values cast = none ↔ values = [] := by
  rw [enumeration, Option.map_eq_none_iff, Expr.anyOf_eq_none, List.map_eq_nil_iff]

theorem listEnumeration_eq_none {values : List String} :
    listEnumeration subject values = none ↔ values = [] := by
  rw [listEnumeration, Option.map_eq_none_iff, Expr.anyOf_eq_none, List.append_eq_nil_iff]
  constructor
  · rintro ⟨has, isNull⟩
    have unlisted : nullKeyword ∉ values := by simpa using isNull
    have onlyKeyword : ∀ text ∈ values, text = nullKeyword := by simpa using has
    rw [List.eq_nil_iff_forall_not_mem]
    intro text listed
    exact unlisted (onlyKeyword text listed ▸ listed)
  · rintro rfl
    exact ⟨rfl, rfl⟩

theorem bound?_eq_none {bound : Option String} : bound? bound = none ↔ bound = none ∨ bound = some "" := by
  cases bound <;> simp [bound?]

theorem bound?_eq_some {bound : Option String} {text : String} :
    bound? bound = some text ↔ bound = some text ∧ text ≠ "" := by
  cases bound <;> simp [bound?]

/-- The keyword in either bound stands for NULL; otherwise the bounds that say something count. -/
theorem range_eq (min max : Option String) : range subject min max cast =
    if min = some nullKeyword ∨ max = some nullKeyword then some (.nested (.isNull subject false))
    else (bareRange subject cast (bound? min) (bound? max)).map .nested := by
  have keyword (bound : Option String) : bound? bound = some nullKeyword ↔ bound = some nullKeyword := by
    rw [bound?_eq_some]
    exact and_iff_left (by decide)
  simp only [range, keyword, Bool.or_eq_true, decide_eq_true_eq]

theorem range_eq_none {min max : Option String} : range subject min max cast = none ↔
    (min = none ∨ min = some "") ∧ (max = none ∨ max = some "") := by
  rw [range_eq]
  split
  · next keyword =>
      have something : nullKeyword ≠ "" := by decide
      rcases keyword with rfl | rfl <;> simp [something]
  · rw [← bound?_eq_none, ← bound?_eq_none, Option.map_eq_none_iff]
    cases bound? min <;> cases bound? max <;> simp [bareRange]

end Facet

/-! ## Conditions in a row -/

/-- A row and its values: what its operands are worth, where `none` is NULL, and how values compare. -/
structure RowReading (Value : Type) where
  /-- The value of an operand that is no text, such as a column. -/
  operand : Expr → Option Value
  text : String → Value
  cast : CastTarget → Value → Option Value
  elements : Value → List Value
  equal : Value → Value → Bool
  atMost : Value → Value → Bool
  /-- Conditions of the forms that facets do not use. -/
  test : Expr → TruthValue

namespace RowReading

variable {Value : Type} (reading : RowReading Value)

def value : Expr → Option Value
  | .literal (.string text) => some (reading.text text)
  | .cast operand target => (value operand).bind (reading.cast target)
  | .nested inner => value inner
  | operand => reading.operand operand

/-- Whether an element of a list equals one of the given values. -/
def hasAny (list : Option Value) (values : List (Option Value)) : TruthValue :=
  list.bind fun list => TruthValue.any ((reading.elements list).flatMap fun element =>
    values.map (TruthValue.compare reading.equal (some element)))

def truth : Expr → TruthValue
  | .nested inner => truth inner
  | .binary .or left right => TruthValue.or (truth left) (truth right)
  | .binary .and left right => TruthValue.and (truth left) (truth right)
  | .binary .equal left right =>
    TruthValue.compare reading.equal (reading.value left) (reading.value right)
  | .binary .lessEqual left right =>
    TruthValue.compare reading.atMost (reading.value left) (reading.value right)
  | .binary .greaterEqual left right =>
    TruthValue.compare reading.atMost (reading.value right) (reading.value left)
  | .between tested low high negated =>
    let within := TruthValue.and
      (TruthValue.compare reading.atMost (reading.value low) (reading.value tested))
      (TruthValue.compare reading.atMost (reading.value tested) (reading.value high))
    if negated then TruthValue.not within else within
  | .isNull tested negated => some ((reading.value tested).isNone != negated)
  | .has tested values false negated =>
    let found := reading.hasAny (reading.value tested) (values.map reading.value)
    if negated then TruthValue.not found else found
  | condition => reading.test condition

def Passes (condition : Expr) : Prop := reading.truth condition = some true

@[simp] theorem passes_nested (inner : Expr) : reading.Passes (.nested inner) ↔ reading.Passes inner :=
  Iff.rfl

@[simp] theorem passes_or (left right : Expr) :
    reading.Passes (.or left right) ↔ reading.Passes left ∨ reading.Passes right :=
  TruthValue.or_eq_true

@[simp] theorem passes_and (left right : Expr) :
    reading.Passes (.and left right) ↔ reading.Passes left ∧ reading.Passes right :=
  TruthValue.and_eq_true

@[simp] theorem passes_isNull (tested : Expr) :
    reading.Passes (.isNull tested false) ↔ reading.value tested = none := by
  show some ((reading.value tested).isNone != false) = some true ↔ _
  simp

theorem passes_anyOf {list : List Expr} {whole : Expr} (any : Expr.anyOf list = some whole) :
    reading.Passes whole ↔ ∃ condition ∈ list, reading.Passes condition := by
  cases list with
  | nil => cases any
  | cons first rest =>
    cases any
    induction rest generalizing first with
    | nil => simp
    | cons second rest ih => rw [List.foldl_cons, ih]; simp [or_assoc]

theorem passes_allOf {list : List Expr} {whole : Expr} (all : Expr.allOf list = some whole) :
    reading.Passes whole ↔ ∀ condition ∈ list, reading.Passes condition := by
  cases list with
  | nil => cases all
  | cons first rest =>
    cases all
    induction rest generalizing first with
    | nil => simp
    | cons second rest ih => rw [List.foldl_cons, ih]; simp [and_assoc]

/-- The cell has a value, and it is equal to the other. -/
def Equals (cell other : Option Value) : Prop :=
  ∃ own given, cell = some own ∧ other = some given ∧ reading.equal own given = true

/-- The cell has a list, and an element of it is equal to the other. -/
def Has (cell other : Option Value) : Prop :=
  ∃ list, cell = some list ∧ ∃ element ∈ reading.elements list, reading.Equals (some element) other

/-- The first is a value that does not come after the second. -/
def AtMost (first second : Option Value) : Prop :=
  ∃ one two, first = some one ∧ second = some two ∧ reading.atMost one two = true

@[simp] theorem passes_equals (left right : Expr) :
    reading.Passes (.equals left right) ↔ reading.Equals (reading.value left) (reading.value right) :=
  TruthValue.compare_eq_true

@[simp] theorem passes_lessEqual (left right : Expr) :
    reading.Passes (.binary .lessEqual left right) ↔
      reading.AtMost (reading.value left) (reading.value right) :=
  TruthValue.compare_eq_true

@[simp] theorem passes_greaterEqual (left right : Expr) :
    reading.Passes (.binary .greaterEqual left right) ↔
      reading.AtMost (reading.value right) (reading.value left) :=
  TruthValue.compare_eq_true

@[simp] theorem passes_between (tested low high : Expr) :
    reading.Passes (.between tested low high false) ↔
      reading.AtMost (reading.value low) (reading.value tested) ∧
        reading.AtMost (reading.value tested) (reading.value high) :=
  TruthValue.and_eq_true.trans (and_congr TruthValue.compare_eq_true TruthValue.compare_eq_true)

@[simp] theorem passes_has (tested : Expr) (values : List Expr) :
    reading.Passes (.has tested values false false) ↔
      ∃ value ∈ values, reading.Has (reading.value tested) (reading.value value) := by
  show reading.hasAny (reading.value tested) (values.map reading.value) = some true ↔ _
  cases reading.value tested with
  | none => simp [hasAny, Has]
  | some list =>
    simp only [hasAny, Option.bind_some, TruthValue.any_eq_true, List.mem_flatMap, List.mem_map,
      exists_exists_and_eq_and, TruthValue.compare_eq_true]
    constructor
    · rintro ⟨element, own, value, given, equal⟩
      exact ⟨value, given, list, rfl, element, own, equal⟩
    · rintro ⟨value, given, _, ⟨⟩, element, own, equal⟩
      exact ⟨element, own, value, given, equal⟩

/-- What a text of a request is worth, converted if the facet has a type of its own. -/
def worth (cast : Option ColumnType) (text : String) : Option Value :=
  match cast with
  | none => some (reading.text text)
  | some type => reading.cast (.type type) (reading.text text)

@[simp] theorem value_valueExpr (cast : Option ColumnType) (text : String) :
    reading.value (Facet.valueExpr cast text) = reading.worth cast text := by
  cases cast <;> rfl

@[simp] theorem value_string (text : String) :
    reading.value (.string text) = reading.worth none text :=
  rfl

/-! ## Conditions of facets -/

variable {subject condition : Expr} {cast : Option ColumnType}

open Facet

theorem passes_valueCondition (text : String) :
    reading.Passes (valueCondition subject cast text) ↔
      text = nullKeyword ∧ reading.value subject = none ∨
        text ≠ nullKeyword ∧ reading.Equals (reading.value subject) (reading.worth cast text) := by
  unfold valueCondition
  split
  · next keyword => simp [keyword]
  · next other => simp [other]

theorem passes_enumeration {values : List String} (given : enumeration subject values cast = some condition) :
    reading.Passes condition ↔ reading.value subject = none ∧ nullKeyword ∈ values ∨
      ∃ text ∈ values, text ≠ nullKeyword ∧
        reading.Equals (reading.value subject) (reading.worth cast text) := by
  obtain ⟨whole, any, rfl⟩ := Option.map_eq_some_iff.mp given
  rw [passes_nested, reading.passes_anyOf any]
  simp only [List.mem_map, exists_exists_and_eq_and, passes_valueCondition]
  constructor
  · rintro ⟨text, listed, ⟨rfl, null⟩ | ⟨other, equals⟩⟩
    · exact .inl ⟨null, listed⟩
    · exact .inr ⟨text, listed, other, equals⟩
  · rintro (⟨null, listed⟩ | ⟨text, listed, other, equals⟩)
    · exact ⟨nullKeyword, listed, .inl ⟨rfl, null⟩⟩
    · exact ⟨text, listed, .inr ⟨other, equals⟩⟩

/-- The values of a list column apart from the keyword are tested together, if there are any. -/
theorem passes_listed (listed : List String) :
    (∃ condition ∈ (if listed.isEmpty then [] else [Expr.has subject (listed.map .string) false false]),
      reading.Passes condition) ↔
      ∃ text ∈ listed, reading.Has (reading.value subject) (reading.worth none text) := by
  cases listed with
  | nil => simp
  | cons first rest => simp [-List.map_cons, List.mem_map]

theorem passes_listEnumeration {values : List String} (given : listEnumeration subject values = some condition) :
    reading.Passes condition ↔ reading.value subject = none ∧ nullKeyword ∈ values ∨
      ∃ text ∈ values, text ≠ nullKeyword ∧
        reading.Has (reading.value subject) (reading.worth none text) := by
  obtain ⟨whole, any, rfl⟩ := Option.map_eq_some_iff.mp given
  rw [passes_nested, reading.passes_anyOf any]
  simp only [List.mem_append, or_and_right, exists_or, passes_listed]
  rw [or_comm]
  refine or_congr ?_ (by simp [and_assoc])
  by_cases listed : nullKeyword ∈ values <;> simp [listed]

/-- The cell has a value within the bounds that say something. -/
def Within (cell : Option Value) (cast : Option ColumnType) (min max : Option String) : Prop :=
  cell ≠ none ∧ (∀ text, min = some text → text ≠ "" → reading.AtMost (reading.worth cast text) cell) ∧
    ∀ text, max = some text → text ≠ "" → reading.AtMost cell (reading.worth cast text)

theorem passes_bareRange {min max : Option String} (given : bareRange subject cast min max = some condition) :
    reading.Passes condition ↔ reading.value subject ≠ none ∧
      (∀ text ∈ min, reading.AtMost (reading.worth cast text) (reading.value subject)) ∧
        ∀ text ∈ max, reading.AtMost (reading.value subject) (reading.worth cast text) := by
  -- A comparison with the cell is true only if the cell has a value.
  have above {bound : Option Value} (least : reading.AtMost bound (reading.value subject)) :
      reading.value subject ≠ none := by
    obtain ⟨_, _, _, own, _⟩ := least
    simp [own]
  have below {bound : Option Value} (most : reading.AtMost (reading.value subject) bound) :
      reading.value subject ≠ none := by
    obtain ⟨_, _, own, _⟩ := most
    simp [own]
  cases min with
  | none =>
    cases max with
    | none => cases given
    | some max =>
      cases given
      simpa using below
  | some min =>
    cases max with
    | none =>
      cases given
      simpa using above
    | some max =>
      cases given
      simpa using fun least _ => above least

theorem passes_range {min max : Option String} (given : range subject min max cast = some condition) :
    reading.Passes condition ↔
      if min = some nullKeyword ∨ max = some nullKeyword then reading.value subject = none
      else reading.Within (reading.value subject) cast min max := by
  rw [range_eq] at given
  split at given
  · next keyword =>
      cases given
      simp [keyword]
  · next other =>
      obtain ⟨bare, bounded, rfl⟩ := Option.map_eq_some_iff.mp given
      rw [passes_nested, reading.passes_bareRange bounded, if_neg other]
      simp only [Option.mem_def, bound?_eq_some, and_imp]
      rfl

end RowReading

/-! ## Facets of a request -/

namespace ResolvedFacet

variable {Value : Type} (reading : RowReading Value) (facet : ResolvedFacet)

def conversion : Option ColumnType := facet.request.path.map fun _ => facet.type

/-- The request asks for nothing, and so does not narrow the query. -/
def AsksNothing : Prop :=
  match facet.request.selection with
  | .values texts => texts = []
  | .range min max => (min = none ∨ min = some "") ∧ (max = none ∨ max = some "")

/-- The row is one that the request asks for. -/
def Admits : Prop :=
  let cell := reading.value facet.subject
  match facet.request.selection with
  | .values texts =>
    cell = none ∧ Facet.nullKeyword ∈ texts ∨ ∃ text ∈ texts, text ≠ Facet.nullKeyword ∧
      if facet.type.isList then reading.Has cell (reading.worth none text)
      else reading.Equals cell (reading.worth facet.conversion text)
  | .range min max =>
    if min = some Facet.nullKeyword ∨ max = some Facet.nullKeyword then cell = none
    else reading.Within cell facet.conversion min max

theorem condition_eq_none : facet.condition = none ↔ facet.AsksNothing := by
  unfold condition AsksNothing
  cases facet.request.selection with
  | values texts =>
    dsimp only
    split
    · exact Facet.listEnumeration_eq_none
    · exact Facet.enumeration_eq_none
  | range min max => exact Facet.range_eq_none

theorem passes_condition {condition : Expr} (given : facet.condition = some condition) :
    reading.Passes condition ↔ facet.Admits reading := by
  unfold ResolvedFacet.condition at given
  unfold Admits
  cases selected : facet.request.selection with
  | values texts =>
    rw [selected] at given
    dsimp only at given ⊢
    split at given
    · next list =>
        simp only [if_pos list]
        exact reading.passes_listEnumeration given
    · next scalar =>
        simp only [if_neg scalar]
        exact reading.passes_enumeration given
  | range min max =>
    rw [selected] at given
    exact reading.passes_range given

theorem combine_eq_none {facets : List ResolvedFacet} :
    combine facets = none ↔ ∀ facet ∈ facets, facet.condition = none := by
  rw [combine, Expr.allOf_eq_none, List.filterMap_eq_nil_iff]

theorem passes_combine {facets : List ResolvedFacet} {whole : Expr} (given : combine facets = some whole) :
    reading.Passes whole ↔
      ∀ facet ∈ facets, ∀ condition, facet.condition = some condition → reading.Passes condition := by
  rw [reading.passes_allOf given]
  simp only [List.mem_filterMap]
  grind

end ResolvedFacet

/-- Facets select exactly the rows that are asked for. The values of an enumeration, of a column or of a
list column, give a condition as soon as there are any; it is true in a row whose cell is NULL if the keyword
is among them, and in a row whose cell is (or has) one of the others. Bounds give a condition as soon as one
of them says something; it is true in the rows without a value if one is the keyword, and otherwise in the
rows with a value within the bounds. The facets of a request together give a condition as soon as one of them
does, and it is true in the rows for which each of these is. -/
theorem Facet.conditions_select_asked {Value : Type} (reading : RowReading Value) :
    (∀ (subject : Expr) (cast : Option ColumnType) (texts : List String),
      (enumeration subject texts cast = none ↔ texts = []) ∧
        ∀ condition, enumeration subject texts cast = some condition →
          (reading.Passes condition ↔ reading.value subject = none ∧ nullKeyword ∈ texts ∨
            ∃ text ∈ texts, text ≠ nullKeyword ∧
              reading.Equals (reading.value subject) (reading.worth cast text))) ∧
    (∀ (subject : Expr) (texts : List String), (listEnumeration subject texts = none ↔ texts = []) ∧
        ∀ condition, listEnumeration subject texts = some condition →
          (reading.Passes condition ↔ reading.value subject = none ∧ nullKeyword ∈ texts ∨
            ∃ text ∈ texts, text ≠ nullKeyword ∧
              reading.Has (reading.value subject) (reading.worth none text))) ∧
    (∀ (subject : Expr) (cast : Option ColumnType) (min max : Option String),
      (range subject min max cast = none ↔
        (min = none ∨ min = some "") ∧ (max = none ∨ max = some "")) ∧
        ∀ condition, range subject min max cast = some condition →
          (reading.Passes condition ↔
            if min = some nullKeyword ∨ max = some nullKeyword then reading.value subject = none
            else reading.Within (reading.value subject) cast min max)) ∧
    (∀ facet : ResolvedFacet, (facet.condition = none ↔ facet.AsksNothing) ∧
        ∀ condition, facet.condition = some condition →
          (reading.Passes condition ↔ facet.Admits reading)) ∧
    ∀ facets : List ResolvedFacet,
      (ResolvedFacet.combine facets = none ↔ ∀ facet ∈ facets, facet.condition = none) ∧
        ∀ condition, ResolvedFacet.combine facets = some condition →
          (reading.Passes condition ↔
            ∀ facet ∈ facets, ∀ own, facet.condition = some own → reading.Passes own) :=
  ⟨fun _ _ _ => ⟨enumeration_eq_none, fun _ => reading.passes_enumeration⟩,
    fun _ _ => ⟨listEnumeration_eq_none, fun _ => reading.passes_listEnumeration⟩,
    fun _ _ _ _ => ⟨range_eq_none, fun _ => reading.passes_range⟩,
    fun facet => ⟨facet.condition_eq_none, fun _ => facet.passes_condition reading⟩,
    fun _ => ⟨ResolvedFacet.combine_eq_none, fun _ => ResolvedFacet.passes_combine reading⟩⟩

end TabularSql
