import TabularSql.Combined.Facet
import TabularSql.Combined.Filter
import TabularSql.Combined.Sort
import TabularSql.Proofs.RoundTrip

/-!
# Text of conditions and keys that a caller adds

Column names, paths, values and bounds that a caller sends become quoted names and string literals of a
condition, and the condition is written as text. The text is read as the same condition, whatever
characters the names and values are made of, so none of them can end its quotes and go on as part of the
query. The same goes for sort items, except those that are taken as expressions on purpose.
-/

namespace TabularSql

set_option autoImplicit false

open Reader Grammar Lexeme

/-! ## Expressions that are read from their text -/

namespace Expr

/-- The expression can be written and read again where operands of this level are expected. -/
def Writes (level : Nat) (whole : Expr) : Prop :=
  Fragment.Everywhere Fragment.Writable (.expr whole) ∧ whole.level ≤ level

variable {level : Nat}

theorem writes_of {whole : Expr} (grammatical : whole.Grammatical) (restorable : whole.Restorable)
    (inside : ∀ part ∈ whole.inside, Fragment.Everywhere Fragment.Writable part)
    (fits : whole.level ≤ level) : Writes level whole :=
  ⟨Fragment.everywhere_iff.mpr ⟨⟨grammatical, restorable⟩, inside⟩, fits⟩

theorem Writes.mono {whole : Expr} {looser : Nat} (writes : Writes level whole)
    (le : level ≤ looser) : Writes looser whole :=
  ⟨writes.1, Nat.le_trans writes.2 le⟩

theorem writes_string (value : String) : Writes level (.string value) :=
  writes_of trivial trivial nofun (Nat.zero_le _)

theorem writes_quoted (name : String) : Writes level (.quoted name) := by
  have spelled : ColumnRef.Spelled ⟨none, .doubleQuoted name⟩ := ⟨nofun, .inl rfl⟩
  exact writes_of ⟨spelled, nofun⟩ trivial nofun (Nat.zero_le _)

theorem writes_nested {inner : Expr} (own : Writes 7 inner) : Writes level (.nested inner) :=
  writes_of own.2 trivial (by simpa using own.1) (Nat.zero_le _)

theorem writes_cast {operand : Expr} (own : Writes 7 operand) (type : ColumnType) :
    Writes level (.cast operand (.type type)) :=
  writes_of ⟨own.2, trivial⟩ trivial (by simpa using own.1) (Nat.zero_le _)

theorem writes_isNull {tested : Expr} (own : Writes 3 tested) (negated : Bool) :
    Writes 4 (.isNull tested negated) :=
  writes_of own.2 trivial (by simpa using own.1) (Nat.le_refl _)

theorem writes_comparison {operator : BinaryOperator} {left right : Expr}
    (compares : operator.isComparison = true) (first : Writes 3 left) (second : Writes 3 right) :
    Writes 4 (.binary operator left right) := by
  have tight : left.level ≤ operator.leftLevel ∧ right.level < operator.level := by
    cases operator <;> cases compares <;> exact ⟨first.2, Nat.lt_succ_of_le second.2⟩
  have restorable : Restorable (.binary operator left right) := by
    cases operator <;> cases compares <;> trivial
  refine writes_of tight restorable (by simpa using ⟨first.1, second.1⟩) ?_
  cases operator <;> cases compares <;> exact Nat.le_refl _

theorem writes_or {left right : Expr} (first : Writes 7 left) (second : Writes 6 right) :
    Writes 7 (.or left right) :=
  writes_of ⟨first.2, Nat.lt_succ_of_le second.2⟩ trivial
    (by simpa [Expr.or] using ⟨first.1, second.1⟩) (Nat.le_refl _)

theorem writes_between {tested low high : Expr} (own : Writes 3 tested) (first : Writes 3 low)
    (second : Writes 3 high) (negated : Bool) : Writes 4 (.between tested low high negated) :=
  writes_of ⟨own.2, first.2, second.2⟩ trivial
    (by simpa using ⟨own.1, first.1, second.1⟩) (Nat.le_refl _)

theorem writes_like {tested pattern : Expr} (own : Writes 3 tested) (second : Writes 3 pattern)
    (negated : Bool) : Writes 4 (.like tested pattern none negated) :=
  writes_of ⟨own.2, second.2, nofun⟩ trivial
    (by simpa using ⟨own.1, second.1⟩) (Nat.le_refl _)

section

variable {tested : Expr} {list : List Expr}

theorem every_writable (own : Writes 3 tested) (each : ∀ expr ∈ list, Writes 7 expr) :
    ∀ part ∈ .expr tested :: list.map Fragment.expr, Fragment.Everywhere Fragment.Writable part := by
  rw [List.forall_mem_cons, List.forall_mem_map]
  exact ⟨own.1, fun expr listed => (each expr listed).1⟩

theorem writes_inList (own : Writes 3 tested) (some : list ≠ []) (each : ∀ expr ∈ list, Writes 7 expr)
    (negated : Bool) : Writes 4 (.inList tested list negated) :=
  writes_of ⟨own.2, some, fun expr listed => (each expr listed).2⟩ trivial (every_writable own each)
    (Nat.le_refl _)

theorem writes_has (own : Writes 3 tested) (some : list ≠ []) (each : ∀ expr ∈ list, Writes 7 expr)
    (pattern negated : Bool) : Writes 4 (.has tested list pattern negated) :=
  writes_of ⟨own.2, some, fun expr listed => (each expr listed).2⟩ trivial (every_writable own each)
    (Nat.le_refl _)

end

theorem writes_textMatches {text : Expr} (own : Writes 7 text) : Writes level (.textMatches text) :=
  writes_of own.2 trivial (by simpa using own.1) (Nat.zero_le _)

theorem writes_apply {name : String} {arguments : List Expr}
    (plain : Token.IsPlainWord (Text.upper name))
    (called : opening (Text.upper name) true = .call (Text.upper name))
    (each : ∀ expr ∈ arguments, Writes 7 expr) : Writes level (.apply name arguments) := by
  refine writes_of ⟨plain, called, .inr ⟨fun expr listed => (each expr listed).2, nofun⟩⟩ trivial ?_
    (Nat.zero_le _)
  exact List.forall_mem_map.mpr fun expr listed => (each expr listed).1

/-- A chain of OR is read from left to right, as it is built. -/
theorem writes_anyOf {list : List Expr} {whole : Expr} (any : Expr.anyOf list = some whole)
    (each : ∀ expr ∈ list, Writes 6 expr) : Writes 7 whole := by
  cases list with
  | nil => cases any
  | cons first rest =>
    cases any
    obtain ⟨own, others⟩ := List.forall_mem_cons.mp each
    apply List.foldlRecOn rest Expr.or (own.mono (by decide))
    intro left chain right listed
    exact writes_or chain (others right listed)

end Expr

/-! ## Filters -/

namespace QueryFilter

open TabularSql.Expr

theorem writes_columnExpr {column : String} {expr : Expr} (ok : columnExpr column = .ok expr) :
    Writes 3 expr := by
  unfold columnExpr at ok
  split at ok <;> cases ok
  exact writes_quoted column

theorem writes_valueExprs {values : List String} {exprs : List Expr}
    (ok : valueExprs values = .ok exprs) : exprs ≠ [] ∧ ∀ expr ∈ exprs, Writes 3 expr := by
  unfold valueExprs at ok
  split at ok
  · cases ok
  · next some =>
      cases ok
      refine ⟨by simpa using some, fun expr listed => ?_⟩
      obtain ⟨value, _, rfl⟩ := List.mem_map.mp listed
      exact writes_string value

theorem writes_compare {column value : Expr} (first : Writes 3 column) (second : Writes 3 value)
    (operator : ValueOperator) : Writes 4 (compare operator column value) := by
  cases operator with
  | like => exact writes_like first second false
  | equal | among => exact writes_comparison rfl first second

theorem writes_bareCondition {filter : QueryFilter} {bare : Expr}
    (ok : filter.bareCondition = .ok bare) : Writes 7 bare := by
  cases filter with
  | value column operator values defining =>
    obtain ⟨tested, named, ok⟩ := Except.of_bind ok
    obtain ⟨exprs, given, ok⟩ := Except.of_bind ok
    have own := writes_columnExpr named
    obtain ⟨some, each⟩ := writes_valueExprs given
    have compared (operator : ValueOperator) :
        ∀ expr ∈ exprs.map (compare operator tested), Writes 6 expr := by
      intro expr listed
      obtain ⟨value, among, rfl⟩ := List.mem_map.mp listed
      exact (writes_compare own (each value among) operator).mono (by decide)
    cases operator with
    | among =>
      cases ok
      exact (writes_inList own some (fun expr listed => (each expr listed).mono (by decide))
        false).mono (by decide)
    | like | equal =>
      simp only at ok
      split at ok <;> cases ok
      next any => exact writes_anyOf any (compared _)
  | list column function values defining =>
    obtain ⟨tested, named, ok⟩ := Except.of_bind ok
    obtain ⟨exprs, given, ok⟩ := Except.of_bind ok
    cases ok
    obtain ⟨some, each⟩ := writes_valueExprs given
    exact (writes_has (writes_columnExpr named) some
      (fun expr listed => (each expr listed).mono (by decide)) _ false).mono (by decide)
  | textMatches search defining =>
    simp only [bareCondition] at ok
    split at ok <;> cases ok
    exact writes_textMatches (writes_string search)

/-- The condition of a filter is in parentheses, so it is an operand of any operator. -/
theorem writes_operand {filter : QueryFilter} {condition : Expr} {level : Nat}
    (ok : filter.condition = .ok condition) : Writes level condition := by
  obtain ⟨bare, given, rfl⟩ := Except.of_map ok
  exact writes_nested (writes_bareCondition given)

theorem writes_condition {filter : QueryFilter} {condition : Expr}
    (ok : filter.condition = .ok condition) : Writes 7 condition :=
  writes_operand ok

end QueryFilter

/-! ## Facets -/

namespace Facet

open TabularSql.Expr

variable {subject : Expr} {level : Nat}

variable {cast : Option ColumnType} {condition : Expr}

theorem writes_valueExpr (cast : Option ColumnType) (value : String) :
    Writes 3 (valueExpr cast value) := by
  cases cast with
  | none => exact writes_string value
  | some type => exact writes_cast (writes_string value) type

theorem writes_valueCondition (own : Writes 3 subject) (cast : Option ColumnType) (value : String) :
    Writes 4 (valueCondition subject cast value) := by
  unfold valueCondition
  split
  · exact writes_isNull own false
  · exact writes_comparison rfl own (writes_valueExpr cast value)

theorem writes_enumeration (own : Writes 3 subject) {values : List String}
    (given : enumeration subject values cast = some condition) :
    Writes level condition := by
  obtain ⟨bare, any, rfl⟩ := Option.map_eq_some_iff.mp given
  refine writes_nested (writes_anyOf any fun expr listed => ?_)
  obtain ⟨value, _, rfl⟩ := List.mem_map.mp listed
  exact (writes_valueCondition own cast value).mono (by decide)

theorem writes_listEnumeration (own : Writes 3 subject) {values : List String}
    (given : listEnumeration subject values = some condition) : Writes level condition := by
  obtain ⟨bare, any, rfl⟩ := Option.map_eq_some_iff.mp given
  refine writes_nested (writes_anyOf any fun expr listed => ?_)
  rcases List.mem_append.mp listed with has | isNull
  · split at has
    · cases has
    · next some =>
        cases List.mem_singleton.mp has
        refine (writes_has own (by simpa using some) (fun expr among => ?_) _ _).mono (by decide)
        obtain ⟨value, _, rfl⟩ := List.mem_map.mp among
        exact writes_string value
  · split at isNull
    · cases List.mem_singleton.mp isNull
      exact (writes_isNull own false).mono (by decide)
    · cases isNull

theorem writes_bareRange (own : Writes 3 subject) {min max : Option String}
    (given : bareRange subject cast min max = some condition) : Writes 4 condition := by
  have value := writes_valueExpr cast
  cases min with
  | none =>
    cases max with
    | none => cases given
    | some max =>
      cases given
      exact writes_comparison rfl own (value max)
  | some min =>
    cases max with
    | none =>
      cases given
      exact writes_comparison rfl own (value min)
    | some max =>
      cases given
      exact writes_between own (value min) (value max) false

theorem writes_range (own : Writes 3 subject) {min max : Option String}
    (given : range subject min max cast = some condition) :
    Writes level condition := by
  simp only [range] at given
  split at given
  · cases given
    exact writes_nested ((writes_isNull own false).mono (by decide))
  · obtain ⟨bare, bounded, rfl⟩ := Option.map_eq_some_iff.mp given
    exact writes_nested ((writes_bareRange own bounded).mono (by decide))

end Facet

namespace ResolvedFacet

open TabularSql.Expr

theorem writes_subject (facet : ResolvedFacet) : Writes 3 facet.subject := by
  unfold subject
  split
  · next path _ =>
      have arguments : ∀ expr ∈ [.quoted facet.request.column, .string path], Writes 7 expr := by
        intro expr listed
        rcases List.mem_pair.mp listed with rfl | rfl
        · exact writes_quoted _
        · exact writes_string _
      exact writes_apply (by decide +kernel) (by decide +kernel) arguments
  · exact writes_quoted _

theorem writes_operand {facet : ResolvedFacet} {condition : Expr} {level : Nat}
    (given : facet.condition = some condition) : Writes level condition := by
  have own := facet.writes_subject
  unfold ResolvedFacet.condition at given
  simp only at given
  split at given
  · split at given
    · exact Facet.writes_listEnumeration own given
    · exact Facet.writes_enumeration own given
  · exact Facet.writes_range own given

theorem writes_condition {facet : ResolvedFacet} {condition : Expr}
    (given : facet.condition = some condition) : Writes 7 condition :=
  writes_operand given

end ResolvedFacet

/-! ## Sort items -/

namespace SortKey

def parse (text : String) : Except ParseError SortKey := do
  let tokens ← Token.ofText text
  (Grammar.complete (Grammar.sortKey (Grammar.nested tokens.length))).run' tokens

theorem tokens_eq (key : SortKey) : ∃ behind, tokensOf key.lexemes = key.expr.tokens ++ behind := by
  obtain ⟨expr, direction⟩ := key
  cases direction <;> simp [SortKey.lexemes, Expr.tokens]

theorem parse_text {key : SortKey} (writes : key.expr.Writes 7) : parse key.text = .ok key := by
  obtain ⟨writable, level⟩ := writes
  obtain ⟨behind, tokens⟩ := tokens_eq key
  have spelled : key.text = String.ofList (spelling key.lexemes) := by
    rw [← key.text_spelled (Fragment.text_spelled (.expr key.expr)), String.ofList_toList]
  have some : tokensOf key.lexemes ≠ [] := by
    rw [tokens]
    exact List.append_ne_nil_of_left_ne_nil (Expr.tokens_ne_nil writable level) _
  have deep : key.expr.tokens.length ≤ (tokensOf key.lexemes).length := by
    rw [tokens, List.length_append]
    exact Nat.le_add_right _ _
  have own : ReadsExpr (nested (tokensOf key.lexemes).length) key.expr :=
    (Fragment.readBack (.expr key.expr) writable _ deep level).reads 7 level (by decide)
  have read := sortKey_ok own (Stops.nil 8)
  rw [List.append_nil] at read
  exact read_text (fun depth => sortKey (nested depth)) spelled
    (SortKey.sealed (Fragment.sealed (.expr key.expr) writable level)) some read

end SortKey

namespace SortItem

open TabularSql.Expr

theorem column_of_isMetadata {expr : Expr} (metadata : isMetadata expr = true) :
    ∃ reference, expr = .column reference := by
  unfold isMetadata at metadata
  split at metadata
  · exact ⟨_, rfl⟩
  · cases metadata

/-- A metadata column is read from its own name, and any other name is in quotes. -/
theorem writes_expr {item : SortItem}
    (plain : ∀ expr, Expr.parse item.column = .ok expr → expr.containsSetFunction = false) :
    Writes 7 item.expr := by
  unfold SortItem.expr
  split
  · next expr parsed =>
      rw [plain expr parsed, Bool.false_or]
      split
      · next metadata =>
          obtain ⟨reference, rfl⟩ := column_of_isMetadata metadata
          have built := Expr.built_of_parse parsed
          have restorable : Fragment.Everywhere Fragment.Restorable (.expr (.column reference)) :=
            Fragment.everywhere_iff.mpr ⟨trivial, nofun⟩
          exact ⟨built.1.and restorable, built.2⟩
      · exact writes_quoted _
  · exact writes_quoted _

end SortItem

/-! ## No value is read as query text -/

/-- Conditions of filters and facets are read back from their text, and so are the keys of sort items
that are not taken as expressions with a set function. Facets need not be ones that a schema offers. -/
theorem override_text_reads_back :
    (∀ (filter : QueryFilter) (condition : Expr), filter.condition = .ok condition →
      Expr.parse condition.text = .ok condition) ∧
    (∀ (facet : ResolvedFacet) (condition : Expr), facet.condition = some condition →
      Expr.parse condition.text = .ok condition) ∧
    ∀ item : SortItem,
      (∀ expr, Expr.parse item.column = .ok expr → expr.containsSetFunction = false) →
        SortKey.parse item.key.text = .ok item.key := by
  refine ⟨fun filter condition ok => ?_, fun facet condition given => ?_, fun item plain => ?_⟩
  · have writes := QueryFilter.writes_condition ok
    exact Expr.parse_text writes.1 writes.2
  · have writes := ResolvedFacet.writes_condition given
    exact Expr.parse_text writes.1 writes.2
  · exact SortKey.parse_text (SortItem.writes_expr plain)

def hostileFilter : QueryFilter := .value "a\"b" .like ["it's", "x' OR 1=1 --"] false

/-- A path inside a JSON column, and a bound that tries to end its quotes. -/
def hostileFacet : ResolvedFacet :=
  ⟨.range, .integer, ⟨"do\"c", some "$.a'b", .range (some "1') --") none⟩⟩

def hostileSort : SortItem := ⟨"x\" DESC; --", some .descending⟩

/-- Quotes and comment signs stay inside of the values that they came in. -/
theorem override_text_reads_back_hostile :
    (∃ condition, hostileFilter.condition = .ok condition ∧
      condition.text = "( \"a\"\"b\" LIKE 'it''s' OR \"a\"\"b\" LIKE 'x'' OR 1=1 --' )" ∧
      Expr.parse condition.text = .ok condition) ∧
    (∃ condition, ResolvedFacet.resolve [{ name := "do\"c", type := .json, subColumns :=
        [{ name := "size", path := "$.a'b", type := .integer, facet := .range }] }]
          hostileFacet.request = .ok hostileFacet ∧ hostileFacet.condition = some condition ∧
      condition.text =
        "( JSON_EXTRACT(\"do\"\"c\",'$.a''b') >= CAST('1'') --' AS INTEGER) )" ∧
      Expr.parse condition.text = .ok condition) ∧
    hostileSort.key.text = "\"x\"\" DESC; --\" DESC" ∧
    SortKey.parse hostileSort.key.text = .ok hostileSort.key := by
  have unread : (Expr.parse hostileSort.column).toOption = none := by decide +kernel
  refine ⟨⟨_, rfl, by decide +kernel, override_text_reads_back.1 hostileFilter _ rfl⟩,
    ⟨_, rfl, rfl, by decide +kernel, override_text_reads_back.2.1 hostileFacet _ rfl⟩,
    by decide +kernel, override_text_reads_back.2.2 hostileSort fun expr parsed => ?_⟩
  rw [parsed] at unread
  cases unread

end TabularSql
