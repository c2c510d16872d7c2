import TabularSql.Proofs.Combined

/-!
# Counting queries

The query that counts the rows of a combined query has one item, a call of COUNT, and none of the clauses
that arrange rows. What it counts are the rows, the keys of the groups, or the distinct items. Keys and items
are taken into the call as they are, set functions included: a query that drops equal rows of one aggregated
row is counted by a set function inside a set function.
-/

namespace TabularSql

set_option autoImplicit false

open TabularSql.Expr (Writes Regrouped)

/-! ## What is counted -/

/-- A set function occurs in the expression at some depth, subqueries included. -/
def Expr.HasSetFunction (whole : Expr) : Prop :=
  Fragment.Holds (fun part => part.isSetFunction = true) (.expr whole)

theorem Expr.not_hasSetFunction_leaf {whole : Expr} (other : whole.isSetFunction = false)
    (leaf : whole.inside = []) : ¬ whole.HasSetFunction :=
  Fragment.not_holds_leaf (by simp [other]) leaf

def SelectItem.isNamed (written : String) (item : SelectItem) : Bool :=
  item.alias?.any (·.name == written)

/-- The part without the clauses that arrange its rows, and with one item. -/
def Select.counting (part : Select) (count : Expr) : Select :=
  { part with
    distinct := false, projection := .items [⟨count, none⟩], groupBy := [], orderBy := [], page := none }

namespace Select

variable {part : Select} {items : List SelectItem} {reference : ColumnRef}

theorem groupKey_named {item : SelectItem}
    (first : items.find? (SelectItem.isNamed reference.unquoted) = some item) :
    groupKey items (.column reference) = item.expr := by
  unfold SelectItem.isNamed at first
  simp only [groupKey, first]

theorem groupKey_unnamed (absent : items.find? (SelectItem.isNamed reference.unquoted) = none) :
    groupKey items (.column reference) = .column reference := by
  unfold SelectItem.isNamed at absent
  simp only [groupKey, absent]

theorem groupKey_other {key : Expr} (other : ∀ reference, key ≠ .column reference) :
    groupKey items key = key := by
  cases key with
  | column reference => exact absurd rfl (other reference)
  | _ => rfl

theorem groupKey_origin (items : List SelectItem) (key : Expr) :
    groupKey items key = key ∨ ∃ item ∈ items, groupKey items key = item.expr := by
  cases key with
  | column reference =>
    cases first : items.find? (SelectItem.isNamed reference.unquoted) with
    | none => exact .inl (groupKey_unnamed first)
    | some item => exact .inr ⟨item, List.mem_of_find?_eq_some first, groupKey_named first⟩
  | _ => exact .inl rfl

/-- A key brings in the set functions of the item that it names, or its own. -/
theorem hasSetFunction_groupKey {key : Expr} : (groupKey items key).HasSetFunction ↔
    key.HasSetFunction ∨ ∃ reference item, key = .column reference ∧
      items.find? (SelectItem.isNamed reference.unquoted) = some item ∧ item.expr.HasSetFunction := by
  by_cases column : ∃ reference, key = .column reference
  · obtain ⟨reference, rfl⟩ := column
    have leaf : ¬ (Expr.column reference).HasSetFunction := Expr.not_hasSetFunction_leaf rfl rfl
    rw [or_iff_right leaf]
    cases first : items.find? (SelectItem.isNamed reference.unquoted) with
    | none =>
      rw [groupKey_unnamed first, iff_false_left leaf]
      rintro ⟨_, item, ⟨⟩, named, _⟩
      rw [first] at named
      cases named
    | some item =>
      rw [groupKey_named first]
      constructor
      · exact fun holds => ⟨reference, item, rfl, first, holds⟩
      · rintro ⟨_, other, ⟨⟩, named, holds⟩
        rw [first] at named
        cases named
        exact holds
  · have other : ∀ reference, key ≠ .column reference := fun reference same => column ⟨reference, same⟩
    rw [groupKey_other other]
    refine (or_iff_left ?_).symm
    rintro ⟨reference, _, same, _⟩
    exact other reference same

/-- The three ways to count: all rows, the groups, or the rows that differ. -/
theorem countExpr?_cases {count : Expr} (counts : part.countExpr? = some count) :
    part.isAggregate = false ∧ count = .call "COUNT" false [.wildcard] ∨
      part.groupBy ≠ [] ∧
        count = .call "COUNT" true (part.groupBy.map (groupKey part.projection.itemList)) ∨
      part.groupBy = [] ∧ part.distinct = true ∧ part.projection.itemList ≠ [] ∧
        count = .call "COUNT" true (part.projection.itemList.map SelectItem.expr) := by
  unfold countExpr? at counts
  split at counts
  · next single =>
      cases counts
      exact .inl ⟨by simpa using single, rfl⟩
  · split at counts
    · next grouped =>
        cases counts
        exact .inr (.inl ⟨by simpa using grouped, rfl⟩)
    · next ungrouped =>
        split at counts <;> cases counts
        next distinct =>
          simp only [Bool.and_eq_true, Bool.not_eq_true', List.isEmpty_eq_false_iff] at distinct
          exact .inr (.inr ⟨by simpa using ungrouped, distinct.1, distinct.2, rfl⟩)

theorem countExpr?_eq_none : part.countExpr? = none ↔ part.groupBy = [] ∧
    if part.distinct then part.projection.itemList = [] else part.projection.containsSetFunction = true := by
  unfold countExpr? isAggregate
  cases part.distinct <;> cases part.groupBy <;> cases part.projection.containsSetFunction <;>
    cases part.projection.itemList <;> simp

/-- Set functions inside the call are those of the keys, or of the items that they stand for, or of the
items of a query that drops equal rows. -/
theorem countExpr?_hasSetFunction {count : Expr} (counts : part.countExpr? = some count) :
    ∃ distinct arguments, count = .call "COUNT" distinct arguments ∧
      ((∃ argument ∈ arguments, argument.HasSetFunction) ↔
        if part.groupBy = [] then
          part.distinct = true ∧ ∃ item ∈ part.projection.itemList, item.expr.HasSetFunction
        else ∃ key ∈ part.groupBy, key.HasSetFunction ∨ ∃ reference item, key = .column reference ∧
          part.projection.itemList.find? (SelectItem.isNamed reference.unquoted) = some item ∧
          item.expr.HasSetFunction) := by
  rcases countExpr?_cases counts with ⟨single, rfl⟩ | ⟨grouped, rfl⟩ | ⟨ungrouped, distinct, _, rfl⟩
  · refine ⟨_, _, rfl, ?_⟩
    have wildcard : ¬ Expr.wildcard.HasSetFunction := Expr.not_hasSetFunction_leaf rfl rfl
    simp only [isAggregate, Bool.or_eq_false_iff, Bool.not_eq_false', List.isEmpty_iff] at single
    simp [single.1, wildcard]
  · refine ⟨_, _, rfl, ?_⟩
    simp only [grouped, if_false, List.mem_map, exists_exists_and_eq_and, hasSetFunction_groupKey]
  · refine ⟨_, _, rfl, ?_⟩
    simp [ungrouped, distinct]

end Select

namespace Query

variable {query flat count : Query}

theorem count?_eq_some : query.count? = some count ↔ query.unions = [] ∧
    ∃ expr, query.first.countExpr? = some expr ∧ count = { query with first := query.first.counting expr } := by
  unfold count?
  by_cases union : query.isUnion = true
  · have several : query.unions ≠ [] := by simpa [isUnion] using union
    simp [union, several]
  · have single : query.unions = [] := by simpa [isUnion] using union
    simp only [union, if_false, single, true_and, Option.map_eq_some_iff, Bool.false_eq_true]
    exact exists_congr fun expr => and_congr_right fun _ => eq_comm

theorem count?_eq_none : query.count? = none ↔ query.isUnion = true ∨ query.first.countExpr? = none := by
  unfold count?
  by_cases union : query.isUnion = true <;> simp [union]

theorem Related.counting (related : query.Related Eq Regrouped flat) (counts : query.count? = some count) :
    ∃ counted, flat.count? = some counted ∧ count.Related Eq Regrouped counted := by
  obtain ⟨single, expr, counted, rfl⟩ := count?_eq_some.mp counts
  have unions : flat.unions = [] := by
    have pairs := related.parts.unions
    rw [single] at pairs
    exact List.forall₂_nil_left_iff.mp pairs
  have same : flat.first.countExpr? = some expr := by
    rw [related.parts.first.eq_outside]
    exact counted
  refine ⟨_, count?_eq_some.mpr ⟨unions, expr, same, rfl⟩, .mk related.clause ⟨?_, related.parts.unions⟩⟩
  exact { related.parts.first with
    distinct := rfl
    projection := .items (.cons ⟨rfl, rfl⟩ .nil)
    groupBy := .nil
    orderBy := .nil
    page := .none }

end Query

/-! ## The text of a counting query -/

namespace Expr

theorem count_called : Token.IsPlainWord "COUNT" ∧ Grammar.opening "COUNT" true = .call "COUNT" :=
  ⟨Token.isPlainWord_iff.mpr (Lexeme.word_of_isLetters (by decide)), rfl⟩

theorem writes_countAll : Writes 7 (.call "COUNT" false [.wildcard]) := by
  refine writes_of ⟨count_called.1, count_called.2, .inl ⟨rfl, rfl⟩⟩ trivial ?_ (Nat.zero_le _)
  rintro _ (_ | ⟨_, ⟨⟩⟩)
  exact Fragment.everywhere_iff.mpr ⟨⟨trivial, trivial⟩, by simp [Fragment.inside]⟩

theorem writes_countDistinct {arguments : List Expr} (some : arguments ≠ [])
    (each : ∀ argument ∈ arguments, Writes 7 argument) : Writes 7 (.call "COUNT" true arguments) := by
  refine writes_of ⟨count_called.1, count_called.2,
    .inr ⟨fun expr listed => (each expr listed).2, fun _ => some⟩⟩ trivial ?_ (Nat.zero_le _)
  exact List.forall_mem_map.mpr fun expr listed => (each expr listed).1

end Expr

theorem Select.Writes.counting {part : Select} (own : part.Writes) {count : Expr}
    (counts : part.countExpr? = some count) : (part.counting count).Writes := by
  have item : count.Writes 7 := by
    rcases countExpr?_cases counts with ⟨_, rfl⟩ | ⟨grouped, rfl⟩ | ⟨_, _, listed, rfl⟩
    · exact Expr.writes_countAll
    · refine Expr.writes_countDistinct (by simpa using grouped) (List.forall_mem_map.mpr fun key member => ?_)
      rcases groupKey_origin part.projection.itemList key with same | ⟨item, among, same⟩
      · rw [same]
        exact own.groupBy key member
      · rw [same]
        exact own.items item among
    · exact Expr.writes_countDistinct (by simpa using listed) (List.forall_mem_map.mpr own.items)
  exact {
    projection := ⟨by simp, by simp⟩
    tables := own.tables
    items := by
      rintro _ (_ | ⟨_, ⟨⟩⟩)
      exact item
    conditions := own.conditions
    definingFilter := own.definingFilter
    filter := own.filter
    groupBy := by simp [Select.counting]
    orderBy := by simp [Select.counting]
    page := by simp [Select.counting] }

theorem Query.writable_count {query count : Query}
    (writable : Fragment.Everywhere Fragment.Writable (.query query)) (counts : query.count? = some count) :
    Fragment.Everywhere Fragment.Writable (.query count) := by
  obtain ⟨single, expr, counted, rfl⟩ := count?_eq_some.mp counts
  have own := Select.writes_iff.mp ((Fragment.everywhere_query.mp writable).2.2 query.first (.head _))
  have same : { query with first := query.first.counting expr } =
      query.withParts [query.first.counting expr] := by
    simp [Query.withParts, single]
  rw [same]
  apply Query.writable_withParts writable
  · rintro _ (_ | ⟨_, ⟨⟩⟩)
    exact own.counting counted
  · simp [Query.parts, single]

/-- Parts that differ in nothing but their sort keys. -/
def Select.AlikeUnsorted (one two : Select) : Prop :=
  { one with orderBy := [] } = { two with orderBy := [] }

theorem Query.count?_withParts_unsorted {base : Query} {parts others : List Select}
    (pairs : List.Forall₂ Select.AlikeUnsorted parts others) :
    (base.withParts parts).count? = (base.withParts others).count? := by
  obtain ⟨clause, first, unions⟩ := base
  cases pairs with
  | nil => rfl
  | @cons one two rest behind same pairs =>
    have equal : { one with orderBy := [] } = { two with orderBy := [] } := same
    have single : (Query.mk clause one []).count? = (Query.mk clause two []).count? := by
      have counts := congrArg (fun part => (Query.mk clause part []).count?) equal
      exact counts
    cases unions with
    | nil => exact single
    | cons branch branches =>
      cases pairs with
      | nil => exact single
      | cons => rfl

namespace Overrides

variable {overrides : Overrides} {base query count : Query}

theorem agree_onLast_unsorted (overrides : Overrides) (parts : List Select) :
    Except.Agree (List.Forall₂ Select.AlikeUnsorted) (overrides.onLast parts)
      ({ overrides with sort := [] : Overrides }.onLast parts) := by
  induction parts using onLast.induct with
  | case1 => exact .ok .nil
  | case2 last =>
    have placed : Except.Agree Select.AlikeUnsorted (last.sortedAndPaged overrides)
        (last.sortedAndPaged { overrides with sort := [] }) := by
      apply Except.Agree.bind (.refl (fun _ => rfl) _)
      rintro page _ _ _ rfl
      exact .ok rfl
    apply placed.bind
    intro one two _ _ same
    exact .ok (.cons same .nil)
  | case3 part rest more ih =>
    rw [onLast, onLast]
    · apply ih.bind
      intro others unsorted _ _ pairs
      exact .ok (.cons rfl pairs)
    · exact more
    · exact more

theorem agree_unsorted (overrides : Overrides) (base : Query) :
    Except.Agree (fun one two : Query => one.count? = two.count?) (overrides.combine base)
      ({ overrides with sort := [] : Overrides }.combine base) := by
  apply Except.Agree.bind (.refl (fun _ => rfl) _)
  rintro facets _ _ _ rfl
  apply Except.Agree.bind (.refl (fun _ => rfl) _)
  rintro defining _ _ _ rfl
  apply Except.Agree.bind (.refl (fun _ => rfl) _)
  rintro filtered _ _ _ rfl
  apply Except.Agree.bind (agree_onLast_unsorted overrides _)
  intro parts unsorted _ _ pairs
  exact .ok (Query.count?_withParts_unsorted pairs)

/-- The text that counts the rows of a combined query is read as the counting query, with its conjunctions
regrouped. -/
theorem parse_count_text (ok : overrides.combine base = .ok query)
    (writable : Fragment.Everywhere Fragment.Writable (.query base)) (counts : query.count? = some count) :
    ∃ flat, Query.parse count.text = .ok flat ∧ count.Related Eq Regrouped flat := by
  obtain ⟨unsorted, ok, same⟩ := (agree_unsorted overrides base).of_ok ok
  rw [same] at counts
  obtain ⟨flat, related, writes⟩ := writable_of_combine ok writable (by simp)
  obtain ⟨counted, own, both⟩ := related.counting counts
  exact ⟨counted, Query.parse_text_of_related both (Query.writable_count writes own), both⟩

end Overrides

/-! ## One call of COUNT -/

/-- The query that counts the rows of a combined query. There is none for a union, for a star that drops equal
rows, and for items with a set function that neither are grouped nor drop equal rows. Otherwise it is the
combined query with one item, a call of COUNT, without DISTINCT, GROUP BY, ORDER BY and LIMIT, and that is what
its text is read as. A set function stands inside the call exactly if one occurs in a key, in the first item
that has an alias written like a key, or, where there are no keys, in an item of a query that drops equal
rows. -/
theorem Query.count_is_single_call (overrides : Overrides) (text : String) (query : Query)
    (ok : overrides.combineText text = .ok query)
    (base : ∀ base, Query.parse text = .ok base → Fragment.Everywhere Fragment.Restorable (.query base)) :
    (query.count? = none ↔ query.isUnion = true ∨ query.first.groupBy = [] ∧
      if query.first.distinct then query.first.projection.itemList = []
      else query.first.projection.containsSetFunction = true) ∧
    ∀ count, query.count? = some count →
      count.commonTables = query.commonTables ∧ count.unions = [] ∧
      (∃ distinct arguments, count.first = { query.first with
          distinct := false
          projection := .items [⟨.call "COUNT" distinct arguments, none⟩]
          groupBy := []
          orderBy := []
          page := none } ∧
        ((∃ argument ∈ arguments, argument.HasSetFunction) ↔
          if query.first.groupBy = [] then
            query.first.distinct = true ∧ ∃ item ∈ query.first.projection.itemList, item.expr.HasSetFunction
          else ∃ key ∈ query.first.groupBy, key.HasSetFunction ∨ ∃ reference item, key = .column reference ∧
            query.first.projection.itemList.find? (SelectItem.isNamed reference.unquoted) = some item ∧
            item.expr.HasSetFunction)) ∧
      ∃ flat, Query.parse count.text = .ok flat ∧ count.Related Eq Regrouped flat := by
  constructor
  · rw [count?_eq_none, Select.countExpr?_eq_none]
  · intro count counts
    obtain ⟨read, parsed, ok⟩ := Except.of_bind ok
    have parsed := Except.of_mapError parsed
    have writable := (Query.grammatical_of_parse parsed).and (base read parsed)
    have rereads := Overrides.parse_count_text ok writable counts
    obtain ⟨single, expr, counted, rfl⟩ := count?_eq_some.mp counts
    obtain ⟨distinct, arguments, rfl, sets⟩ := Select.countExpr?_hasSetFunction counted
    exact ⟨rfl, single, ⟨distinct, arguments, rfl, sets⟩, rereads⟩

def groupedText : String :=
  "select name, weight*2 as w, max(weight) from syn2 where name<>'c' group by name, w"

def groupedQuery : Query :=
  .single { Select.simple (.items [⟨.named "name", none⟩,
      ⟨.binary .multiply (.named "weight") (.literal (.number "2")), some ⟨"w", none⟩⟩,
      ⟨.call "MAX" false [.named "weight"], none⟩]) (.named "syn2") with
    filter := some (.binary .notEqual (.named "name") (.string "c"))
    groupBy := [.named "name", .named "w"] }

theorem groupedQuery_parsed : Query.parse groupedText = .ok groupedQuery := by decide +kernel

theorem groupedText_restorable (base : Query) (given : Query.parse groupedText = .ok base) :
    Fragment.Everywhere Fragment.Restorable (.query base) := by
  obtain rfl := Except.ok.inj (groupedQuery_parsed.symm.trans given)
  decide +kernel

def groupedNarrowedQuery : Query :=
  .single { groupedQuery.first with
    filter := some (Expr.narrowed groupedQuery.first.filter narrowingCondition)
    orderBy := [⟨.call "MAX" false [.named "weight"], some .descending⟩]
    page := some ⟨.literal (.number "5"), none⟩ }

theorem groupedNarrowedQuery_combined :
    narrowingOverrides.combineText groupedText = .ok groupedNarrowedQuery := by
  rw [Overrides.combineText, groupedQuery_parsed]
  decide +kernel

/-- The groups are counted by the keys, the second of them through the item that it names, and neither brings in
a set function. -/
theorem Query.count_is_single_call_grouped :
    narrowingOverrides.combineText groupedText = .ok groupedNarrowedQuery ∧
    (∀ base, Query.parse groupedText = .ok base →
      Fragment.Everywhere Fragment.Restorable (.query base)) ∧
    ∃ count, groupedNarrowedQuery.count? = some count ∧
      count.text = "SELECT COUNT(DISTINCT name, weight*2) FROM syn2 WHERE ( name <> 'c' ) AND " ++
        "( ( \"name\" = 'a' OR \"name\" = 'b' ) AND ( \"name\" LIKE 'x%' ) AND ( \"tags\" HAS ( 'p' ) ) )" ∧
      count.unions = [] ∧ count.commonTables = none ∧ count.first.groupBy = [] ∧
      ∃ flat, Query.parse count.text = .ok flat ∧ count.Related Eq Regrouped flat := by
  obtain ⟨_, counts⟩ := count_is_single_call narrowingOverrides groupedText groupedNarrowedQuery
    groupedNarrowedQuery_combined groupedText_restorable
  obtain ⟨clause, single, ⟨_, _, first, _⟩, reread⟩ := counts _ rfl
  exact ⟨groupedNarrowedQuery_combined, groupedText_restorable, _, rfl, by decide +kernel, single, clause,
    by rw [first], reread⟩

/-- `SELECT DISTINCT COUNT(*) FROM syn2` -/
def distinctCountQuery : Query :=
  .single { Select.simple (.items [⟨.call "COUNT" false [.wildcard], none⟩]) (.named "syn2") with
    distinct := true }

/-- A set function whose only row cannot be repeated is counted by a set function inside a set function. -/
theorem Query.count_nests_set_function :
    ({} : Overrides).combineText "select distinct count(*) from syn2" = .ok distinctCountQuery ∧
      distinctCountQuery.isUnion = false ∧ distinctCountQuery.first.groupBy = [] ∧
      distinctCountQuery.first.projection.containsSetFunction = true ∧
      distinctCountQuery.count?.map Query.text = some "SELECT COUNT(DISTINCT COUNT(*)) FROM syn2" := by
  have parsed : Query.parse "select distinct count(*) from syn2" = .ok distinctCountQuery := by
    decide +kernel
  refine ⟨?_, rfl, rfl, by decide, by decide +kernel⟩
  rw [Overrides.combineText, parsed]
  rfl

end TabularSql
