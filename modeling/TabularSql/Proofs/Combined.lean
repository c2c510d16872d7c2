import TabularSql.Combined.Query
import TabularSql.Proofs.Lowering.Regrouping
import TabularSql.Proofs.Overrides

/-!
# Combined queries as text

A query with overrides can be compiled as the tree that it is, or written as text first. The tree that is
read from the text is not always the same: where both facets and filters narrow a query, their conjunctions
are grouped in another way. The two are compiled alike all the same.
-/

namespace TabularSql

set_option autoImplicit false

open TabularSql.Expr (Writes Regrouped)

/-! ## Selects that are read from their text -/

namespace Expr

variable {level : Nat}

theorem writes_and {left right : Expr} (first : Writes 6 left) (second : Writes 5 right) :
    Writes 6 (.and left right) :=
  writes_of ⟨first.2, Nat.lt_succ_of_le second.2⟩ trivial
    (by simpa [Expr.and, inside] using ⟨first.1, second.1⟩) (Nat.le_refl _)

/-- A chain of AND is read from left to right, as it is built. -/
theorem writes_allOf {list : List Expr} {whole : Expr} (all : Expr.allOf list = some whole)
    (each : ∀ expr ∈ list, Writes 5 expr) : Writes 6 whole := by
  cases list with
  | nil => cases all
  | cons first rest =>
    cases all
    obtain ⟨own, others⟩ := List.forall_mem_cons.mp each
    apply List.foldlRecOn rest Expr.and (own.mono (by decide))
    intro left chain right listed
    exact writes_and chain (others right listed)

theorem writes_parenthesized {expr : Expr} (own : Writes 7 expr) : Writes level expr.parenthesized := by
  unfold parenthesized
  split
  · exact ⟨own.1, Nat.zero_le _⟩
  · exact writes_nested own

theorem writes_narrowed {condition : Option Expr} {added : Expr} (own : ∀ expr ∈ condition, Writes 7 expr)
    (writes : Writes 7 added) : Writes 7 (narrowed condition added) := by
  cases condition with
  | none => exact writes
  | some condition =>
    exact (writes_and (writes_parenthesized (own condition rfl)) (writes_parenthesized writes)).mono
      (by decide)

theorem writes_natural (value : Nat) : Writes level (.natural value) :=
  writes_of (.inl (decimal_numeral value)) trivial nofun (Nat.zero_le _)

end Expr

/-- Each clause of the select can be written and read again. -/
structure Select.Writes (select : Select) : Prop where
  projection : select.projection.Grammatical
  tables : ∀ table ∈ select.source.tables, table.Grammatical ∧ table.Restorable
  items : ∀ item ∈ select.projection.itemList, item.expr.Writes 7
  conditions : ∀ expr ∈ select.source.conditions, expr.Writes 7
  definingFilter : ∀ expr ∈ select.definingFilter, expr.Writes 7
  filter : ∀ expr ∈ select.filter, expr.Writes 7
  groupBy : ∀ expr ∈ select.groupBy, expr.Writes 7
  orderBy : ∀ key ∈ select.orderBy, key.expr.Writes 7
  page : ∀ page ∈ select.page, ∀ expr ∈ page.exprs, expr.Writes 3

theorem Select.writes_iff {select : Select} :
    Fragment.Everywhere Fragment.Writable (.select select) ↔ select.Writes := by
  rw [Fragment.everywhere_select]
  constructor
  · rintro ⟨⟨⟨projection, tables, levels, rows⟩, restorable⟩, inside⟩
    have each (expr : Expr) (member : expr ∈ select.exprs) : expr.Writes 7 :=
      ⟨inside expr member, levels expr member⟩
    exact {
      projection
      tables := fun table member => ⟨tables table member, restorable table member⟩
      items := fun item member => each _ (item_mem member)
      conditions := fun expr member => each expr (condition_mem member)
      definingFilter := fun expr member => each expr (defining_mem member)
      filter := fun expr member => each expr (filter_mem member)
      groupBy := fun expr member => each expr (group_mem member)
      orderBy := fun key member => each _ (key_mem member)
      page := fun page given expr member =>
        ⟨(each expr (window_mem given member)).1, rows page given expr member⟩ }
  · intro writes
    have each (expr : Expr) (member : expr ∈ select.exprs) : expr.Writes 7 := by
      rcases mem_exprs.mp member with ⟨item, listed, rfl⟩ | listed | listed | listed | listed |
        ⟨key, listed, rfl⟩ | ⟨page, given, listed⟩
      · exact writes.items item listed
      · exact writes.conditions expr listed
      · exact writes.definingFilter expr listed
      · exact writes.filter expr listed
      · exact writes.groupBy expr listed
      · exact writes.orderBy key listed
      · exact (writes.page page given expr listed).mono (by decide)
    exact ⟨⟨⟨writes.projection, fun table member => (writes.tables table member).1,
      fun expr member => (each expr member).2, fun page given expr member =>
        (writes.page page given expr member).2⟩, fun table member => (writes.tables table member).2⟩,
      fun expr member => (each expr member).1⟩

theorem Query.writable_withParts {query : Query} {parts : List Select}
    (writable : Fragment.Everywhere Fragment.Writable (.query query))
    (each : ∀ part ∈ parts, part.Writes) (counted : parts.length = query.parts.length) :
    Fragment.Everywhere Fragment.Writable (.query (query.withParts parts)) := by
  obtain ⟨⟨⟨some, names⟩, _⟩, elements, _⟩ := Fragment.everywhere_query.mp writable
  refine Fragment.everywhere_query.mpr ⟨⟨⟨?_, ?_⟩, trivial⟩, ?_, ?_⟩
  · rwa [Query.commonTables_withParts]
  · rwa [Query.elements_withParts]
  · rwa [Query.elements_withParts]
  · rw [Query.parts_withParts counted]
    exact fun part listed => Select.writes_iff.mpr (each part listed)

/-! ## Parts with overrides -/

theorem Expr.Regrouped.narrowed {one two : Expr} (regrouped : one.Regrouped two) (own : Option Expr) :
    (Expr.narrowed own one).Regrouped (Expr.narrowed own two) := by
  cases own with
  | none => exact regrouped
  | some own => exact .and (.refl _) regrouped.parenthesized

namespace Overrides

theorem search_regrouped (facets : List ResolvedFacet) (conditions : List Expr) :
    Option.Rel Regrouped (search facets (Expr.allOf conditions))
      (Expr.allOf (facets.filterMap ResolvedFacet.condition ++ conditions)) := by
  unfold search ResolvedFacet.combine
  cases facets.filterMap ResolvedFacet.condition with
  | nil =>
    cases conditions with
    | nil => exact .none
    | cons second behind => exact .some (.refl _)
  | cons first rest =>
    cases conditions with
    | nil =>
      rw [List.append_nil]
      exact .some (.refl _)
    | cons second behind =>
      have whole : Expr.allOf (first :: rest ++ second :: behind) =
          some (behind.foldl Expr.and (.and (rest.foldl Expr.and first) second)) := by
        simp [Expr.allOf]
      rw [whole]
      exact .some (.foldl_behind _ second behind)

theorem related_narrowed (part : Select) (defining : Option Expr) {search flat : Option Expr}
    (regrouped : Option.Rel Regrouped search flat) :
    (part.narrowed defining search).Related Eq Regrouped (part.narrowed defining flat) := by
  cases regrouped with
  | none => exact Select.Related.refl (fun _ => rfl) .refl _
  | some both =>
    exact Select.Related.filtered (fun _ => rfl) .refl (part.narrowed defining none)
      (.some (both.narrowed part.filter))

variable {overrides : Overrides}

theorem onLast_of_ok {parts results : List Select} (ok : overrides.onLast parts = .ok results) :
    List.Forall₂ (fun part result => result = part ∨ part.sortedAndPaged overrides = .ok result) parts
      results := by
  induction parts using onLast.induct generalizing results with
  | case1 =>
    cases ok
    exact .nil
  | case2 last =>
    obtain ⟨result, own, ok⟩ := Except.of_bind ok
    cases ok
    exact .cons (.inr own) .nil
  | case3 part rest more ih =>
    rw [onLast] at ok
    obtain ⟨behind, others, ok⟩ := Except.of_bind ok
    cases ok
    exact .cons (.inl rfl) (ih others)
    exact more

theorem agree_sortedAndPaged {one two : Select} (related : one.Related Eq Regrouped two) :
    Except.Agree (Select.Related Eq Regrouped) (one.sortedAndPaged overrides)
      (two.sortedAndPaged overrides) := by
  unfold Select.sortedAndPaged
  rw [related.eq_page]
  apply Except.Agree.bind (.refl (fun _ => rfl) _)
  rintro page _ _ _ rfl
  exact .ok { related with
    orderBy := List.rel_append (List.forall₂_same.mpr fun _ _ => ⟨rfl, rfl⟩) related.orderBy
    page := Option.rel_refl fun _ _ => ⟨rfl, Option.rel_refl fun _ _ => rfl⟩ }

theorem agree_onLast {parts others : List Select}
    (related : List.Forall₂ (Select.Related Eq Regrouped) parts others) :
    Except.Agree (List.Forall₂ (Select.Related Eq Regrouped)) (overrides.onLast parts)
      (overrides.onLast others) := by
  induction related with
  | nil => exact .ok .nil
  | cons own rest ih =>
    cases rest with
    | nil =>
      apply Except.Agree.bind (agree_sortedAndPaged own)
      intro result other _ _ both
      exact .ok (.cons both .nil)
    | cons next behind =>
      apply Except.Agree.bind ih
      intro results others _ _ both
      exact .ok (.cons own both)

end Overrides

/-! ## The text of a combined query -/

theorem QueryFilter.writes_conditions {filters : List QueryFilter} {conditions : List Expr}
    (ok : filters.mapM QueryFilter.condition = .ok conditions) :
    ∀ condition ∈ conditions, condition.Writes 5 := fun condition member =>
  forall₂_right (Except.forall₂_of_mapM ok) (fun _ _ _ given => QueryFilter.writes_operand given)
    condition member

theorem ResolvedFacet.writes_conditions (facets : List ResolvedFacet) :
    ∀ condition ∈ facets.filterMap ResolvedFacet.condition, condition.Writes 5 := by
  intro condition member
  obtain ⟨facet, _, given⟩ := List.mem_filterMap.mp member
  exact ResolvedFacet.writes_operand given

theorem Page.writes_ofCounts (limit : UInt64) (offset : Option UInt64) :
    ∀ expr ∈ (Page.ofCounts limit offset).exprs, expr.Writes 3 := by
  intro expr member
  rcases List.mem_cons.mp member with rfl | inOffset
  · exact Expr.writes_natural _
  · obtain ⟨count, _, rfl⟩ := Option.map_eq_some_iff.mp (Option.mem_toList.mp inOffset)
    exact Expr.writes_natural _

theorem Page.writes_replaced {page replaced : Option Page} {offset limit : Option UInt64}
    (own : ∀ given ∈ page, ∀ expr ∈ given.exprs, expr.Writes 3)
    (ok : Page.replaced page offset limit = .ok replaced) :
    ∀ given ∈ replaced, ∀ expr ∈ given.exprs, expr.Writes 3 := by
  unfold Page.replaced at ok
  split at ok
  · cases ok
    exact own
  · obtain ⟨window, _, ok⟩ := Except.of_bind ok
    cases ok
    rintro _ ⟨⟩
    exact Page.writes_ofCounts _ _

/-- Whether a set function that is taken as sort item can be written and read again. -/
def SortItem.Restorable (item : SortItem) : Prop :=
  ∀ expr, Expr.parse item.column = .ok expr → expr.containsSetFunction = true →
    Fragment.Everywhere Fragment.Restorable (.expr expr)

theorem SortItem.writes_key {item : SortItem} (restorable : item.Restorable) :
    item.key.expr.Writes 7 := by
  show item.expr.Writes 7
  cases parsed : Expr.parse item.column with
  | error problem =>
    apply SortItem.writes_expr
    intro expr given
    rw [parsed] at given
    cases given
  | ok expr =>
    cases set : expr.containsSetFunction with
    | true =>
      have same : item.expr = expr := by simp [SortItem.expr, parsed, set]
      have built := Expr.built_of_parse parsed
      rw [same]
      exact ⟨built.1.and (restorable expr parsed set), built.2⟩
    | false =>
      apply SortItem.writes_expr
      intro other again
      rw [parsed] at again
      cases again
      exact set

namespace Select.Writes

variable {part : Select}

theorem narrowed (own : part.Writes) {defining search : Option Expr}
    (above : ∀ expr ∈ defining, expr.Writes 7) (below : ∀ expr ∈ search, expr.Writes 7) :
    (part.narrowed defining search).Writes where
  projection := own.projection
  tables := own.tables
  items := own.items
  conditions := own.conditions
  definingFilter := by
    cases defining with
    | none => exact own.definingFilter
    | some condition =>
      rintro _ ⟨⟩
      exact Expr.writes_narrowed own.definingFilter (above condition rfl)
  filter := by
    cases search with
    | none => exact own.filter
    | some condition =>
      rintro _ ⟨⟩
      exact Expr.writes_narrowed own.filter (below condition rfl)
  groupBy := own.groupBy
  orderBy := own.orderBy
  page := own.page

theorem sortedAndPaged (own : part.Writes) {overrides : Overrides} {result : Select}
    (sorts : ∀ item ∈ overrides.sort, item.Restorable)
    (ok : part.sortedAndPaged overrides = .ok result) : result.Writes := by
  obtain ⟨page, replaced, ok⟩ := Except.of_bind ok
  cases ok
  refine { own with orderBy := fun key member => ?_, page := Page.writes_replaced own.page replaced }
  rcases List.mem_append.mp member with added | listed
  · obtain ⟨item, given, rfl⟩ := List.mem_map.mp added
    exact SortItem.writes_key (sorts item given)
  · exact own.orderBy key listed

end Select.Writes

theorem Overrides.writes_onLast {overrides : Overrides} {parts results : List Select}
    (ok : overrides.onLast parts = .ok results) (each : ∀ part ∈ parts, part.Writes)
    (sorts : ∀ item ∈ overrides.sort, item.Restorable) : ∀ result ∈ results, result.Writes := by
  intro result member
  refine forall₂_right (onLast_of_ok ok) (fun part listed result placed => ?_) result member
  rcases placed with rfl | last
  · exact each _ listed
  · exact (each part listed).sortedAndPaged sorts last

theorem Overrides.writable_of_combine {overrides : Overrides} {query combined : Query}
    (ok : overrides.combine query = .ok combined)
    (writable : Fragment.Everywhere Fragment.Writable (.query query))
    (sorts : ∀ item ∈ overrides.sort, item.Restorable) :
    ∃ flat, combined.Related Eq Regrouped flat ∧ Fragment.Everywhere Fragment.Writable (.query flat) := by
  obtain ⟨facets, _, ok⟩ := Except.of_bind ok
  obtain ⟨defining, above, ok⟩ := Except.of_bind ok
  obtain ⟨filtered, below, ok⟩ := Except.of_bind ok
  obtain ⟨parts, placed, ok⟩ := Except.of_bind ok
  cases ok
  obtain ⟨outer, aboveEach, rfl⟩ := Except.of_map above
  obtain ⟨conditions, belowEach, rfl⟩ := Except.of_map below
  have narrowed : List.Forall₂ (Select.Related Eq Regrouped)
      (query.parts.map (Select.narrowed (Expr.allOf outer) (search facets (Expr.allOf conditions))))
      (query.parts.map (Select.narrowed (Expr.allOf outer)
        (Expr.allOf (facets.filterMap ResolvedFacet.condition ++ conditions)))) := by
    rw [List.forall₂_map_left_iff, List.forall₂_map_right_iff]
    exact List.forall₂_same.mpr fun part _ =>
      related_narrowed part _ (search_regrouped facets conditions)
  -- The parts with one chain of conditions are those that the text is read as.
  obtain ⟨others, flatPlaced, related⟩ := (agree_onLast narrowed).of_ok placed
  have shape := onLast_of_ok flatPlaced
  have counted : others.length = query.parts.length := by simpa using shape.length_eq.symm
  have inside := (Fragment.everywhere_query.mp writable).2.2
  have each : ∀ part ∈ query.parts.map (Select.narrowed (Expr.allOf outer)
      (Expr.allOf (facets.filterMap ResolvedFacet.condition ++ conditions))), part.Writes := by
    intro part member
    obtain ⟨own, listed, rfl⟩ := List.mem_map.mp member
    apply (Select.writes_iff.mp (inside own listed)).narrowed
    · intro expr all
      exact (Expr.writes_allOf all (QueryFilter.writes_conditions aboveEach)).mono (by decide)
    · intro expr all
      apply (Expr.writes_allOf all _).mono (by decide)
      intro condition added
      rcases List.mem_append.mp added with faceted | filtered
      · exact ResolvedFacet.writes_conditions facets condition faceted
      · exact QueryFilter.writes_conditions belowEach condition filtered
  have writes := writes_onLast flatPlaced each sorts
  have whole : (query.withParts parts).Related Eq Regrouped (query.withParts others) := by
    have own := Query.Related.refl (fun _ => rfl) Regrouped.refl query
    refine .mk ?_ (own.parts.withParts related ?_)
    · rw [Query.commonTables_withParts, Query.commonTables_withParts]
      exact own.clause
    · rw [related.length_eq, counted]
  exact ⟨query.withParts others, whole, Query.writable_withParts writable writes counted⟩

theorem Query.parse_text_of_related {query flat : Query} (related : query.Related Eq Regrouped flat)
    (writable : Fragment.Everywhere Fragment.Writable (.query flat)) : Query.parse query.text = .ok flat := by
  rw [related.text Regrouped.text]
  exact Query.parse_text writable

theorem Overrides.parse_text_of_combine {overrides : Overrides} {query combined : Query}
    (ok : overrides.combine query = .ok combined)
    (writable : Fragment.Everywhere Fragment.Writable (.query query))
    (sorts : ∀ item ∈ overrides.sort, item.Restorable) :
    ∃ flat, Query.parse combined.text = .ok flat ∧ combined.Related Eq Regrouped flat := by
  obtain ⟨flat, related, writes⟩ := writable_of_combine ok writable sorts
  exact ⟨flat, Query.parse_text_of_related related writes, related⟩

/-! ## Two ways to compile a combined query -/

/-- A combined query is compiled to the same statement, or fails with the same error, whether it is
compiled as it is or read from its text first. -/
theorem Compiler.combined_text_compiles_alike (compiler : Compiler) (overrides : Overrides)
    (text : String) (combined : Query) (ok : overrides.combineText text = .ok combined)
    (base : ∀ query, Query.parse text = .ok query →
      Fragment.Everywhere Fragment.Restorable (.query query))
    (sorts : ∀ item ∈ overrides.sort, item.Restorable) :
    Except.Agree (fun one two : Statement => one.text = two.text ∧ one.parameters = two.parameters ∧
        one.compiled = { two.compiled with query := one.compiled.query })
      (compiler.compileText combined.text) (compiler.compileQuery combined) := by
  obtain ⟨query, parsed, ok⟩ := Except.of_bind ok
  have parsed := Except.of_mapError parsed
  have writable := (Query.grammatical_of_parse parsed).and (base query parsed)
  obtain ⟨flat, read, related⟩ := Overrides.parse_text_of_combine ok writable sorts
  have compiles : compiler.compileText combined.text = compiler.compileQuery flat := by
    rw [Compiler.compileText, read]
    rfl
  rw [compiles]
  apply (compiler.agree_regrouped related).symm.mono
  intro one two statements
  have values : two.parameters = one.parameters := by
    have same := statements.values
    rw [List.forall₂_eq_eq_eq] at same
    exact congrArg Parameters.mk same
  exact ⟨(statements.compiled.query.text Regrouped.text).symm, values.symm, statements.compiled.rest⟩

def narrowingOverrides : Overrides where
  columns := [{ name := "name", type := .string, facet := some .enumeration }]
  facets := [⟨"name", none, .values ["a", "b"]⟩]
  filters := [.value "name" .like ["x%"] false, .list "tags" .has ["p"] false]
  sort := [⟨"max(weight)", some .descending⟩]
  limit := some 5

def narrowedText : String := "select max(weight) from syn2 where name<>'c'"

def unnarrowedQuery : Query :=
  .single { Select.simple (.items [⟨.call "MAX" false [.named "weight"], none⟩]) (.named "syn2") with
    filter := some (.binary .notEqual (.named "name") (.string "c")) }

/-- The condition of the facet stands beside the conjunction of the filters. -/
def narrowingCondition : Expr :=
  let name : Expr := .quoted "name"
  .and (.nested (.or (.equals name (.string "a")) (.equals name (.string "b"))))
    (.and (.nested (.like name (.string "x%") none false))
      (.nested (.has (.quoted "tags") [.string "p"] false false)))

def narrowedQuery : Query :=
  .single { unnarrowedQuery.first with
    filter := some (Expr.narrowed unnarrowedQuery.first.filter narrowingCondition)
    orderBy := [⟨.call "MAX" false [.named "weight"], some .descending⟩]
    page := some ⟨.literal (.number "5"), none⟩ }

/-- The text of a conjunction that stands on the right is read with another grouping. -/
theorem Compiler.combined_text_compiles_alike_narrowed :
    narrowingOverrides.combineText narrowedText = .ok narrowedQuery ∧
      Query.parse narrowedQuery.text ≠ .ok narrowedQuery ∧
      ∃ one two, weighedCompiler.compileText narrowedQuery.text = .ok one ∧
        weighedCompiler.compileQuery narrowedQuery = .ok two ∧ one.text = two.text ∧
        one.parameters = two.parameters ∧ two.parameters.values =
          [.string "c", .string "a", .string "b", .string "x%", .string "p", .integer 5] := by
  have parsed : Query.parse narrowedText = .ok unnarrowedQuery := by decide +kernel
  have combined : narrowingOverrides.combineText narrowedText = .ok narrowedQuery := by
    rw [Overrides.combineText, parsed]
    decide +kernel
  have regrouped : Query.parse narrowedQuery.text ≠ .ok narrowedQuery := by
    intro same
    have within : Fragment.Within (.expr narrowingCondition) (.query narrowedQuery) :=
      .deeper (.head _) (.deeper (List.mem_map_of_mem (Select.filter_mem rfl))
        (.deeper (.tail _ (.head _)) (.deeper (.head _) (.self _))))
    have grouped := (Query.grammatical_of_parse same _ within).2
    exact absurd grouped (by decide)
  have base : Fragment.Everywhere Fragment.Restorable (.query unnarrowedQuery) := by decide +kernel
  have sorts : ∀ item ∈ narrowingOverrides.sort, ∀ expr ∈ (Expr.parse item.column).toOption,
      Fragment.Everywhere Fragment.Restorable (.expr expr) := by
    decide +kernel
  obtain ⟨two, compiled, bound⟩ : ∃ two, weighedCompiler.compileQuery narrowedQuery = .ok two ∧
      two.parameters.values =
        [.string "c", .string "a", .string "b", .string "x%", .string "p", .integer 5] :=
    compiles_within 1 (by decide +kernel)
  have alike := combined_text_compiles_alike weighedCompiler narrowingOverrides narrowedText narrowedQuery
    combined (fun query given => Except.ok.inj (parsed.symm.trans given) ▸ base)
    fun item listed expr given _ => sorts item listed expr (by simp [given, Except.toOption])
  obtain ⟨one, read, text, parameters, _⟩ := alike.symm.of_ok compiled
  exact ⟨combined, regrouped, one, two, read, compiled, text, parameters, bound⟩

end TabularSql
