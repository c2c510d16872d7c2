import TabularSql.Proofs.Lowering.Comparisons
import TabularSql.Proofs.Lowering.Literals
import TabularSql.Proofs.Lowering.Stars
import TabularSql.Proofs.Paging
import TabularSql.Proofs.Weighing

/-!
# Pages within a budget

With a budget of bytes, a statement ends in a window of bound row counts. The window of the query, the page
that the caller asks for and the rows that fit into the budget each bound the limit from above, and the limit
is the least of them. Row counts and sizes are words that stop at the largest one, and what is bound stops at
the largest signed number; here they are compared with the numbers that they stand for.
-/

namespace TabularSql

set_option autoImplicit false

/-! ## Sizes without a largest word -/

namespace Size

/-- The bytes of a value of a type that is no list, for a number of characters. -/
def exactScalar (characters : Nat) : ColumnType → Nat
  | .string => bytesPerChar.toNat * characters
  | .integer | .date => ofInteger.toNat
  | .double => ofDouble.toNat
  | .boolean => ofBoolean.toNat
  | .json | .stringList | .integerList | .doubleList | .dateList | .booleanList => ofJson.toNat

/-- The bytes of a value of a column, be they more than a word can say. -/
def exactColumn (column : ColumnModel) : Nat :=
  if column.type.isList then
    exactScalar (characters column).toNat column.type.element * (elements column).toNat
  else exactScalar (characters column).toNat column.type

theorem toNat_ofScalar (size : UInt64) (type : ColumnType) :
    (ofScalar (some size) type).toNat = min (exactScalar size.toNat type) Number.largest.toNat := by
  cases type with
  | string => exact Number.toNat_mulClamped _ _
  | _ => rfl

theorem min_mul_min (factor count most : Nat) :
    min (min factor most * count) most = min (factor * count) most := by
  rcases Nat.eq_zero_or_pos count with rfl | some
  · simp
  · have whole := Nat.le_mul_of_pos_right factor some
    have cut := Nat.le_mul_of_pos_right most some
    rcases Nat.le_total factor most with below | above
    · rw [Nat.min_eq_left below]
    · rw [Nat.min_eq_right above]
      omega

theorem toNat_ofColumn (column : ColumnModel) :
    (ofColumn column).toNat = min (exactColumn column) Number.largest.toNat := by
  rw [ofColumn_eq, exactColumn]
  split
  · rw [Number.toNat_mulClamped, toNat_ofScalar, min_mul_min]
  · exact toNat_ofScalar _ _

/-- The size of a row is the sum over its columns, cut off once at the largest word. -/
theorem toNat_ofRow (columns : List ColumnModel) :
    (ofRow columns).toNat = min (total exactColumn columns) Number.largest.toNat := by
  suffices general : ∀ start : UInt64,
      (columns.foldl (fun sum column => Number.addClamped sum (ofColumn column)) start).toNat =
        min (start.toNat + total exactColumn columns) Number.largest.toNat by
    have own := general 0
    rwa [UInt64.toNat_zero, Nat.zero_add] at own
  induction columns with
  | nil =>
    intro start
    have bound := Number.toNat_le_largest start
    rw [List.foldl_nil, total_nil]
    omega
  | cons column rest ih =>
    intro start
    rw [List.foldl_cons, ih, Number.toNat_addClamped, toNat_ofColumn, total_cons]
    omega

/-- The rows of a page take no more bytes than the budget, unless the page is a single row. -/
theorem mul_le_of_le_rowsPerPage {budget row : UInt64} {rows : Nat}
    (fits : rows ≤ (rowsPerPage budget row).toNat) :
    rows * row.toNat ≤ max budget.toNat row.toNat := by
  rw [rowsPerPage] at fits
  split at fits
  · next empty => simp [empty]
  · rw [UInt64.toNat_max, UInt64.toNat_div] at fits
    have either : rows ≤ budget.toNat / row.toNat ∨ rows ≤ (1 : UInt64).toNat := by omega
    rcases either with divided | single
    · have product := Nat.mul_le_mul_right row.toNat divided
      have quotient := Nat.div_mul_le_self budget.toNat row.toNat
      omega
    · have product := Nat.mul_le_mul_right row.toNat single
      rw [UInt64.toNat_one, Nat.one_mul] at product
      omega

end Size

/-! ## Row counts of a page -/

namespace Page

variable {page requested paged : Option Page} {ownLimit ownOffset offset limit : Option UInt64}

theorem Counted.window {page : Page} (counted : page.Counted) :
    ∃ limit offset, Page.window (some page) = .ok (some limit, offset) := by
  obtain ⟨⟨limit, reads⟩, skips⟩ := counted
  obtain ⟨own, skipped⟩ := page
  cases skipped with
  | none =>
    refine ⟨limit, none, ?_⟩
    simp only [Page.window, reads]
    rfl
  | some expr =>
    obtain ⟨count, found⟩ := skips expr rfl
    refine ⟨limit, some count, ?_⟩
    have single : (some expr).mapM rowCount = .ok (some count) := by
      show some <$> rowCount expr = _
      rw [found]
      rfl
    simp only [Page.window, reads, single]
    rfl

theorem window_of_within (counted : window page = .ok (ownLimit, ownOffset))
    (ok : within page offset limit = .ok requested) :
    offset = none ∧ limit = none ∧ requested = page ∨
      (offset.isSome ∨ limit.isSome) ∧ window requested = .ok
        (some (min (limit.getD unbounded) (Number.subClamped (ownLimit.getD unbounded) (offset.getD 0))),
          some (Number.addClamped (ownOffset.getD 0) (offset.getD 0))) := by
  unfold within at ok
  split at ok
  · cases ok
    exact .inl ⟨rfl, rfl, rfl⟩
  · next given =>
      simp only [counted] at ok
      cases ok
      refine .inr ⟨?_, window_ofCounts _ _⟩
      cases offset <;> cases limit <;> simp_all

theorem window_of_capped {most : UInt64} (counted : window page = .ok (ownLimit, ownOffset))
    (ok : capped page (some most) = .ok paged) :
    ∃ made, paged = some made ∧
      window (some made) = .ok (some (min most (ownLimit.getD most)),
        if page.isSome then ownOffset else some 0) := by
  cases page with
  | none =>
    cases counted
    cases ok
    refine ⟨_, rfl, ?_⟩
    have least : min most most = most := UInt64.toNat_inj.mp (by simp [UInt64.toNat_min])
    simp [window_ofCounts, least]
  | some own =>
    obtain ⟨limit, reads, counted⟩ := Except.of_bind counted
    obtain ⟨skipped, skips, counted⟩ := Except.of_bind counted
    cases counted
    obtain ⟨read, same, ok⟩ := Except.of_bind ok
    cases reads.symm.trans same
    split at ok
    · next below =>
        cases ok
        refine ⟨_, rfl, ?_⟩
        have least : min most limit = most := by
          apply UInt64.toNat_inj.mp
          rw [UInt64.lt_iff_toNat_lt] at below
          rw [UInt64.toNat_min]
          omega
        simp only [window, rowCount_natural, skips, Option.getD_some, least]
        rfl
    · next above =>
        cases ok
        refine ⟨_, rfl, ?_⟩
        have least : min most limit = limit := by
          apply UInt64.toNat_inj.mp
          rw [UInt64.lt_iff_toNat_lt] at above
          rw [UInt64.toNat_min]
          omega
        simp only [window, reads, skips, Option.getD_some, least]
        rfl

/-- The rows of the page, as the least of what is left of the window, what is asked for, what fits into the
budget and what can be bound. -/
def fitting (ownLimit offset limit : Option UInt64) (most : UInt64) : Nat :=
  min unbounded.toNat (min most.toNat (min (limit.getD unbounded).toNat
    ((ownLimit.getD unbounded).toNat - (offset.getD 0).toNat)))

theorem fitting_le_most (ownLimit offset limit : Option UInt64) (most : UInt64) :
    fitting ownLimit offset limit most ≤ most.toNat := by
  rw [fitting]
  omega

theorem fitting_le_limit (ownLimit offset : Option UInt64) (limit most : UInt64) :
    fitting ownLimit offset (some limit) most ≤ limit.toNat := by
  rw [fitting, Option.getD_some]
  omega

theorem fitting_le_left (ownLimit : UInt64) (offset limit : Option UInt64) (most : UInt64) :
    fitting (some ownLimit) offset limit most ≤ ownLimit.toNat - (offset.getD 0).toNat := by
  rw [fitting, Option.getD_some]
  omega

/-- The rows before the page, in the window and before it. -/
def skipping (ownOffset offset : Option UInt64) : Nat :=
  min ((ownOffset.getD 0).toNat + (offset.getD 0).toNat) unbounded.toNat

theorem window_of_paged {most : UInt64} (asked : within page offset limit = .ok requested)
    (cut : capped requested (some most) = .ok paged) (counted : ∀ own ∈ paged, own.Counted) :
    ∃ ownLimit ownOffset made count skipped, window page = .ok (ownLimit, ownOffset) ∧
      paged = some made ∧ window (some made) = .ok (some count, skipped) ∧
      min count.toNat unbounded.toNat = fitting ownLimit offset limit most ∧
      (skipped = none ↔ ownLimit.isSome ∧ ownOffset = none ∧ offset = none ∧ limit = none) ∧
      ∀ number ∈ skipped, min number.toNat unbounded.toNat = skipping ownOffset offset := by
  obtain ⟨ownLimit, ownOffset, own, placed⟩ : ∃ ownLimit ownOffset,
      window page = .ok (ownLimit, ownOffset) ∧ (ownLimit.isSome ↔ page.isSome) := by
    cases page with
    | none => exact ⟨none, none, rfl, by simp⟩
    | some page =>
      obtain ⟨ownLimit, ownOffset, own⟩ := (counted_of_paged asked cut counted).window
      exact ⟨some ownLimit, ownOffset, own, by simp⟩
  have largest : unbounded.toNat ≤ Number.largest.toNat := by decide
  rcases window_of_within own asked with ⟨rfl, rfl, rfl⟩ | ⟨given, changed⟩
  · obtain ⟨made, rfl, counts⟩ := window_of_capped own cut
    refine ⟨ownLimit, ownOffset, made, _, _, own, rfl, counts, ?_, ?_, ?_⟩
    · have zero : (0 : UInt64).toNat = 0 := rfl
      simp only [fitting, UInt64.toNat_min, Option.getD_none, zero]
      cases ownLimit <;> simp only [Option.getD_none, Option.getD_some] <;> omega
    · rw [placed]
      cases requested <;> simp
    · intro number found
      cases requested with
      | none =>
        cases own
        cases found
        rfl
      | some _ =>
        obtain rfl : ownOffset = some number := found
        simp [skipping]
  · obtain ⟨made, rfl, counts⟩ := window_of_capped changed cut
    have there : requested.isSome := by
      cases requested with
      | none => cases changed
      | some _ => rfl
    rw [if_pos there] at counts
    refine ⟨ownLimit, ownOffset, made, _, _, own, rfl, counts, ?_, ?_, ?_⟩
    · simp only [fitting, UInt64.toNat_min, Number.toNat_subClamped, Option.getD_some]
      omega
    · cases offset <;> cases limit <;> simp_all
    · intro number found
      cases found
      rw [skipping, Number.toNat_addClamped]
      omega

end Page

/-! ## Bound row counts -/

/-- The expression is the placeholder of the number. -/
def Parameters.Holds (parameters : Parameters) (expr : Expr) (number : Nat) : Prop :=
  ∃ name value, expr = .parameter name ∧ parameters.get? name = some (.integer value) ∧
    value.toInt = number

namespace Lowering

theorem settles_count {expr : Expr} {count : UInt64} (reads : Page.rowCount expr = .ok count) :
    Settles (Page.lowerCount expr) fun parameters lowered =>
      parameters.Holds lowered (min count.toNat Page.unbounded.toNat) := by
  have fits : min count.toNat Page.unbounded.toNat < 2 ^ 63 :=
    Nat.lt_of_le_of_lt (Nat.min_le_right _ _) (by decide)
  intro state lowered after ran
  obtain ⟨_, _, ran_count, ran⟩ := run_bind ran
  obtain ⟨same, rfl⟩ := run_lift ran_count
  cases reads.symm.trans same
  obtain ⟨grows, bound⟩ := settles_bound _ _ _ _ ran
  refine ⟨grows, fun parameters later => ?_⟩
  obtain ⟨name, rfl, given⟩ := bound parameters later
  exact ⟨name, _, rfl, given, Int64.toInt_ofNat_of_lt fits⟩

theorem settles_page {page : Page} {count : UInt64} {skipped : Option UInt64}
    (counts : Page.window (some page) = .ok (some count, skipped)) :
    Settles page.lower fun parameters lowered =>
      parameters.Holds lowered.limit (min count.toNat Page.unbounded.toNat) ∧
        Option.Rel (fun expr number => parameters.Holds expr (min number.toNat Page.unbounded.toNat))
          lowered.offset skipped := by
  obtain ⟨limit, reads, counts⟩ := Except.of_bind counts
  obtain ⟨offset, skips, counts⟩ := Except.of_bind counts
  cases counts
  apply settles_bind (settles_count reads)
  intro first
  obtain ⟨own, expr⟩ := page
  cases expr with
  | none =>
    cases skips
    exact settles_pure fun _ holds => ⟨holds, .none⟩
  | some expr =>
    have single : some <$> Page.rowCount expr = .ok skipped := skips
    rw [map_eq_pure_bind] at single
    obtain ⟨number, found, single⟩ := Except.of_bind single
    cases single
    have bound : Settles ((some expr).mapM Page.lowerCount) fun parameters lowered =>
        Option.Rel (fun expr number => parameters.Holds expr (min number.toNat Page.unbounded.toNat))
          lowered (some number) := by
      intro state lowered after ran
      obtain ⟨value, rfl, own⟩ := run_some ran
      obtain ⟨grows, holds⟩ := settles_count found state value after own
      exact ⟨grows, fun parameters later => .some (holds parameters later)⟩
    apply settles_bind bound
    intro second
    exact settles_pure fun _ behind front => ⟨front, behind⟩

theorem run_mapM_last {α β : Type} {step : α → Lowering β} {items : List α} {results : List β} {item : α}
    {state after : LoweringState} (ran : (items.mapM step).run state = (.ok results, after))
    (last : items.getLast? = some item) :
    ∃ result start, results.getLast? = some result ∧ (step item).run start = (.ok result, after) := by
  induction items generalizing results state with
  | nil => cases last
  | cons first rest ih =>
    rw [List.mapM_cons] at ran
    obtain ⟨value, between, own, ran⟩ := run_bind ran
    obtain ⟨values, final, others, ran⟩ := run_bind ran
    cases ran
    cases rest with
    | nil =>
      cases last
      cases others
      exact ⟨value, state, rfl, own⟩
    | cons second rest =>
      rw [List.getLast?_cons_cons] at last
      obtain ⟨result, start, found, ran⟩ := ih others last
      refine ⟨result, start, ?_, ran⟩
      rw [List.getLast?_cons, found]
      rfl

end Lowering

open Lowering

theorem Select.page_of_run {schemas : Schemas} {guardsDoubles : Bool} {metadata : List RowMetadata}
    {binding : Binding} {part : Select} {result : Select × Bool} {state after : LoweringState}
    (ran : (part.lower schemas guardsDoubles metadata binding).run state = (.ok result, after)) :
    ∃ start, (part.page.mapM Page.lower).run start = (.ok result.1.page, after) := by
  obtain ⟨_, _, _, ran⟩ := run_bind ran
  obtain ⟨_, _, _, ran⟩ := run_bind ran
  obtain ⟨_, _, _, ran⟩ := run_bind ran
  obtain ⟨_, _, _, ran⟩ := run_bind ran
  obtain ⟨_, _, _, ran⟩ := run_bind ran
  obtain ⟨_, start, _, ran⟩ := run_bind ran
  obtain ⟨page, _, ran_page, ran⟩ := run_bind ran
  obtain ⟨_, _, got, ran⟩ := run_bind ran
  cases got
  cases ran
  exact ⟨start, ran_page⟩

theorem forall₂_getLast? {α β : Type} {relation : α → β → Prop} {one : List α} {two : List β} {item : α}
    (related : List.Forall₂ relation one two) (last : one.getLast? = some item) :
    ∃ other, two.getLast? = some other ∧ relation item other := by
  rw [List.getLast?_eq_getElem?] at last
  obtain ⟨other, found, own⟩ := forall₂_getElem? related last
  rw [related.length_eq] at found
  exact ⟨other, by rw [List.getLast?_eq_getElem?, found], own⟩

namespace Compiler

variable {compiler : Compiler}

theorem pageLast_last {rowsPerPage : Option UInt64} {parts paged : List (Binding × Select)}
    {part : Binding × Select} (ok : compiler.pageLast rowsPerPage parts = .ok paged)
    (last : parts.getLast? = some part) :
    ∃ requested page, Page.within part.2.page compiler.offset compiler.limit = .ok requested ∧
      Page.capped requested rowsPerPage = .ok page ∧
      paged.getLast? = some (part.1, { part.2 with page }) := by
  induction parts generalizing paged with
  | nil => cases last
  | cons first rest ih =>
    obtain ⟨binding, select⟩ := first
    cases rest with
    | nil =>
      obtain ⟨requested, asked, ok⟩ := Except.of_bind ok
      obtain ⟨page, cut, ok⟩ := Except.of_bind ok
      cases ok
      cases last
      exact ⟨requested, page, asked, cut, rfl⟩
    | cons second rest =>
      obtain ⟨others, behind, ok⟩ := Except.of_bind ok
      cases ok
      rw [List.getLast?_cons_cons] at last
      obtain ⟨requested, page, asked, cut, found⟩ := ih behind last
      refine ⟨requested, page, asked, cut, ?_⟩
      rw [List.getLast?_cons, found]
      rfl

/-- The sizes of a query and the window of its last part, which is bound last. -/
theorem page_of_compileParts {description : IndexDescription} {query : Query} {inner : Option CompiledQuery}
    {compiled : CompiledQuery} {state after : LoweringState} {budget : UInt64} {part : Select}
    (budgeted : compiler.maxBytes = some budget) (ends : query.parts.getLast? = some part)
    (ran : (compiler.compileParts .statement description query inner).run state = (.ok compiled, after)) :
    compiled.rowSize = Size.ofRow compiled.outputColumns ∧
      compiled.rowsPerPage = some (Size.rowsPerPage budget compiled.rowSize) ∧
      ∃ requested paged last start, Page.within part.page compiler.offset compiler.limit = .ok requested ∧
        Page.capped requested compiled.rowsPerPage = .ok paged ∧
        compiled.query.parts.getLast? = some last ∧
        (paged.mapM Page.lower).run start = (.ok last.page, after) := by
  obtain ⟨parts, paged, _, lowered, compiles, ran⟩ := run_compileParts ran
  refine ⟨compiles.rowSize, by simp [compiles.rowsPerPage, rowsPerPage, budgeted], ?_⟩
  obtain ⟨bound, placed, own⟩ := forall₂_getLast? (Except.forall₂_of_mapM compiles.binds) ends
  obtain ⟨requested, page, asked, cut, found⟩ := pageLast_last compiles.pages placed
  obtain ⟨result, start, reached, ran⟩ := run_mapM_last ran found
  obtain ⟨begins, ran_page⟩ := Select.page_of_run ran
  have same : bound.2.page = part.page := by
    obtain ⟨_, ⟨rfl, _⟩ | ⟨_, _, _, spelled⟩⟩ := Select.bindTables_of_ok own
    · rfl
    · rw [spelled]
  rw [same] at asked
  refine ⟨requested, page, result.1, begins, asked, cut, ?_, ran_page⟩
  rw [compiles.parts, List.getLast?_map, reached]
  rfl

/-- The page of a statement with a budget. Its last part ends in a window, whose limit is the placeholder of a
number of rows: the least of the rows that fit into the budget, the limit that is asked for and the rows that
the offset leaves of the window of the query. These rows take no more bytes than the budget, unless a single
row does. If the query has an offset or the caller asks for a page, the window has an offset too, the
placeholder of the sum of both; so it has if the query has no window. The size of a row is the sum of the sizes
of its columns. What does not fit into a word is cut off at the largest word, and what is bound at the largest
signed number. -/
theorem statement_page_fits (compiler : Compiler) (query : Query) (statement : Statement) (budget : UInt64)
    (budgeted : compiler.maxBytes = some budget) (compiled : compiler.compileQuery query = .ok statement) :
    ∃ part ownLimit ownOffset last page rows most,
      query.parts.getLast? = some part ∧ Page.window part.page = .ok (ownLimit, ownOffset) ∧
      statement.compiled.query.parts.getLast? = some last ∧ last.page = some page ∧
      statement.compiled.rowsPerPage = some most ∧
      statement.parameters.Holds page.limit rows ∧
      rows = Page.fitting ownLimit compiler.offset compiler.limit most ∧
      rows ≤ most.toNat ∧
      (∀ limit ∈ compiler.limit, rows ≤ limit.toNat) ∧
      (∀ limit ∈ ownLimit, rows ≤ limit.toNat - (compiler.offset.getD 0).toNat) ∧
      rows * statement.compiled.rowSize.toNat ≤ max budget.toNat statement.compiled.rowSize.toNat ∧
      (page.offset = none ↔
        ownLimit.isSome ∧ ownOffset = none ∧ compiler.offset = none ∧ compiler.limit = none) ∧
      (∀ expr ∈ page.offset, statement.parameters.Holds expr (Page.skipping ownOffset compiler.offset)) ∧
      statement.compiled.rowSize.toNat =
        min (total Size.exactColumn statement.compiled.outputColumns) Number.largest.toNat := by
  obtain ⟨prepared, inner, start, after, _, parts, ran, bound⟩ :=
    compileParts_last (fun plan => keeps_trivial _) trivial compiled
  obtain ⟨part, ends⟩ : ∃ part, query.parts.getLast? = some part :=
    ⟨_, List.getLast?_eq_some_getLast (List.cons_ne_nil _ _)⟩
  have prepares : prepared.parts.getLast? = some { part with definingFilter := none } := by
    rw [parts, List.getLast?_map, ends]
    rfl
  obtain ⟨size, most, requested, paged, last, begins, asked, cut, placed, ran_page⟩ :=
    page_of_compileParts budgeted prepares ran
  have counted : ∀ own ∈ paged, own.Counted := by
    intro own given
    rw [Option.mem_def.mp given] at ran_page
    obtain ⟨_, _, ran_own⟩ := run_some ran_page
    exact Page.counted_of_lowered ran_own
  rw [most] at cut
  obtain ⟨ownLimit, ownOffset, made, count, skipped, own, rfl, counts, fits, absent, skips⟩ :=
    Page.window_of_paged asked cut counted
  obtain ⟨page, paging, ran_made⟩ := run_some ran_page
  obtain ⟨limits, offsets⟩ := (settles_page counts _ _ _ ran_made).2 _ List.prefix_rfl
  rw [← bound] at limits offsets
  rw [fits] at limits
  have below := Page.fitting_le_most ownLimit compiler.offset compiler.limit
    (Size.rowsPerPage budget statement.compiled.rowSize)
  refine ⟨part, ownLimit, ownOffset, last, page, _, _, ends, own, placed, paging, most, limits, rfl, below,
    ?_, ?_, Size.mul_le_of_le_rowsPerPage below, ?_, ?_, ?_⟩
  · intro limit given
    rw [Option.mem_def.mp given]
    exact Page.fitting_le_limit _ _ _ _
  · intro limit given
    rw [Option.mem_def.mp given]
    exact Page.fitting_le_left _ _ _ _
  · rw [← absent]
    generalize page.offset = expr at offsets
    cases offsets <;> simp
  · intro expr given
    rw [Option.mem_def.mp given] at offsets
    obtain ⟨holds⟩ := offsets
    rwa [skips _ rfl] at holds
  · rw [size, Size.toNat_ofRow]

/-- A page of twelve rows, within 1700 bytes. -/
def pagedCompiler : Compiler :=
  { builtCompiler with maxBytes := some 1700, offset := some 4, limit := some 12 }

/-- `SELECT foo FROM syn1 UNION SELECT foo FROM syn5 LIMIT 20 OFFSET 3` -/
def pagedQuery : Query :=
  let foo : Projection := .items [⟨.named "foo", none⟩]
  ⟨none, .simple foo (.named "syn1"),
    [⟨false, { Select.simple foo (.named "syn5") with page := some (.ofCounts 20 (some 3)) }⟩]⟩

def pagedText : String :=
  "SELECT _C1_, IFNULL(ROW_BENEFACTOR,-1) FROM T1 UNION SELECT _C1_, -1 FROM T5 LIMIT :b0 OFFSET :b1"

/-- Eight rows of 200 bytes fit, and the page begins behind seven rows. -/
theorem statement_page_fits_paged :
    ∃ statement last page, pagedCompiler.compileQuery pagedQuery = .ok statement ∧
      statement.text = pagedText ∧ statement.compiled.rowSize = 200 ∧
      statement.compiled.query.parts.getLast? = some last ∧ last.page = some page ∧
      statement.parameters.Holds page.limit 8 ∧ page.offset.isSome ∧
      ∀ expr ∈ page.offset, statement.parameters.Holds expr 7 := by
  obtain ⟨statement, compiled, text, size, budget⟩ : ∃ statement,
      pagedCompiler.compileQuery pagedQuery = .ok statement ∧ statement.text = pagedText ∧
        statement.compiled.rowSize = 200 ∧ statement.compiled.rowsPerPage = some 8 :=
    compiles_within 1 (by decide +kernel)
  obtain ⟨part, ownLimit, ownOffset, last, page, rows, most, ends, own, placed, paging, fits, holds, exactly,
    _, _, _, _, absent, skips, _⟩ := statement_page_fits pagedCompiler pagedQuery statement 1700 rfl compiled
  cases ends
  cases budget.symm.trans fits
  cases (Page.window_ofCounts 20 (some 3)).symm.trans own
  refine ⟨statement, last, page, compiled, text, size, placed, paging, ?_, ?_, skips⟩
  · rw [exactly] at holds
    exact holds
  · cases found : page.offset with
    | none => simpa using absent.mp found
    | some expr => rfl

end Compiler

end TabularSql
