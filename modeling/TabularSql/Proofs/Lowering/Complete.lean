import TabularSql.Proofs.Lowering.Physical

/-!
# Lowering is complete

Nothing of the logical query is left in a compiled statement: every form that only logical queries have is
replaced, and every name that a column reference keeps is one that the store knows in that place. The
argument follows the recursion of lowering. A reference that resolves belongs to a bound table, and the
bound tables are in the lowered FROM clause; the list columns that lowering notes on its way are columns
of bound tables too, so the side tables that they bring in are known as well.
-/

namespace TabularSql

set_option autoImplicit false

/-! ## Steps that keep an invariant -/

namespace Lowering

variable {α β : Type} {invariant : LoweringState → Prop}

/-- As long as the state has the invariant, the step keeps it and its value has the property. -/
def Keeps (invariant : LoweringState → Prop) (step : Lowering α) (property : α → Prop) : Prop :=
  ∀ state value after, invariant state → step.run state = (.ok value, after) →
    invariant after ∧ property value

theorem keeps_pure {value : α} {property : α → Prop} (holds : property value) :
    Keeps invariant (pure value) property := by
  intro state result after before ran
  obtain ⟨rfl, rfl⟩ := run_pure ran
  exact ⟨before, holds⟩

theorem keeps_bind {step : Lowering α} {next : α → Lowering β} {between : α → Prop}
    {property : β → Prop} (first : Keeps invariant step between)
    (second : ∀ value, between value → Keeps invariant (next value) property) :
    Keeps invariant (step >>= next) property := by
  intro state result after before ran
  obtain ⟨value, middle, ran_first, ran_second⟩ := run_bind ran
  obtain ⟨kept, holds⟩ := first state value middle before ran_first
  exact second value holds middle result after kept ran_second

theorem keeps_lift {given : Except CompileError α} {property : α → Prop}
    (holds : ∀ value, given = .ok value → property value) :
    Keeps invariant (lift given) property := by
  intro state value after before ran
  obtain ⟨same, rfl⟩ := run_lift ran
  exact ⟨before, holds value same⟩

theorem keeps_modify {change : LoweringState → LoweringState}
    (keeps : ∀ state, invariant state → invariant (change state)) :
    Keeps invariant (modify change) fun _ => True := by
  intro state value after before ran
  cases ran
  exact ⟨keeps state before, trivial⟩

theorem keeps_get : Keeps invariant get invariant := by
  intro state value after before ran
  cases ran
  exact ⟨before, before⟩

theorem keeps_mapM {step : α → Lowering β} {property : β → Prop} {items : List α}
    (each : ∀ item ∈ items, Keeps invariant (step item) property) :
    Keeps invariant (items.mapM step) fun results => ∀ result ∈ results, property result := by
  induction items with
  | nil => exact keeps_pure (by simp)
  | cons item items ih =>
    rw [List.mapM_cons]
    refine keeps_bind (each item (by simp)) fun value own =>
      keeps_bind (ih fun other member => each other (by simp [member])) fun values others =>
        keeps_pure ?_
    simpa using ⟨own, others⟩

theorem keeps_optional {step : α → Lowering β} {property : β → Prop} {optional : Option α}
    (each : ∀ item ∈ optional, Keeps invariant (step item) property) :
    Keeps invariant (optional.mapM step) fun found => ∀ result ∈ found, property result := by
  cases optional with
  | none => exact keeps_pure (by simp)
  | some item =>
    show Keeps invariant (some <$> step item) _
    rw [map_eq_pure_bind]
    exact keeps_bind (each item rfl) fun value own => keeps_pure (by simpa using own)

theorem keeps_reset {change : LoweringState → LoweringState} {next : Lowering α}
    {property : α → Prop} (resets : ∀ state, invariant (change state))
    (rest : Keeps invariant next property) :
    Keeps (fun _ => True) (modify change >>= fun _ => next) property := by
  intro state value after _ ran
  obtain ⟨_, middle, reset, ran⟩ := run_bind ran
  cases reset
  exact ⟨trivial, (rest _ value after (resets state) ran).2⟩

theorem keeps_trivial (step : Lowering α) : Keeps (fun _ => True) step fun _ => True :=
  fun _ _ _ _ _ => ⟨trivial, trivial⟩

theorem keeps_bound {value : ParameterValue} {property : Expr → Prop}
    (keeps : ∀ state context, invariant state → invariant { state with context })
    (holds : ∀ name, property (.parameter name)) : Keeps invariant (bind value) property := by
  intro state result after before ran
  cases ran
  exact ⟨keeps state _ before, holds _⟩

end Lowering

/-! ## Columns of bound tables -/

namespace ListColumn

def Of (binding : Binding) (column : ListColumn) : Prop :=
  ∃ bound ∈ binding.tables, column.table = bound.id ∧ column.qualifier = bound.correlation ∧
    ∃ stored ∈ bound.columns, stored.id = column.id

end ListColumn

def LoweringState.Lists (binding : Binding) (state : LoweringState) : Prop :=
  ∀ column ∈ state.unnested, column.Of binding

/-- The clause has the bound tables under their physical names, with the columns of the schemas. -/
def Binding.Covered (schemas : Schemas) (source : Source) (binding : Binding) : Prop :=
  ∀ bound ∈ binding.tables, bound.physicalName ∈ source.tables ∧
    ∀ column ∈ bound.columns, ∃ model ∈ schemas.columnsOf bound.id, model.id = some column.id

namespace Binding.Covered

variable {schemas : Schemas} {source : Source} {binding : Binding}

theorem reads (covered : binding.Covered schemas source) {bound : BoundTable}
    (member : bound ∈ binding.tables) {column : BoundColumn} (own : column ∈ bound.columns) :
    source.Reads schemas bound.id column.id :=
  ⟨⟨bound.physicalName, (covered bound member).1, rfl⟩, (covered bound member).2 column own⟩

theorem names (covered : binding.Covered schemas source) {bound : BoundTable}
    (member : bound ∈ binding.tables) : source.Names bound.correlation := by
  intro name given
  refine ⟨bound.physicalName, (covered bound member).1, .inr ?_⟩
  rw [BoundTable.physicalName, Option.mem_def.mp given]
  rfl

theorem reads_list (covered : binding.Covered schemas source) {column : ListColumn}
    (of : column.Of binding) : source.Reads schemas column.table column.id := by
  obtain ⟨bound, member, table, _, stored, own, id⟩ := of
  rw [table, ← id]
  exact covered.reads member own

theorem names_list (covered : binding.Covered schemas source) {column : ListColumn}
    (of : column.Of binding) : source.Names column.qualifier := by
  obtain ⟨bound, member, _, qualifier, _⟩ := of
  rw [qualifier]
  exact covered.names member

end Binding.Covered

theorem ColumnRef.of_listColumn {scope : Scope} {reference : ColumnRef} {form : ListForm}
    {column : ListColumn} (ok : reference.listColumn scope form = .ok column) :
    column.Of scope.binding := by
  obtain ⟨resolved, stored, resolves, target, _, rfl⟩ := listColumn_of_ok ok
  obtain ⟨member, own⟩ := Binding.resolve_table resolves
  exact ⟨resolved.table, member, rfl, rfl, stored, own stored target, rfl⟩

namespace ColumnRef

variable {schemas : Schemas} {source : Source}

theorem physical_metadata {qualifier : Option String} (names : source.Names qualifier)
    (name : MetadataName) : IsPhysical schemas source (Physical.metadataRef qualifier name) :=
  ⟨qualifier, name.text, rfl, names, .inl ⟨name, rfl⟩⟩

theorem physical_stored {qualifier : Option String} {owner : TableId} {id : ColumnId} {name : String}
    (names : source.Names qualifier) (reads : source.Reads schemas owner id)
    (known : name ∈ [Physical.column id, Physical.shadow id, Physical.element id,
      Physical.elementRow id]) : IsPhysical schemas source (.plain qualifier name) :=
  ⟨qualifier, name, rfl, names, .inr ⟨owner, id, reads, known⟩⟩

theorem names_none : source.Names none := nofun

theorem physical_resolved {binding : Binding} (covered : binding.Covered schemas source)
    {reference : ColumnRef} {resolved : ResolvedColumn}
    (resolves : binding.resolve reference = .ok (some resolved)) :
    IsPhysical schemas source resolved.physical := by
  obtain ⟨member, own⟩ := Binding.resolve_table resolves
  unfold ResolvedColumn.physical
  split
  · next column target =>
      exact physical_stored (covered.names member) (covered.reads member (own column target)) (by simp)
  · exact physical_metadata (covered.names member) _

end ColumnRef

/-! ## Lowered expressions -/

namespace Expr

abbrev Fine (schemas : Schemas) (source : Source) (allowed : ColumnRef → Prop) (whole : Expr) : Prop :=
  Fragment.Everywhere (Fragment.IsLowered schemas source allowed) (.expr whole)

variable {schemas : Schemas} {source : Source} {allowed : ColumnRef → Prop}

theorem fine_of {whole : Expr} (own : whole.IsLowered schemas source allowed)
    (inside : ∀ part ∈ whole.inside,
      Fragment.Everywhere (Fragment.IsLowered schemas source allowed) part) :
    Fine schemas source allowed whole :=
  Fragment.everywhere_iff.mpr ⟨own, inside⟩

theorem fine_column {reference : ColumnRef} (known : allowed reference) :
    Fine schemas source allowed (.column reference) :=
  fine_of known (by simp)

theorem fine_literal (value : Literal) : Fine schemas source allowed (.literal value) :=
  fine_of trivial (by simp)

theorem fine_parameter (name : String) : Fine schemas source allowed (.parameter name) :=
  fine_of trivial (by simp)

theorem fine_anyOf {list : List Expr} {whole : Expr} (any : Expr.anyOf list = some whole)
    (each : ∀ expr ∈ list, Fine schemas source allowed expr) : Fine schemas source allowed whole := by
  cases list with
  | nil => cases any
  | cons first rest =>
    cases any
    obtain ⟨own, others⟩ := List.forall_mem_cons.mp each
    apply List.foldlRecOn rest Expr.or own
    intro left chain right listed
    exact fine_of trivial (by simpa [Expr.or] using ⟨chain, others right listed⟩)

end Expr

/-- The store can resolve every reference that a lowered clause may hold by a bound table. -/
structure Scope.Admits (scope : Scope) (source : Source) (allowed : ColumnRef → Prop) : Prop where
  covered : scope.binding.Covered scope.schemas source
  physical : ∀ reference, reference.IsPhysical scope.schemas source → allowed reference

namespace Scope.Admits

open TabularSql.Expr (Fine fine_of fine_column fine_literal)

variable {scope : Scope} {source : Source} {allowed : ColumnRef → Prop}

variable {bound : BoundTable} {column : BoundColumn} (admits : scope.Admits source allowed)

include admits

theorem fine_shadow (member : bound ∈ scope.binding.tables) (own : column ∈ bound.columns) :
    Fine scope.schemas source allowed (Physical.shadowExpr bound.correlation column.id) :=
  fine_column (admits.physical _ (ColumnRef.physical_stored (admits.covered.names member)
    (admits.covered.reads member own) (by simp)))

theorem fine_guarded (member : bound ∈ scope.binding.tables) (own : column ∈ bound.columns) :
    Fine scope.schemas source allowed (Physical.guardedDouble bound.correlation column.id) := by
  have shadow := admits.fine_shadow member own
  have plain : Fine scope.schemas source allowed
      (.column (Physical.columnRef bound.correlation column.id)) :=
    fine_column (admits.physical _ (ColumnRef.physical_stored (admits.covered.names member)
      (admits.covered.reads member own) (by simp)))
  have absent : Fine scope.schemas source allowed
      (.isNull (Physical.shadowExpr bound.correlation column.id) false) :=
    fine_of trivial (by simpa using shadow)
  exact fine_of trivial (by simpa [Physical.guardedDouble] using ⟨absent, plain, shadow⟩)

theorem fine_shadowTest (member : bound ∈ scope.binding.tables) (own : column ∈ bound.columns)
    {test : Expr} (fine : Fine scope.schemas source allowed test) :
    Fine scope.schemas source allowed
      (.nested (.and (.isNull (Physical.shadowExpr bound.correlation column.id) true) test)) := by
  have present : Fine scope.schemas source allowed
      (.isNull (Physical.shadowExpr bound.correlation column.id) true) :=
    fine_of trivial (by simpa using admits.fine_shadow member own)
  have both : Fine scope.schemas source allowed
      (.and (.isNull (Physical.shadowExpr bound.correlation column.id) true) test) :=
    fine_of trivial (by simpa [Expr.and] using ⟨present, fine⟩)
  exact fine_of trivial (by simpa using both)

theorem fine_nanTest (member : bound ∈ scope.binding.tables) (own : column ∈ bound.columns) :
    Fine scope.schemas source allowed (Physical.nanTest bound.correlation column.id) := by
  refine admits.fine_shadowTest member own (fine_of trivial ?_)
  simpa [Expr.equals] using ⟨admits.fine_shadow member own, fine_literal _⟩

theorem fine_infinityTest (member : bound ∈ scope.binding.tables) (own : column ∈ bound.columns) :
    Fine scope.schemas source allowed (Physical.infinityTest bound.correlation column.id) := by
  refine admits.fine_shadowTest member own (fine_of trivial ?_)
  simpa using ⟨admits.fine_shadow member own, fine_literal _, fine_literal _⟩

theorem fine_element {column : ListColumn} (of : column.Of scope.binding) :
    Fine scope.schemas source allowed column.elementExpr :=
  fine_column (admits.physical _ (@ColumnRef.physical_stored _ _ none _ _ _ ColumnRef.names_none
    (admits.covered.reads_list of) (by simp)))

theorem fine_rowsWith {column : ListColumn} (of : column.Of scope.binding) {condition : Expr}
    (own : Fine scope.schemas source allowed condition) (negated : Bool) :
    Fine scope.schemas source allowed (column.rowsWith condition negated) := by
  have reads := admits.covered.reads_list of
  have row : Fine scope.schemas source allowed
      (.column (Physical.metadataRef column.qualifier .rowId)) :=
    fine_column (admits.physical _
      (ColumnRef.physical_metadata (admits.covered.names_list of) .rowId))
  have reference : Fine scope.schemas source allowed (.named (Physical.elementRow column.id)) :=
    fine_column (admits.physical _ (@ColumnRef.physical_stored _ _ none _ _ _ ColumnRef.names_none
      reads (by simp)))
  refine fine_of ⟨column, condition, reads, rfl⟩ ?_
  rw [ListColumn.rowsWith, Expr.inside, List.forall_mem_cons, List.forall_mem_singleton]
  refine ⟨row, Fragment.everywhere_single.mpr ⟨⟨rfl, rfl⟩, ?_⟩⟩
  refine Fragment.everywhere_select.mpr ⟨⟨by simp [Select.simple], rfl, ?_⟩, ?_⟩
  · simp only [Select.simple, Source.named, Source.tables, List.mem_singleton, forall_eq]
    exact .inr ⟨column.table, column.id, reads, rfl⟩
  · simpa [Select.exprs, Select.simple, Projection.itemList, Source.named, Source.conditions] using
      ⟨reference, own⟩

theorem fine_matching {column : ListColumn} (of : column.Of scope.binding) {pattern : Bool}
    {values : List Expr} {condition : Expr}
    (each : ∀ value ∈ values, Fine scope.schemas source allowed value)
    (ok : column.matching pattern values = .ok condition) :
    Fine scope.schemas source allowed condition := by
  have element := admits.fine_element of
  rcases ListColumn.matching_of_ok ok with rfl | ⟨_, any⟩
  · exact fine_of trivial (List.forall_mem_cons.mpr ⟨element, List.forall_mem_map.mpr each⟩)
  · refine Expr.fine_anyOf any fun expr member => ?_
    obtain ⟨value, listed, rfl⟩ := List.mem_map.mp member
    exact fine_of trivial (by simpa using ⟨element, each value listed⟩)

end Scope.Admits

/-! ## Lowering of expressions -/

namespace Expr

/-- The forms that lowering keeps, apart from column references. -/
def IsKept : Expr → Prop
  | cast _ target => ∃ name, target = .physical name
  | column _ | inQuery .. | has .. | unnest _ | doubleTest .. | textMatches _ | currentUser => False
  | _ => True

theorem IsKept.isLowered {schemas : Schemas} {source : Source} {allowed : ColumnRef → Prop}
    {whole : Expr} (kept : whole.IsKept) : whole.IsLowered schemas source allowed := by
  cases whole with
  | cast operand target => exact kept
  | column | inQuery | has | unnest | doubleTest | textMatches | currentUser => exact kept.elim
  | _ => trivial

theorem exprs_inside {whole : Expr}
    (plain : ∀ tested candidates negated, whole ≠ .inQuery tested candidates negated) :
    ∀ part ∈ whole.inside, ∃ expr, part = .expr expr := by
  have listed (list : List Expr) : ∀ part ∈ list.map Fragment.expr, ∃ expr, part = .expr expr :=
    List.forall_mem_map.mpr fun expr _ => ⟨expr, rfl⟩
  cases whole with
  | inQuery => exact absurd rfl (plain _ _ _)
  | call _ _ arguments => exact listed arguments
  | caseWhen operand branches otherwise =>
    have pairs : ∀ part ∈ branches.flatMap (fun branch =>
        [Fragment.expr branch.1, .expr branch.2]), ∃ expr, part = .expr expr := by
      simp only [List.mem_flatMap, List.mem_cons, List.not_mem_nil, or_false]
      rintro part ⟨branch, _, rfl | rfl⟩
      · exact ⟨_, rfl⟩
      · exact ⟨_, rfl⟩
    exact List.forall_mem_append.mpr ⟨List.forall_mem_append.mpr ⟨listed _, pairs⟩, listed _⟩
  | inList _ list _ | has _ list _ _ => exact List.forall_mem_cons.mpr ⟨⟨_, rfl⟩, listed list⟩
  | like => exact List.forall_mem_cons.mpr ⟨⟨_, rfl⟩, List.forall_mem_cons.mpr ⟨⟨_, rfl⟩, listed _⟩⟩
  | _ => simp

theorem IsKept.inside {whole : Expr} (kept : whole.IsKept) :
    ∀ part ∈ whole.inside, ∃ expr, part = .expr expr := by
  apply exprs_inside
  rintro _ _ _ rfl
  exact kept

end Expr

namespace Lowering

open TabularSql.Expr (Fine fine_of fine_column)

variable {scope : Scope} {source : Source} {allowed : ColumnRef → Prop}
  {invariant : LoweringState → Prop} {property : Expr → Prop}

theorem keeps_lowerAll {position : Position} {list : List Expr}
    (each : ∀ expr ∈ list, Keeps invariant (expr.lower scope position) property) :
    Keeps invariant (Expr.lowerAll scope position list) fun lowered =>
      ∀ expr ∈ lowered, property expr := by
  rw [Expr.lowerAll_eq_mapM]
  exact keeps_mapM each

theorem keeps_lowerOption {position : Position} {optional : Option Expr}
    (each : ∀ expr ∈ optional, Keeps invariant (expr.lower scope position) property) :
    Keeps invariant (Expr.lowerOption scope position optional) fun lowered =>
      ∀ expr ∈ lowered, property expr := by
  rw [Expr.lowerOption_eq_mapM]
  exact keeps_optional each

theorem keeps_lowerBranches {tested result : Position} {branches : List (Expr × Expr)}
    (each : ∀ branch ∈ branches, Keeps invariant (branch.1.lower scope tested) property ∧
      Keeps invariant (branch.2.lower scope result) property) :
    Keeps invariant (Expr.lowerBranches scope tested result branches) fun lowered =>
      ∀ branch ∈ lowered, property branch.1 ∧ property branch.2 := by
  rw [Expr.lowerBranches_eq_mapM]
  refine keeps_mapM fun branch member => ?_
  obtain ⟨first, second⟩ := each branch member
  exact keeps_bind first fun _ one => keeps_bind second fun _ two => keeps_pure ⟨one, two⟩

/-- What it takes for a property to hold of lowered expressions: the forms that lowering keeps have it
if the expressions inside them do, and so have the forms that it spells out. -/
structure Carried (scope : Scope) (invariant : LoweringState → Prop) (property : Expr → Prop) :
    Prop where
  context : ∀ state context, invariant state → invariant { state with context }
  search : ∀ state, invariant state → invariant { state with searches := true }
  kept : ∀ whole : Expr, whole.IsKept → (∀ part, .expr part ∈ whole.inside → property part) →
    property whole
  rows : ∀ {form : ListForm} {tested : Expr} {column : ListColumn},
    tested.testedList scope form = .ok column → ∀ {pattern : Bool} {values : List Expr}
      {condition : Expr}, (∀ value ∈ values, property value) →
        column.matching pattern values = .ok condition → ∀ negated,
          property (column.rowsWith condition negated)
  unnest : ∀ reference position,
    Keeps invariant ((Expr.unnest reference).lower scope position) property
  doubleTest : ∀ {test : DoubleTest} {reference : ColumnRef} {lowered : Expr},
    test.lower scope reference = .ok lowered → property lowered

section

variable (carried : Carried scope invariant property)

include carried

theorem Carried.literal (value : Literal) : property (.literal value) :=
  carried.kept _ trivial nofun

theorem Carried.parameter (name : String) : property (.parameter name) :=
  carried.kept _ trivial nofun

theorem keeps_literal (position : Position) (literal : Literal) :
    Keeps invariant (literal.lower position) property := by
  unfold Literal.lower
  split
  · split
    · exact keeps_bound carried.context carried.parameter
    · exact keeps_pure (carried.literal _)
  · exact keeps_pure (carried.literal _)

theorem keeps_currentUser {position : Position} :
    Keeps invariant (Expr.currentUser.lower scope position) property := by
  rw [Expr.lower]
  refine keeps_bind keeps_get fun state _ => ?_
  split
  · exact keeps_bound carried.context carried.parameter
  · exact keeps_pure (carried.literal _)

/-- An expression is lowered to one with the property if this holds of the expressions inside it. Only
below a key may a position be that of a key. -/
theorem keeps_lower_of_inside {sorts : Prop} {whole : Expr}
    (column : ∀ reference position, whole = .column reference → (position = .sort → sorts) →
      Keeps invariant (whole.lower scope position) property)
    (each : ∀ part, .expr part ∈ whole.inside → ∀ position : Position, (position = .sort → sorts) →
      Keeps invariant (part.lower scope position) property)
    (position : Position) (place : position = .sort → sorts) :
    Keeps invariant (whole.lower scope position) property := by
  have compared (type : Option ColumnType) : position.comparedWith type = .sort → sorts := by
    cases position with
    | sort => exact fun _ => place rfl
    | _ =>
      intro same
      cases same
  have all {list : List Expr} {position : Position} (place : position = .sort → sorts)
      (listed : ∀ expr ∈ list, .expr expr ∈ whole.inside) :=
    keeps_lowerAll fun expr member => each expr (listed expr member) position place
  have optional {clause : Option Expr} {position : Position} (place : position = .sort → sorts)
      (listed : ∀ expr ∈ clause, .expr expr ∈ whole.inside) :=
    keeps_lowerOption fun expr member => each expr (listed expr member) position place
  cases whole with
  | literal value => exact keeps_literal carried position value
  | column reference => exact column reference position rfl place
  | parameter name => exact keeps_pure (carried.parameter name)
  | wildcard => exact keeps_pure (carried.kept _ trivial nofun)
  | currentUser => exact keeps_currentUser carried
  | call name distinct arguments =>
    refine keeps_bind (all (by simp) (by simp)) fun lowered own =>
      keeps_pure (carried.kept _ trivial ?_)
    simpa using own
  | cast operand target =>
    refine keeps_bind (each operand (by simp) _ (by simp)) fun lowered own =>
      keeps_bind (keeps_lift fun known ok => CastTarget.lower_of_ok ok) fun known physical =>
        keeps_pure (carried.kept _ physical ?_)
    simpa using own
  | caseWhen operand branches otherwise =>
    refine keeps_bind (optional (compared none) (by simp +contextual)) fun first one =>
      keeps_bind (keeps_lowerBranches fun branch member =>
        ⟨each _ (Expr.condition_inside member) _ (compared _),
          each _ (Expr.result_inside member) _ place⟩) fun middle two =>
      keeps_bind (optional place (by simp +contextual)) fun last three =>
        keeps_pure (carried.kept _ trivial fun part inside => ?_)
    · simp only [Expr.inside, List.mem_append, List.mem_flatMap, List.mem_map, Option.mem_toList,
        Fragment.expr.injEq, exists_eq_right, List.mem_cons, List.not_mem_nil, or_false] at inside
      rcases inside with (before | ⟨branch, listed, rfl | rfl⟩) | behind
      · exact one part before
      · exact (two branch listed).1
      · exact (two branch listed).2
      · exact three part behind
  | binary operator left right =>
    refine keeps_bind (each left (by simp) _ (compared _)) fun first one =>
      keeps_bind (each right (by simp) _ (compared _)) fun second two =>
        keeps_pure (carried.kept _ trivial ?_)
    simpa using ⟨one, two⟩
  | unary operator operand =>
    refine keeps_bind (each operand (by simp) _ ?_) fun lowered own =>
      keeps_pure (carried.kept _ trivial ?_)
    · split
      · exact compared none
      · exact place
    · simpa using own
  | nested operand =>
    refine keeps_bind (each operand (by simp) _ place) fun lowered own =>
      keeps_pure (carried.kept _ trivial ?_)
    simpa using own
  | isNull operand _ | isTruth operand _ _ =>
    refine keeps_bind (each operand (by simp) _ (compared none)) fun lowered own =>
      keeps_pure (carried.kept _ trivial ?_)
    simpa using own
  | between tested low high negated =>
    refine keeps_bind (each tested (by simp) _ (compared _)) fun first one =>
      keeps_bind (each low (by simp) _ (compared _)) fun second two =>
      keeps_bind (each high (by simp) _ (compared _)) fun third three =>
        keeps_pure (carried.kept _ trivial ?_)
    simpa using ⟨one, two, three⟩
  | inList tested candidates negated =>
    refine keeps_bind (each tested (by simp) _ (compared _)) fun first one =>
      keeps_bind (all (compared _) (by simp +contextual)) fun list others =>
        keeps_pure (carried.kept _ trivial ?_)
    simpa using ⟨one, others⟩
  | inQuery tested candidates negated =>
    intro state value after _ ran
    cases ran
  | like tested pattern escape negated =>
    refine keeps_bind (each tested (by simp) _ (compared _)) fun first one =>
      keeps_bind (each pattern (by simp) _ (compared _)) fun second two =>
      keeps_bind (optional (compared _) (by simp +contextual)) fun third three =>
        keeps_pure (carried.kept _ trivial ?_)
    simpa using ⟨one, two, three⟩
  | has tested values pattern negated =>
    refine keeps_bind (keeps_lift fun column ok => ok) fun column known =>
      keeps_bind (all (by simp) (by simp +contextual)) fun list others =>
      keeps_bind (keeps_lift fun condition ok => ok) fun condition ok =>
        keeps_pure (carried.rows known others ok negated)
  | doubleTest test reference => exact keeps_lift fun lowered ok => carried.doubleTest ok
  | textMatches text | matchAgainst text =>
    refine keeps_bind (each text (by simp) _ (by simp)) fun lowered own =>
      keeps_bind (keeps_modify carried.search) fun _ _ => keeps_pure (carried.kept _ trivial ?_)
    simpa using own
  | unnest reference => exact carried.unnest reference position

/-- A property is carried through lowering if the columns that an expression names have it. -/
theorem keeps_lower {sorts : Prop} {whole : Expr}
    (column : ∀ reference position, Fragment.Within (.expr (.column reference)) (.expr whole) →
      (position = .sort → sorts) →
      Keeps invariant ((Expr.column reference).lower scope position) property)
    (position : Position) (place : position = .sort → sorts) :
    Keeps invariant (whole.lower scope position) property := by
  induction whole using Fragment.expr_induction generalizing position with
  | step whole ih =>
    refine keeps_lower_of_inside carried (fun reference position same => ?_)
      (fun part member => ih part member fun reference position within =>
        column reference position (.deeper member within)) position place
    subst same
    exact column reference position (.self _)

end

theorem keeps_unnest (admits : scope.Admits source allowed) {position : Position}
    {reference : ColumnRef} :
    Keeps (LoweringState.Lists scope.binding) ((Expr.unnest reference).lower scope position)
      (Fine scope.schemas source allowed) := by
  refine keeps_bind (keeps_lift fun column ok => ColumnRef.of_listColumn ok) fun column of => ?_
  refine keeps_bind (keeps_modify fun state lists => ?_) fun _ _ =>
    keeps_pure (admits.fine_element of)
  split
  · exact lists
  · intro other member
    rcases List.mem_append.mp member with before | added
    · exact lists other before
    · rw [List.mem_singleton.mp added]
      exact of

theorem carried_fine (admits : scope.Admits source allowed) :
    Carried scope (LoweringState.Lists scope.binding) (Fine scope.schemas source allowed) where
  context := fun _ _ lists => lists
  search := fun _ lists => lists
  kept := by
    intro whole kept each
    refine fine_of kept.isLowered fun part member => ?_
    obtain ⟨expr, rfl⟩ := kept.inside part member
    exact each expr member
  rows := by
    intro form tested column known pattern values condition each ok negated
    obtain ⟨reference, rfl, listed⟩ := Expr.testedList_of_ok known
    have of := ColumnRef.of_listColumn listed
    exact admits.fine_rowsWith of (admits.fine_matching of each ok) negated
  unnest := fun _ _ => keeps_unnest admits
  doubleTest := by
    intro test reference lowered ok
    obtain ⟨resolved, stored, resolves, target, _, rfl | rfl⟩ := DoubleTest.lower_of_ok ok
    · obtain ⟨member, own⟩ := Binding.resolve_table resolves
      exact admits.fine_nanTest member (own stored target)
    · obtain ⟨member, own⟩ := Binding.resolve_table resolves
      exact admits.fine_infinityTest member (own stored target)

/-- A column that a reference resolves to is one of the store; what else becomes of a name has to be
allowed. -/
theorem keeps_column (admits : scope.Admits source allowed) {position : Position}
    {reference : ColumnRef}
    (unresolved : ∀ lowered, scope.binding.resolve reference = .ok none →
      reference.Unresolved scope position lowered → Fine scope.schemas source allowed lowered) :
    Keeps (LoweringState.Lists scope.binding) ((Expr.column reference).lower scope position)
      (Fine scope.schemas source allowed) := by
  refine keeps_lift fun lowered ok => ?_
  cases ColumnRef.lowersTo_of_ok ok with
  | physical found =>
    exact fine_column (admits.physical _ (ColumnRef.physical_resolved admits.covered found))
  | guarded found stored =>
    obtain ⟨member, own⟩ := Binding.resolve_table found
    exact admits.fine_guarded member (own _ stored)
  | unresolved nothing kept => exact unresolved lowered nothing kept

end Lowering

/-! ## Lowering of selects -/

namespace Scope.Admits

open TabularSql.Expr (Fine fine_of fine_column)

variable {scope : Scope} {source : Source} {allowed : ColumnRef → Prop}

theorem fine_sideTable (admits : scope.Admits source allowed) {column : ListColumn}
    (of : column.Of scope.binding) (joined : ⟨column.sideTable, none⟩ ∈ source.tables) :
    Fine scope.schemas source allowed
      (.equals (.column (Physical.metadataRef (some column.owner) .rowId))
        (.column (.plain (some column.sideTable) (Physical.elementRow column.id)))) := by
  have reads := admits.covered.reads_list of
  have owner : source.Names (some column.owner) := by
    intro name given
    cases given
    unfold ListColumn.owner
    cases qualifier : column.qualifier with
    | none =>
      obtain ⟨table, member, same⟩ := reads.1
      exact ⟨table, member, .inl same⟩
    | some name => exact admits.covered.names_list of name qualifier
  have side : source.Names (some column.sideTable) := by
    intro name given
    cases given
    exact ⟨_, joined, .inl rfl⟩
  have row : Fine scope.schemas source allowed
      (.column (Physical.metadataRef (some column.owner) .rowId)) :=
    fine_column (admits.physical _ (ColumnRef.physical_metadata owner .rowId))
  have reference : Fine scope.schemas source allowed
      (.column (.plain (some column.sideTable) (Physical.elementRow column.id))) :=
    fine_column (admits.physical _ (ColumnRef.physical_stored side reads (by simp)))
  exact fine_of trivial (by simpa [Expr.equals] using ⟨row, reference⟩)

theorem fine_metadata (admits : scope.Admits source allowed) (column : RowMetadata) :
    Fine scope.schemas source allowed (column.expr scope.binding) := by
  have first (name : MetadataName) :
      Fine scope.schemas source allowed (RowMetadata.ofFirst scope.binding name) := by
    refine fine_column (admits.physical _ (ColumnRef.physical_metadata ?_ name))
    cases head : scope.binding.tables.head? with
    | none => exact ColumnRef.names_none
    | some bound => exact admits.covered.names (List.mem_of_mem_head? head)
  cases column with
  | id => exact first .rowId
  | version => exact first .rowVersion
  | etag => exact first .rowEtag
  | benefactor view =>
    simp only [RowMetadata.expr]
    split
    · next table found =>
        have own : Fine scope.schemas source allowed
            (.column (Physical.metadataRef table.correlation .rowBenefactor)) :=
          fine_column (admits.physical _ (ColumnRef.physical_metadata
            (admits.covered.names (List.mem_of_find?_eq_some found)) .rowBenefactor))
        exact fine_of trivial (by
          simpa [Physical.benefactor, Expr.apply] using ⟨own, Expr.fine_literal _⟩)
    · exact Expr.fine_literal _

end Scope.Admits

namespace Lowering

open TabularSql.Expr (Fine)

variable {scope : Scope} {invariant : LoweringState → Prop} {property : Expr → Prop}

theorem keeps_conditions (source : Source)
    (each : ∀ condition ∈ source.conditions,
      Keeps invariant (condition.lower scope (.condition none)) property) :
    Keeps invariant (source.lowerConditions scope) fun lowered =>
      lowered.tables = source.tables ∧ ∀ condition ∈ lowered.conditions, property condition := by
  match source with
  | .table only => exact keeps_pure ⟨rfl, by simp [Source.conditions]⟩
  | .join left kind right condition =>
    have inner := keeps_conditions left fun own member =>
      each own (by simp [Source.conditions, member])
    refine keeps_bind inner fun before known =>
      keeps_bind (each condition (by simp [Source.conditions])) fun lowered own => keeps_pure ?_
    refine ⟨by simp [Source.tables, known.1], fun other member => ?_⟩
    simp only [Source.conditions, List.mem_append, List.mem_singleton] at member
    rcases member with inBefore | rfl
    · exact known.2 other inBefore
    · exact own

theorem keeps_key {key : SortKey}
    (own : Keeps invariant (key.expr.lower scope .sort) property) :
    Keeps invariant (key.lower scope) fun lowered => property lowered.expr :=
  keeps_bind own fun _ holds => keeps_pure holds

theorem keeps_page (page : Page)
    (keeps : ∀ state context, invariant state → invariant { state with context })
    (holds : ∀ name, property (.parameter name)) :
    Keeps invariant page.lower fun lowered => ∀ expr ∈ lowered.exprs, property expr := by
  have count (expr : Expr) : Keeps invariant (Page.lowerCount expr) property :=
    keeps_bind (keeps_lift fun _ _ => trivial) fun _ _ => keeps_bound keeps holds
  refine keeps_bind (count page.limit) fun limit first =>
    keeps_bind (keeps_optional fun expr _ => count expr) fun offset second => keeps_pure ?_
  exact List.forall_mem_cons.mpr ⟨first, fun expr given => second expr (Option.mem_toList.mp given)⟩

end Lowering

namespace Select

open TabularSql.Expr (Fine fine_column)
open Lowering

variable {schemas : Schemas} {logical : Select}

theorem keeps_alias {scope : Scope} (item : SelectItem) :
    Keeps (fun _ => True) (item.lower scope) fun lowered =>
      ∀ own ∈ item.alias?, ∃ kept ∈ lowered.alias?, kept.name = own.name := by
  refine keeps_bind (keeps_trivial _) fun expr _ => keeps_pure fun own given => ?_
  refine ⟨own.asOutput, Option.mem_map_of_mem _ given, ?_⟩
  unfold Identifier.asOutput
  split <;> rfl

theorem keeps_items {scope : Scope} (items : List SelectItem) :
    Keeps (fun _ => True) (items.mapM (SelectItem.lower scope)) fun lowered =>
      ∀ name ∈ items.filterMap fun item => item.alias?.map Identifier.name,
        ∃ item ∈ lowered, ∃ own ∈ item.alias?, own.name = name := by
  induction items with
  | nil => exact keeps_pure (by simp)
  | cons item items ih =>
    rw [List.mapM_cons]
    refine keeps_bind (keeps_alias item) fun first kept =>
      keeps_bind ih fun rest found => keeps_pure fun name listed => ?_
    obtain ⟨other, member, named⟩ := List.mem_filterMap.mp listed
    rcases List.mem_cons.mp member with rfl | behind
    · obtain ⟨own, given, rfl⟩ := Option.map_eq_some_iff.mp named
      exact ⟨first, List.mem_cons_self, kept own given⟩
    · obtain ⟨result, among, rest⟩ := found name (List.mem_filterMap.mpr ⟨other, behind, named⟩)
      exact ⟨result, List.mem_cons_of_mem _ among, rest⟩

/-- A clause keeps delimited names that stand for nothing; where keys stand, it keeps aliases too. -/
theorem keeps_clause {scope : Scope} {source : Source} {allowed : ColumnRef → Prop} {sorts : Prop}
    (binds : Binding.ofSource scope.schemas logical.source = .ok scope.binding)
    (admits : scope.Admits source allowed)
    (left : ∀ reference, reference.IsLeftOver scope.schemas logical → allowed reference)
    (aliases : sorts → ∀ reference, reference.qualifier = none →
      reference.name.name ∈ scope.aliases → allowed reference)
    {expr : Expr} (member : expr ∈ logical.exprs) (position : Position)
    (place : position = .sort → sorts) :
    Keeps (LoweringState.Lists scope.binding) (expr.lower scope position)
      (Fine scope.schemas source allowed) := by
  refine keeps_lower (carried_fine admits) (fun reference position within place =>
    keeps_column admits fun lowered nothing kept => ?_) position place
  cases kept with
  | delimited bare quoted _ =>
    refine fine_column (left _ ⟨reference, scope.binding, ?_, bare, quoted, binds, nothing, rfl⟩)
    exact .deeper (List.mem_map_of_mem member) within
  | named bare plain listed sort => exact fine_column (aliases (place sort) reference bare listed)

variable (scope : Scope) {lowered : Select}

theorem keeps_inClause (binds : Binding.ofSource scope.schemas logical.source = .ok scope.binding)
    (covered : scope.binding.Covered scope.schemas lowered.source) {expr : Expr}
    (member : expr ∈ logical.exprs) (position : Position) (place : position ≠ .sort) :
    Keeps (LoweringState.Lists scope.binding) (expr.lower scope position)
      (Fine scope.schemas lowered.source (ColumnRef.InClause scope.schemas logical lowered)) :=
  keeps_clause binds ⟨covered, fun _ physical => .inl physical⟩ (fun _ left => .inr left)
    (fun never => never.elim) member position place

theorem keeps_inKey (binds : Binding.ofSource scope.schemas logical.source = .ok scope.binding)
    (covered : scope.binding.Covered scope.schemas lowered.source)
    (aliases : ∀ name ∈ scope.aliases, ∃ item ∈ lowered.projection.itemList, ∃ own ∈ item.alias?,
      own.name = name) {expr : Expr} (member : expr ∈ logical.exprs) :
    Keeps (LoweringState.Lists scope.binding) (expr.lower scope .sort)
      (Fine scope.schemas lowered.source (ColumnRef.InKey scope.schemas logical lowered)) :=
  keeps_clause binds ⟨covered, fun _ physical => .inl (.inl physical)⟩
    (fun _ left => .inl (.inr left)) (fun _ _ bare listed => .inr ⟨bare, aliases _ listed⟩) member
    .sort fun _ => trivial

theorem keeps_item (binds : Binding.ofSource scope.schemas logical.source = .ok scope.binding)
    (covered : scope.binding.Covered scope.schemas lowered.source) {projection : Projection}
    (spelled : projection = logical.projection ∧ logical.projection ≠ .all ∨
      ∃ items, scope.binding.star = .ok items ∧ logical.projection = .all ∧
        projection = .items items)
    {item : SelectItem} (member : item ∈ projection.itemList) :
    Keeps (LoweringState.Lists scope.binding) (item.lower scope) fun result =>
      Fine scope.schemas lowered.source (ColumnRef.InClause scope.schemas logical lowered)
        result.expr := by
  have own : Keeps (LoweringState.Lists scope.binding) (item.expr.lower scope .select)
      (Fine scope.schemas lowered.source (ColumnRef.InClause scope.schemas logical lowered)) := by
    rcases spelled with ⟨rfl, _⟩ | ⟨items, star, _, rfl⟩
    · exact keeps_inClause scope binds covered (item_mem member) .select nofun
    · obtain ⟨table, _, column, _, rfl⟩ := Binding.star_columns star item member
      refine keeps_column ⟨covered, fun _ physical => .inl physical⟩ fun lowered _ kept => ?_
      cases kept with
      | delimited _ _ place => rcases place with place | place <;> cases place
      | named _ _ _ place => cases place
  exact keeps_bind own fun lowered fine => keeps_pure fine

theorem covered_of_tables {binding : Binding} {source : Source} {sides : List TableName}
    (binds : Binding.ofSource schemas logical.source = .ok binding)
    (tables : source.tables = binding.tables.map BoundTable.physicalName ++ sides) :
    binding.Covered schemas source := by
  intro bound member
  refine ⟨?_, fun column own => ⟨column.model, Binding.column_model binds member own⟩⟩
  rw [tables]
  exact List.mem_append_left _ (List.mem_map_of_mem member)

theorem stored_of_tables {binding : Binding} {source : Source} {columns : List ListColumn}
    (covered : binding.Covered schemas source)
    (tables : source.tables = binding.tables.map BoundTable.physicalName ++
      columns.map fun column => ⟨column.sideTable, none⟩)
    (lists : ∀ column ∈ columns, column.Of binding) :
    ∀ table ∈ source.tables, table.IsStored schemas source := by
  intro table member
  rw [tables] at member
  rcases List.mem_append.mp member with stored | side
  · obtain ⟨bound, _, rfl⟩ := List.mem_map.mp stored
    exact .inl ⟨bound.id, rfl⟩
  · obtain ⟨column, listed, rfl⟩ := List.mem_map.mp side
    exact .inr ⟨column.table, column.id, covered.reads_list (lists column listed), rfl⟩

section

variable {guardsDoubles : Bool} {metadata : List RowMetadata} {binding : Binding} {part : Select}

/-- The lowered FROM clause has the bound tables and the side tables of list columns, and the metadata
columns are in the select list. -/
theorem keeps_tables (binds : Binding.ofSource schemas part.source = .ok binding) :
    Keeps (fun _ => True) (part.lower schemas guardsDoubles metadata binding) fun result =>
      (∃ columns : List ListColumn, result.1.source.tables =
        binding.tables.map BoundTable.physicalName ++ columns.map fun column => ⟨column.sideTable, none⟩) ∧
      ∀ column ∈ metadata, ⟨column.expr binding, none⟩ ∈ result.1.projection.itemList := by
  refine keeps_bind (keeps_trivial _) fun _ _ => ?_
  refine keeps_bind (keeps_trivial _) fun items _ => ?_
  refine keeps_bind (keeps_conditions _ fun _ _ => keeps_trivial _) fun source same => ?_
  refine keeps_bind (keeps_trivial _) fun filter _ => ?_
  refine keeps_bind (keeps_trivial _) fun groupBy _ => ?_
  refine keeps_bind (keeps_trivial _) fun orderBy _ => ?_
  refine keeps_bind (keeps_trivial _) fun page _ => ?_
  refine keeps_bind (keeps_trivial _) fun state _ => keeps_pure ⟨⟨state.unnested, ?_⟩, ?_⟩
  · rw [Source.tables_withSideTables, same.1, Binding.tables_lowerTables binds]
  · intro column member
    exact List.mem_append_right _ (List.mem_map.mpr ⟨column, member, rfl⟩)

theorem keeps_aliases :
    Keeps (fun _ => True) (part.lower schemas guardsDoubles metadata binding) fun result =>
      ∀ name ∈ part.aliases, ∃ item ∈ result.1.projection.itemList, ∃ own ∈ item.alias?,
        own.name = name := by
  refine keeps_bind (keeps_trivial _) fun _ _ => ?_
  refine keeps_bind (keeps_items _) fun items found => ?_
  refine keeps_bind (keeps_trivial _) fun source _ => ?_
  refine keeps_bind (keeps_trivial _) fun filter _ => ?_
  refine keeps_bind (keeps_trivial _) fun groupBy _ => ?_
  refine keeps_bind (keeps_trivial _) fun orderBy _ => ?_
  refine keeps_bind (keeps_trivial _) fun page _ => ?_
  refine keeps_bind (keeps_trivial _) fun state _ => keeps_pure ?_
  intro name listed
  obtain ⟨item, member, own⟩ := found name listed
  exact ⟨item, List.mem_append_left _ member, own⟩

/-- The clauses of a part, for a select that is known beforehand to have its tables and aliases. -/
theorem keeps_lowered (boundAs : logical.BoundAs schemas (binding, part))
    (undefined : logical.definingFilter = none)
    (covered : binding.Covered schemas lowered.source)
    (aliases : ∀ name ∈ part.aliases, ∃ item ∈ lowered.projection.itemList, ∃ own ∈ item.alias?,
      own.name = name) :
    Keeps (fun _ => True) (part.lower schemas guardsDoubles metadata binding) fun result =>
      lowered = result.1 → Lowered schemas logical lowered := by
  obtain ⟨binds, projection, window, rfl, spelled⟩ := boundAs
  have empty (state : LoweringState) :
      LoweringState.Lists binding { state with unnested := [], searches := false } := by
    intro column listed
    simp at listed
  let scope : Scope :=
    ⟨schemas, binding, guardsDoubles, Select.aliases { logical with projection, page := window }⟩
  refine keeps_reset empty ?_
  refine keeps_bind (keeps_mapM fun item member => keeps_item scope binds covered spelled member)
    fun items fine_items => ?_
  refine keeps_bind (keeps_conditions _ fun condition member => keeps_inClause scope binds covered
    (condition_mem (binding.conditions_lowerTables _ ▸ member)) _ nofun)
    fun source fine_conditions => ?_
  refine keeps_bind (keeps_lowerOption fun expr given =>
    keeps_inClause scope binds covered (filter_mem given) _ nofun) fun filter fine_filter => ?_
  refine keeps_bind (keeps_lowerAll fun expr member =>
    keeps_inKey scope binds covered aliases (group_mem member)) fun groupBy fine_group => ?_
  refine keeps_bind (keeps_mapM fun key member => keeps_key
    (keeps_inKey scope binds covered aliases (key_mem member))) fun orderBy fine_order => ?_
  have counts (name : String) : Fine schemas lowered.source
      (ColumnRef.InClause schemas logical lowered) (.parameter name) := Expr.fine_parameter name
  refine keeps_bind (keeps_optional fun page _ => keeps_page page (fun _ _ kept => kept) counts)
    fun page fine_page => ?_
  refine keeps_bind keeps_get fun state lists => keeps_pure fun same => ?_
  have admits : scope.Admits lowered.source (ColumnRef.InClause schemas logical lowered) :=
    ⟨covered, fun _ physical => .inl physical⟩
  have tables : lowered.source.tables = binding.tables.map BoundTable.physicalName ++
      state.unnested.map fun column => ⟨column.sideTable, none⟩ := by
    rw [same, Source.tables_withSideTables, fine_conditions.1, Binding.tables_lowerTables binds]
  refine ⟨by simp [same], by simp [same, undefined], stored_of_tables covered tables lists, ?_, ?_⟩
  · intro expr member
    rcases mem_exprs.mp member with ⟨item, listed, rfl⟩ | condition | defining | filtered | grouped |
      ⟨key, sorted, _⟩ | ⟨found, given, counted⟩
    · simp only [same, Projection.itemList, List.mem_append, List.mem_map] at listed
      rcases listed with own | ⟨column, _, rfl⟩
      · exact fine_items item own
      · exact admits.fine_metadata column
    · simp only [same, Source.conditions_withSideTables, List.mem_append, List.mem_map] at condition
      rcases condition with own | ⟨column, listed, rfl⟩
      · exact fine_conditions.2 expr own
      · refine admits.fine_sideTable (lists column listed) ?_
        rw [tables]
        exact List.mem_append_right _ (List.mem_map_of_mem listed)
    · simp [same, undefined] at defining
    · exact fine_filter expr (by simpa [same] using filtered)
    · cases grouped
    · cases sorted
    · exact fine_page found (by simpa [same] using given) expr counted
  · intro expr member
    simp only [same, List.mem_append, List.mem_map] at member
    rcases member with grouped | ⟨key, sorted, rfl⟩
    · exact fine_group expr grouped
    · exact fine_order key sorted

/-- Lowering a part gives a select over the physical store. -/
theorem lowered_of_run {result : Select × Bool} {state after : LoweringState}
    (boundAs : logical.BoundAs schemas (binding, part)) (undefined : logical.definingFilter = none)
    (ran : (part.lower schemas guardsDoubles metadata binding).run state = (.ok result, after)) :
    Lowered schemas logical result.1 := by
  have binds : Binding.ofSource schemas part.source = .ok binding := by
    obtain ⟨binds, projection, window, rfl, _⟩ := boundAs
    exact binds
  obtain ⟨columns, tables⟩ := (keeps_tables binds state result after trivial ran).2.1
  have covered := covered_of_tables binds tables
  have aliases := (keeps_aliases state result after trivial ran).2
  exact (keeps_lowered boundAs undefined covered aliases state result after trivial ran).2 rfl

end

end Select

end TabularSql
