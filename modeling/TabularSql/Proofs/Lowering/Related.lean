import TabularSql.Proofs.Lowering.Plans

/-!
# Queries with related expressions

Two queries of the same shape are compared clause by clause: one relation is asked of the conditions and
another of all other expressions. Such queries are laid out as plans of the same shape, or fail with the
same error.
-/

namespace TabularSql

set_option autoImplicit false

/-! ## The relation -/

inductive Source.Related (conditions : Expr → Expr → Prop) : Source → Source → Prop where
  | table (only : TableName) : Source.Related conditions (.table only) (.table only)
  | join {one two : Source} {first second : Expr} (kind : JoinKind) (right : TableName)
      (left : Source.Related conditions one two) (condition : conditions first second) :
      Source.Related conditions (.join one kind right first) (.join two kind right second)

def SelectItem.Related (outside : Expr → Expr → Prop) (one two : SelectItem) : Prop :=
  outside one.expr two.expr ∧ one.alias? = two.alias?

inductive Projection.Related (outside : Expr → Expr → Prop) : Projection → Projection → Prop where
  | all : Projection.Related outside .all .all
  | items {one two : List SelectItem} (listed : List.Forall₂ (SelectItem.Related outside) one two) :
      Projection.Related outside (.items one) (.items two)

def SortKey.Related (outside : Expr → Expr → Prop) (one two : SortKey) : Prop :=
  outside one.expr two.expr ∧ one.direction = two.direction

def Page.Related (outside : Expr → Expr → Prop) (one two : Page) : Prop :=
  outside one.limit two.limit ∧ Option.Rel outside one.offset two.offset

/-- Selects with the same clauses: their conditions are related by `conditions`, their other expressions
by `outside`. -/
structure Select.Related (outside conditions : Expr → Expr → Prop) (one two : Select) : Prop where
  distinct : one.distinct = two.distinct
  projection : one.projection.Related outside two.projection
  source : one.source.Related conditions two.source
  definingFilter : Option.Rel conditions one.definingFilter two.definingFilter
  filter : Option.Rel conditions one.filter two.filter
  groupBy : List.Forall₂ outside one.groupBy two.groupBy
  orderBy : List.Forall₂ (SortKey.Related outside) one.orderBy two.orderBy
  page : Option.Rel (Page.Related outside) one.page two.page

def UnionBranch.Related (outside conditions : Expr → Expr → Prop) (one two : UnionBranch) : Prop :=
  one.all = two.all ∧ one.select.Related outside conditions two.select

structure Query.RelatedParts (outside conditions : Expr → Expr → Prop) (one two : Query) : Prop where
  first : one.first.Related outside conditions two.first
  unions : List.Forall₂ (UnionBranch.Related outside conditions) one.unions two.unions

mutual

inductive CommonTable.Related (outside conditions : Expr → Expr → Prop) :
    CommonTable → CommonTable → Prop where
  | mk (name : Identifier) (columns : List Identifier) {one two : Query}
      (query : Query.Related outside conditions one two) :
      CommonTable.Related outside conditions ⟨name, columns, one⟩ ⟨name, columns, two⟩

/-- Queries that are related part by part, and so are the queries of their common tables. -/
inductive Query.Related (outside conditions : Expr → Expr → Prop) : Query → Query → Prop where
  | mk {one two : Query}
      (clause : Option.Rel (List.Forall₂ (CommonTable.Related outside conditions)) one.commonTables
        two.commonTables)
      (parts : one.RelatedParts outside conditions two) : Query.Related outside conditions one two

end

/-- Optional values are related like lists of at most one item. -/
theorem Option.rel_iff_forall₂ {α β : Type} {relation : α → β → Prop} {one : Option α} {two : Option β} :
    Option.Rel relation one two ↔ List.Forall₂ relation one.toList two.toList := by
  cases one <;> cases two <;> simp

theorem Option.rel_refl {α : Type} {relation : α → α → Prop} {optional : Option α}
    (each : ∀ value ∈ optional, relation value value) : Option.Rel relation optional optional :=
  rel_iff_forall₂.mpr (List.forall₂_same.mpr fun value listed => each value (Option.mem_toList.mp listed))

theorem Option.rel_imp {α : Type} {relation stronger : α → α → Prop} {one two : Option α}
    (related : Option.Rel relation one two)
    (each : ∀ first ∈ one, ∀ second, relation first second → stronger first second) :
    Option.Rel stronger one two := by
  have listed := (List.forall₂_and_left _ _).mpr ⟨fun _ member => member, rel_iff_forall₂.mp related⟩
  exact rel_iff_forall₂.mpr (listed.imp fun first second both =>
    each first (Option.mem_toList.mp both.1) second both.2)

theorem Option.isSome_of_rel {α : Type} {relation : α → α → Prop} {one two : Option α}
    (related : Option.Rel relation one two) : one.isSome = two.isSome := by
  cases related <;> rfl

theorem Option.rel_eq {α : Type} {one two : Option α} (related : Option.Rel Eq one two) : one = two := by
  have same := rel_iff_forall₂.mp related
  rw [List.forall₂_eq_eq_eq] at same
  simpa using congrArg List.head? same

theorem Query.element_size {query : Query} {elements : List CommonTable} {element : CommonTable}
    (clause : query.commonTables = some elements) (member : element ∈ elements) :
    sizeOf element.query < sizeOf query := by
  have listed : element ∈ query.elements := by
    rw [Query.elements, clause]
    exact member
  have inside : Fragment.query element.query ∈ (Fragment.query query).inside :=
    List.mem_append_left _ (List.mem_map.mpr ⟨element, listed, rfl⟩)
  exact Query.inside_size inside

section Reflexive

variable {outside conditions : Expr → Expr → Prop} (same : ∀ expr, outside expr expr)
  (alike : ∀ expr, conditions expr expr)

include alike in
theorem Source.Related.refl (source : Source) : source.Related conditions source :=
  match source with
  | .table only => .table only
  | .join left kind right condition => .join kind right (refl left) (alike condition)

include same in
theorem Projection.Related.refl (projection : Projection) : projection.Related outside projection := by
  cases projection with
  | all => exact .all
  | items list => exact .items (List.forall₂_same.mpr fun item _ => ⟨same item.expr, rfl⟩)

include same alike in
theorem Select.Related.refl (select : Select) : select.Related outside conditions select where
  distinct := rfl
  projection := Projection.Related.refl same select.projection
  source := Source.Related.refl alike select.source
  definingFilter := Option.rel_refl fun expr _ => alike expr
  filter := Option.rel_refl fun expr _ => alike expr
  groupBy := List.forall₂_same.mpr fun expr _ => same expr
  orderBy := List.forall₂_same.mpr fun key _ => ⟨same key.expr, rfl⟩
  page := Option.rel_refl fun page _ => ⟨same page.limit, Option.rel_refl fun expr _ => same expr⟩

include same alike in
theorem Select.Related.filtered (select : Select) {one two : Option Expr}
    (related : Option.Rel conditions one two) :
    Select.Related outside conditions { select with filter := one } { select with filter := two } where
  __ := Select.Related.refl same alike select
  filter := related

include same alike in
theorem Query.RelatedParts.refl (query : Query) : query.RelatedParts outside conditions query where
  first := Select.Related.refl same alike query.first
  unions := List.forall₂_same.mpr fun branch _ => ⟨rfl, Select.Related.refl same alike branch.select⟩

include same alike in
theorem Query.Related.refl (query : Query) : query.Related outside conditions query := by
  refine .mk ?_ (Query.RelatedParts.refl same alike query)
  apply Option.rel_refl
  intro elements clause
  apply List.forall₂_same.mpr
  rintro ⟨name, columns, inner⟩ member
  exact .mk name columns (refl inner)
termination_by sizeOf query
decreasing_by exact Query.element_size clause member

end Reflexive

section Symmetric

variable {outside conditions : Expr → Expr → Prop}
  (same : ∀ {one two : Expr}, outside one two → outside two one)
  (alike : ∀ {one two : Expr}, conditions one two → conditions two one)

theorem Option.rel_symm {α : Type} {relation opposite : α → α → Prop} {one two : Option α}
    (turn : ∀ {first second}, relation first second → opposite second first)
    (related : Option.Rel relation one two) : Option.Rel opposite two one :=
  rel_iff_forall₂.mpr ((rel_iff_forall₂.mp related).flip.imp fun _ _ => turn)

include alike in
theorem Source.Related.symm {one two : Source} (related : one.Related conditions two) :
    two.Related conditions one := by
  induction related with
  | table only => exact .table only
  | join kind right _ condition ih => exact .join kind right ih (alike condition)

include same in
theorem Projection.Related.symm {one two : Projection} (related : one.Related outside two) :
    two.Related outside one := by
  cases related with
  | all => exact .all
  | items listed => exact .items (listed.flip.imp fun _ _ item => ⟨same item.1, item.2.symm⟩)

include same alike in
theorem Select.Related.symm {one two : Select} (related : one.Related outside conditions two) :
    two.Related outside conditions one where
  distinct := related.distinct.symm
  projection := Projection.Related.symm same related.projection
  source := Source.Related.symm alike related.source
  definingFilter := Option.rel_symm alike related.definingFilter
  filter := Option.rel_symm alike related.filter
  groupBy := related.groupBy.flip.imp fun _ _ => same
  orderBy := related.orderBy.flip.imp fun _ _ key => ⟨same key.1, key.2.symm⟩
  page := Option.rel_symm (fun page => ⟨same page.1, Option.rel_symm same page.2⟩) related.page

include same alike in
theorem Query.RelatedParts.symm {one two : Query} (related : one.RelatedParts outside conditions two) :
    two.RelatedParts outside conditions one where
  first := Select.Related.symm same alike related.first
  unions := related.unions.flip.imp fun _ _ branch =>
    ⟨branch.1.symm, Select.Related.symm same alike branch.2⟩

end Symmetric

/-! ## What related queries have in common -/

section Shape

variable {outside conditions : Expr → Expr → Prop}

namespace Source.Related

variable {one two : Source} (related : one.Related conditions two)

theorem eq (related : one.Related Eq two) : one = two := by
  induction related with
  | table only => rfl
  | join kind right _ condition ih => rw [ih, condition]

include related

theorem tables : one.tables = two.tables := by
  induction related with
  | table only => rfl
  | join kind right _ _ ih => rw [Source.tables, Source.tables, ih]

theorem isJoin : one.isJoin = two.isJoin := by
  cases related <;> rfl

theorem leading : one.leading = two.leading := by
  induction related with
  | table only => rfl
  | join kind right _ _ ih => exact ih

theorem mapTables (change : Nat → TableName → TableName) :
    (one.mapTables change).Related conditions (two.mapTables change) := by
  induction related with
  | table only => exact .table _
  | join kind right left condition ih =>
    rw [Source.mapTables, Source.mapTables, left.tables]
    exact .join kind _ ih condition

theorem lowerTables (binding : Binding) :
    (binding.lowerTables one).Related conditions (binding.lowerTables two) :=
  related.mapTables _

end Source.Related

theorem Query.RelatedParts.parts {one two : Query} (related : one.RelatedParts outside conditions two) :
    List.Forall₂ (Select.Related outside conditions) one.parts two.parts := by
  apply List.Forall₂.cons related.first
  rw [List.forall₂_map_left_iff, List.forall₂_map_right_iff]
  exact related.unions.imp fun _ _ branch => branch.2

theorem Query.RelatedParts.isUnion {one two : Query}
    (related : one.RelatedParts outside conditions two) : one.isUnion = two.isUnion := by
  obtain ⟨_, _, unions⟩ := one
  obtain ⟨_, _, branches⟩ := two
  cases related.unions <;> rfl

theorem Query.Related.clause {one two : Query} (related : one.Related outside conditions two) :
    Option.Rel (List.Forall₂ (CommonTable.Related outside conditions)) one.commonTables
      two.commonTables := by
  obtain ⟨clause, _⟩ := related
  exact clause

theorem Query.Related.parts {one two : Query} (related : one.Related outside conditions two) :
    one.RelatedParts outside conditions two := by
  obtain ⟨_, parts⟩ := related
  exact parts

theorem Select.Related.eq_outside {one two : Select} (related : one.Related Eq conditions two) :
    two = { one with
      source := two.source, definingFilter := two.definingFilter, filter := two.filter } := by
  obtain ⟨distinct, projection, source, definingFilter, filter, groupBy, orderBy, page⟩ := one
  obtain ⟨distinct', projection', source', definingFilter', filter', groupBy', orderBy', page'⟩ := two
  obtain ⟨distincts, projections, _, _, _, groups, keys, pages⟩ := related
  have items : projection = projection' := by
    cases projections with
    | all => rfl
    | items listed =>
      have same := listed.imp fun (one two : SelectItem) (own : one.Related Eq two) =>
        show one = two by
          cases one
          cases two
          simp_all [SelectItem.Related]
      rw [List.forall₂_eq_eq_eq] at same
      rw [same]
  have ordered : orderBy = orderBy' := by
    have same := keys.imp fun (one two : SortKey) (own : one.Related Eq two) =>
      show one = two by
        cases one
        cases two
        simp_all [SortKey.Related]
    rwa [List.forall₂_eq_eq_eq] at same
  have window : page = page' := by
    cases pages with
    | none => rfl
    | @some one two own =>
      obtain ⟨limit, offset⟩ := one
      obtain ⟨limit', offset'⟩ := two
      have limits : limit = limit' := own.1
      have offsets : offset = offset' := Option.rel_eq own.2
      rw [limits, offsets]
  have grouped : groupBy = groupBy' := by
    rwa [List.forall₂_eq_eq_eq] at groups
  have repeated : distinct = distinct' := distincts
  rw [items, ordered, window, grouped, repeated]

end Shape

theorem Query.Related.induction {outside conditions : Expr → Expr → Prop}
    {motive : Query → Query → Prop}
    (step : ∀ one two : Query,
      Option.Rel (List.Forall₂ fun element other => element.name = other.name ∧
        element.columns = other.columns ∧ motive element.query other.query) one.commonTables
          two.commonTables →
      one.RelatedParts outside conditions two → motive one two)
    (one two : Query) (related : one.Related outside conditions two) : motive one two := by
  apply step one two _ related.parts
  apply Option.rel_imp related.clause
  intro elements given others listed
  apply ((List.forall₂_and_left _ _).mpr ⟨fun element member => member, listed⟩).imp
  rintro ⟨name, columns, inner⟩ ⟨_, _, other⟩ ⟨member, deeper⟩
  cases deeper with
  | mk _ _ query => exact ⟨rfl, rfl, induction step inner other query⟩
termination_by sizeOf one
decreasing_by exact Query.element_size given member

theorem Select.Related.eq {one two : Select} (related : one.Related Eq Eq two) : one = two := by
  have shape := related.eq_outside
  have sources : one.source = two.source := related.source.eq
  have defining := Option.rel_eq related.definingFilter
  have filters := Option.rel_eq related.filter
  rw [shape, ← sources, ← defining, ← filters]
  cases one
  rfl

theorem Query.Related.eq {one two : Query} (related : one.Related Eq Eq two) : one = two := by
  refine Query.Related.induction (motive := Eq) ?_ one two related
  rintro ⟨clause, first, unions⟩ ⟨clause', first', unions'⟩ clauses parts
  have elements : clause = clause' := by
    apply Option.rel_eq
    apply Option.rel_imp clauses
    intro list _ others listed
    rw [← List.forall₂_eq_eq_eq]
    apply listed.imp
    rintro ⟨name, columns, inner⟩ ⟨name', columns', inner'⟩ ⟨names, columnLists, queries⟩
    simp_all
  have branches : unions = unions' := by
    rw [← List.forall₂_eq_eq_eq]
    apply parts.unions.imp
    rintro ⟨all, select⟩ ⟨all', select'⟩ ⟨same, selects⟩
    have equal : select = select' := selects.eq
    simp_all
  have firsts : first = first' := parts.first.eq
  rw [elements, firsts, branches]

/-! ## Plans of related queries -/

inductive Plan.Related (outside conditions : Expr → Expr → Prop) : Plan → Plan → Prop where
  | plain (description : IndexDescription) {one two : Query} (clause : one.commonTables = none)
      (other : two.commonTables = none) (parts : one.RelatedParts outside conditions two) :
      Plan.Related outside conditions (.plain description one) (.plain description two)
  | layered (description : IndexDescription) (name : Identifier) {one two : Query} {inner deeper : Plan}
      (parts : one.RelatedParts outside conditions two)
      (inside : Plan.Related outside conditions inner deeper) :
      Plan.Related outside conditions (.layered description one name inner)
        (.layered description two name deeper)

theorem Plan.Related.symm {outside conditions : Expr → Expr → Prop}
    (same : ∀ {one two : Expr}, outside one two → outside two one)
    (alike : ∀ {one two : Expr}, conditions one two → conditions two one) {one two : Plan}
    (related : one.Related outside conditions two) : two.Related outside conditions one := by
  induction related with
  | plain description clause other parts =>
    exact .plain description other clause (Query.RelatedParts.symm same alike parts)
  | layered description name parts _ ih =>
    exact .layered description name (Query.RelatedParts.symm same alike parts) ih

theorem Plan.layOut_eq (lookup : List IndexDescription) (sqlContext : SqlContext)
    (context : BindingContext) (description : IndexDescription) (query : Query) :
    layOut lookup sqlContext context description query = (do
      let prepared ← description.prepareChecked sqlContext query
      match prepared.commonTables with
      | none => .ok (.plain description prepared)
      | some [element] => do
          let table ← TableId.parse element.query.first.source.leading.name
          let known ← description.dependency lookup table
          let entered ← known.enter context
          let inner ← layOut lookup sqlContext entered known element.query
          return .layered description prepared element.name inner
      | some _ => .error (.unsupported .commonTables)) := by
  rw [layOut]
  split
  · next failed => simp only [failed, bind, Except.bind]
  · next prepared prepares =>
      simp only [prepares, bind, Except.bind]
      split
      · next none => simp only [none]
      · next element clause =>
          simp only [clause]
          split
          · next failed => simp only [failed]
          · next table parsed =>
              simp only [parsed]
              split
              · next failed => simp only [failed]
              · next known found =>
                  simp only [found]
                  split
                  · next failed => simp only [failed]
                  · next entered enters =>
                      simp only [enters]
                      cases layOut lookup sqlContext entered known element.query <;> rfl
      · next many several clause =>
          rw [clause]
          split <;> simp_all

section Plans

variable {outside conditions : Expr → Expr → Prop} (same : ∀ expr, outside expr expr)
  (alike : ∀ expr, conditions expr expr)
  (conjoined : ∀ (own : Expr) {one two : Expr}, conditions one two →
    conditions (.and own.parenthesized one.parenthesized) (.and own.parenthesized two.parenthesized))

include same alike conjoined

namespace IndexDescription

theorem agree_narrow (defining : Query) {one two : Option Expr} (related : Option.Rel conditions one two) :
    Except.Agree (Query.Related outside conditions) (narrow defining one) (narrow defining two) := by
  cases related with
  | none => exact .ok (Query.Related.refl same alike defining)
  | @some condition other own =>
    simp only [narrow]
    split
    · exact .error _
    · have whole := Query.Related.refl same alike defining
      obtain ⟨clause, ⟨first, unions⟩⟩ := whole
      refine .ok (.mk clause ⟨{ first with filter := .some ?_ }, unions⟩)
      cases defining.first.filter with
      | none => exact own
      | some filter => exact conjoined filter own

theorem agree_expandQuery (id : TableId) (text : String) {one two : Query}
    (related : one.Related outside conditions two) :
    Except.Agree (Query.Related outside conditions) (expandQuery id text one)
      (expandQuery id text two) := by
  obtain ⟨clause, parts⟩ := related
  unfold expandQuery
  rw [parts.isUnion, parts.first.source.isJoin, Option.isSome_of_rel clause]
  apply Except.Agree.ite (.error _)
  apply Except.Agree.ite (.error _)
  apply Except.Agree.ite (.error _)
  apply Except.Agree.bind (.refl (fun _ => rfl) _)
  rintro defining _ _ _ rfl
  apply Except.Agree.bind (agree_narrow same alike conjoined defining parts.first.definingFilter)
  intro narrowed other _ _ inner
  refine .ok (.mk (.some (.cons (.mk _ _ inner) .nil)) ⟨?_, parts.unions⟩)
  exact { parts.first with definingFilter := .none }

theorem agree_prepareChecked (description : IndexDescription) (sqlContext : SqlContext) {one two : Query}
    (related : one.Related outside conditions two) :
    Except.Agree (Query.Related outside conditions) (description.prepareChecked sqlContext one)
      (description.prepareChecked sqlContext two) := by
  have stored : Except.Agree (Query.Related outside conditions)
      (if one.parts.any fun part => part.definingFilter.isSome then
        .error (CompileError.unsupported .definingFilter) else .ok one)
      (if two.parts.any fun part => part.definingFilter.isSome then
        .error (CompileError.unsupported .definingFilter) else .ok two) := by
    obtain ⟨clause, parts⟩ := related
    rw [any_eq_of_forall₂ parts.parts fun _ _ part => Option.isSome_of_rel part.definingFilter]
    exact .ite (.error _) (.ok (.mk clause parts))
  have prepared : Except.Agree (Query.Related outside conditions) (description.prepare one)
      (description.prepare two) := by
    cases description with
    | virtualTable id text => exact agree_expandQuery same alike conjoined id text related
    | _ => exact stored
  apply Except.Agree.bind prepared
  intro first second _ _ result
  have parts := result.parts
  have composed : description.checkComposition sqlContext first =
      description.checkComposition sqlContext second := by
    unfold checkComposition
    rw [parts.isUnion, any_eq_of_forall₂ parts.parts fun _ _ part => part.source.isJoin]
  rw [composed]
  apply Except.Agree.bind (.refl (fun _ => rfl) _)
  rintro _ _ _ _ rfl
  exact .ok result

end IndexDescription

theorem Plan.agree_layOut (lookup : List IndexDescription) (sqlContext : SqlContext)
    (context : BindingContext) (description : IndexDescription) (one two : Query)
    (related : one.Related outside conditions two) :
    Except.Agree (Plan.Related outside conditions) (layOut lookup sqlContext context description one)
      (layOut lookup sqlContext context description two) := by
  rw [layOut_eq, layOut_eq]
  apply Except.Agree.bind
    (IndexDescription.agree_prepareChecked same alike conjoined description sqlContext related)
  intro prepared other prepares _ result
  obtain ⟨clause, parts⟩ := result
  rcases given : prepared.commonTables with _ | elements
  all_goals rcases given' : other.commonTables with _ | others
  all_goals rw [given, given'] at clause
  · exact .ok (.plain description given given' parts)
  · cases clause
  · cases clause
  · cases clause with
    | some listed =>
      match listed with
      | .nil => exact .error _
      | .cons first (.cons _ _) => exact .error _
      | .cons (.mk name columns inner) .nil =>
        dsimp only
        rw [inner.parts.first.source.leading]
        apply Except.Agree.bind (.refl (fun _ => rfl) _)
        rintro table _ _ _ rfl
        apply Except.Agree.bind (.refl (fun _ => rfl) _)
        rintro known _ found _ rfl
        apply Except.Agree.bind (.refl (fun _ => rfl) _)
        rintro entered _ enters _ rfl
        apply Except.Agree.bind
          (agree_layOut lookup sqlContext entered known _ _ inner)
        intro plan deeper _ _ inside
        exact .ok (.layered description name parts inside)
termination_by (unexpanded lookup context, if description.isVirtual then 1 else 0, sizeOf one)
decreasing_by exact layOut_decreases prepares given found enters

theorem Plan.agree_ofStatement (lookup : List IndexDescription) (sqlContext : SqlContext)
    (context : BindingContext) (description : IndexDescription) {one two : Query}
    (related : one.Related outside conditions two) :
    Except.Agree (Plan.Related outside conditions)
      (ofStatement lookup sqlContext context description one)
      (ofStatement lookup sqlContext context description two) := by
  apply Except.Agree.bind (.refl (fun _ => rfl) _)
  rintro entered _ _ _ rfl
  exact agree_layOut same alike conjoined lookup sqlContext entered description one two related

end Plans

end TabularSql
