import TabularSql.Context
import TabularSql.Description

/-!
# Plans

A statement reads its tables directly or through one common table, whose query again is a statement
over another object. A plan is the statement with these queries laid out one inside the other. Virtual
tables bring their defining queries along; a virtual table that is met while it is being expanded is an
error, so laying out ends for every lookup, cyclic ones included.
-/

namespace TabularSql

set_option autoImplicit false

/-- A statement and the queries of its common tables. -/
inductive Plan where
  | plain (description : IndexDescription) (query : Query)
  | layered (description : IndexDescription) (query : Query) (name : Identifier) (inner : Plan)

namespace Source

def leading : Source → TableName
  | table only => only
  | join left .. => left.leading

end Source

namespace IndexDescription

def enter (description : IndexDescription) (context : BindingContext) :
    Except CompileError BindingContext :=
  if description.isVirtual then context.enter description.id else .ok context

/-- Joins and unions are only for objects that support them. -/
def checkComposition (description : IndexDescription) (sqlContext : SqlContext) (query : Query) :
    Except CompileError Unit :=
  if description.supportsComposition sqlContext then .ok ()
  else if query.isUnion then .error (.unsupported .union)
  else if query.parts.any fun part => part.source.isJoin then .error (.unsupported .join)
  else .ok ()

/-- The query as it is compiled, if its parts may be composed as they are. -/
def prepareChecked (description : IndexDescription) (sqlContext : SqlContext) (query : Query) :
    Except CompileError Query := do
  let prepared ← description.prepare query
  description.checkComposition sqlContext prepared
  return prepared

end IndexDescription

namespace Plan

def unexpanded (lookup : List IndexDescription) (context : BindingContext) : Nat :=
  (lookup.filter fun description => description.id ∉ context.expanding).length

theorem mem_of_dependency {description known : IndexDescription} {lookup : List IndexDescription}
    {table : TableId} (isVirtual : description.isVirtual = true)
    (found : description.dependency lookup table = .ok known) : known ∈ lookup := by
  unfold IndexDescription.dependency at found
  rw [if_pos isVirtual] at found
  split at found
  · next hit => cases found; exact List.mem_of_find?_eq_some hit
  · cases found

theorem enter_virtual {description : IndexDescription} {context entered : BindingContext}
    (isVirtual : description.isVirtual = true) (ok : description.enter context = .ok entered) :
    description.id ∉ context.expanding ∧
      entered.expanding = context.expanding ++ [description.id] := by
  unfold IndexDescription.enter BindingContext.enter at ok
  rw [if_pos isVirtual] at ok
  split at ok
  · cases ok
  · next fresh => cases ok; exact ⟨fresh, rfl⟩

theorem enter_stored {description : IndexDescription} {context entered : BindingContext}
    (isStored : description.isVirtual = false) (ok : description.enter context = .ok entered) :
    entered = context := by
  unfold IndexDescription.enter at ok
  rw [if_neg (by simp [isStored])] at ok
  cases ok
  rfl

/-- Entering an object of the lookup leaves fewer objects to expand. -/
theorem unexpanded_enter {lookup : List IndexDescription} {known : IndexDescription}
    {context entered : BindingContext} (isVirtual : known.isVirtual = true)
    (member : known ∈ lookup) (ok : known.enter context = .ok entered) :
    unexpanded lookup entered < unexpanded lookup context := by
  obtain ⟨fresh, chain⟩ := enter_virtual isVirtual ok
  have narrowed : lookup.filter (fun description => description.id ∉ entered.expanding) =
      (lookup.filter fun description => description.id ∉ context.expanding).filter
        fun description => description.id ≠ known.id := by
    rw [List.filter_filter]
    congr 1
    funext description
    by_cases same : description.id = known.id <;> simp [chain, same]
  unfold unexpanded
  rw [narrowed]
  refine List.length_filter_lt_length_iff_exists.mpr ⟨known, ?_, by simp⟩
  exact List.mem_filter.mpr ⟨member, by simpa using fresh⟩

theorem dependency_of_stored {description known : IndexDescription}
    {lookup : List IndexDescription} {table : TableId} (isStored : description.isVirtual = false)
    (found : description.dependency lookup table = .ok known) : known = .table table := by
  unfold IndexDescription.dependency at found
  rw [if_neg (by simp [isStored])] at found
  cases found
  rfl

theorem prepareChecked_stored {description : IndexDescription} {sqlContext : SqlContext}
    {query prepared : Query} (isStored : description.isVirtual = false)
    (ok : description.prepareChecked sqlContext query = .ok prepared) : prepared = query := by
  have unchanged : ∀ result, description.prepare query = .ok result → result = query := by
    intro result given
    cases description with
    | virtualTable => simp [IndexDescription.isVirtual] at isStored
    | _ =>
        simp only [IndexDescription.prepare] at given
        split at given <;> simp_all
  simp only [IndexDescription.prepareChecked, bind, Except.bind, pure, Except.pure] at ok
  split at ok
  · cases ok
  · next result given =>
      split at ok
      · cases ok
      · cases ok
        exact unchanged _ given

theorem sizeOf_commonTable {query : Query} {element : CommonTable}
    (clause : query.commonTables = some [element]) : sizeOf element.query < sizeOf query := by
  obtain ⟨commonTables, first, unions⟩ := query
  obtain ⟨name, columns, inner⟩ := element
  simp only at clause
  subst clause
  simp
  omega

/-- The measure by which laying out ends: objects left to expand, then whether the object is virtual,
then the size of the query. -/
theorem layOut_decreases {lookup : List IndexDescription} {sqlContext : SqlContext}
    {context entered : BindingContext} {description known : IndexDescription}
    {query prepared : Query} {element : CommonTable} {table : TableId}
    (prepares : description.prepareChecked sqlContext query = .ok prepared)
    (clause : prepared.commonTables = some [element])
    (found : description.dependency lookup table = .ok known)
    (enters : known.enter context = .ok entered) :
    Prod.Lex (· < ·) (Prod.Lex (· < ·) (· < ·))
      (unexpanded lookup entered, if known.isVirtual then 1 else 0, sizeOf element.query)
      (unexpanded lookup context, if description.isVirtual then 1 else 0, sizeOf query) := by
  cases virtual : description.isVirtual with
  | true =>
      cases knownVirtual : known.isVirtual with
      | true =>
          exact .left _ _ (unexpanded_enter knownVirtual (mem_of_dependency virtual found) enters)
      | false =>
          rw [enter_stored knownVirtual enters]
          exact .right _ (.left _ _ (by simp))
  | false =>
      obtain rfl := dependency_of_stored virtual found
      obtain rfl := prepareChecked_stored virtual prepares
      rw [enter_stored rfl enters]
      exact .right _ (.right _ (sizeOf_commonTable clause))

def layOut (lookup : List IndexDescription) (sqlContext : SqlContext) (context : BindingContext)
    (description : IndexDescription) (query : Query) : Except CompileError Plan :=
  match _prepared : description.prepareChecked sqlContext query with
  | .error error => .error error
  | .ok prepared =>
      match _clause : prepared.commonTables with
      | none => .ok (.plain description prepared)
      | some [element] =>
          match TableId.parse element.query.first.source.leading.name with
          | .error error => .error error
          | .ok table =>
              match _found : description.dependency lookup table with
              | .error error => .error error
              | .ok known =>
                  match _entered : known.enter context with
                  | .error error => .error error
                  | .ok context =>
                      (layOut lookup sqlContext context known element.query).map
                        (.layered description prepared element.name)
      | some _ => .error (.unsupported .commonTables)
termination_by (unexpanded lookup context, if description.isVirtual then 1 else 0, sizeOf query)
decreasing_by exact layOut_decreases (by assumption) (by assumption) (by assumption) (by assumption)

def ofStatement (lookup : List IndexDescription) (sqlContext : SqlContext)
    (context : BindingContext) (description : IndexDescription) (query : Query) :
    Except CompileError Plan := do
  let entered ← description.enter context
  layOut lookup sqlContext entered description query

end Plan

end TabularSql
