import TabularSql.Proofs.Lowering.Steps

/-!
# Two lowerings side by side

Two lowering steps are compared by running them from states that differ at most in the values bound so
far. They match if they fail alike or give related results, and leave such states again. As many values
are bound on both sides, so placeholders get the same names; which values are bound in the place of one
another is up to the relation `same`.
-/

namespace TabularSql

set_option autoImplicit false

/-- The states are equal, except that the bound values are related one by one. -/
structure LoweringState.Paired (same : ParameterValue → ParameterValue → Prop)
    (one two : LoweringState) : Prop where
  userId : one.context.userId = two.context.userId
  expanding : one.context.expanding = two.context.expanding
  values : List.Forall₂ same one.context.parameters.values two.context.parameters.values
  unnested : one.unnested = two.unnested
  searches : one.searches = two.searches

namespace LoweringState.Paired

variable {same : ParameterValue → ParameterValue → Prop} {one middle two : LoweringState}

theorem refl (values : ∀ value, same value value) (state : LoweringState) : state.Paired same state :=
  ⟨rfl, rfl, List.forall₂_same.mpr fun value _ => values value, rfl, rfl⟩

theorem symm (values : ∀ {value other}, same value other → same other value)
    (paired : one.Paired same two) : two.Paired same one :=
  ⟨paired.userId.symm, paired.expanding.symm,
    (List.Forall₂.flip paired.values).imp fun _ _ => values, paired.unnested.symm,
    paired.searches.symm⟩

theorem trans (values : ∀ {value other third}, same value other → same other third → same value third)
    (first : one.Paired same middle) (second : middle.Paired same two) : one.Paired same two :=
  ⟨first.userId.trans second.userId, first.expanding.trans second.expanding,
    forall₂_compose first.values second.values fun _ _ _ _ => values,
    first.unnested.trans second.unnested, first.searches.trans second.searches⟩

theorem eq (paired : one.Paired Eq two) : one = two := by
  obtain ⟨⟨userId, ⟨values⟩, expanding⟩, unnested, searches⟩ := one
  obtain ⟨⟨userId', ⟨values'⟩, expanding'⟩, unnested', searches'⟩ := two
  obtain ⟨user, chain, bound, lists, searching⟩ := paired
  have values : values = values' := by simpa using bound
  simp_all

end LoweringState.Paired

namespace Lowering

variable {α β γ δ : Type} {same : ParameterValue → ParameterValue → Prop}

variable {related : α → β → Prop} {one : Lowering α} {next : α → Lowering γ} {other : β → Lowering δ}

/-- From paired states both steps fail with the same error or give related results, and the states stay
paired. -/
def Matches (same : ParameterValue → ParameterValue → Prop) (one : Lowering α) (two : Lowering β)
    (related : α → β → Prop) : Prop :=
  ∀ first second : LoweringState, first.Paired same second →
    (one.run first).2.Paired same (two.run second).2 ∧
      Except.Agree related (one.run first).1 (two.run second).1

theorem matches_pure {one : α} {two : β} (results : related one two) :
    Matches same (pure one) (pure two) related :=
  fun _ _ paired => ⟨paired, .ok results⟩

theorem matches_bind {two : Lowering β} {between : α → β → Prop} {related : γ → δ → Prop}
    (first : Matches same one two between)
    (second : ∀ left right, between left right → Matches same (next left) (other right) related) :
    Matches same (one >>= next) (two >>= other) related := by
  intro start begin paired
  obtain ⟨states, outcomes⟩ := first start begin paired
  rw [run_bind_eq, run_bind_eq]
  rcases ran : one.run start with ⟨result, state⟩
  rcases other_ran : two.run begin with ⟨result', state'⟩
  rw [ran, other_ran] at states outcomes
  cases outcomes with
  | error problem => exact ⟨states, .error problem⟩
  | ok results => exact second _ _ results state state' states

theorem Matches.mono {two : Lowering β} {weaker : α → β → Prop} (matched : Matches same one two related)
    (weaken : ∀ left right, related left right → weaker left right) : Matches same one two weaker :=
  fun first second paired => (matched first second paired).imp_right fun outcomes => outcomes.mono weaken

/-- From one state both steps succeed as soon as one of them does. -/
theorem Matches.of_run {two : Lowering β} (matched : Matches same one two related)
    (values : ∀ value, same value value) {state after : LoweringState} {left : α}
    (ran : one.run state = (.ok left, after)) :
    ∃ right other, two.run state = (.ok right, other) ∧ related left right := by
  have outcomes := (matched state state (.refl values state)).2
  rcases other_ran : two.run state with ⟨result, other⟩
  rw [ran, other_ran] at outcomes
  cases outcomes with
  | ok results => exact ⟨_, other, rfl, results⟩

theorem matches_then {two : Lowering α} {other : α → Lowering δ} {related : γ → δ → Prop}
    (first : Matches same one two Eq)
    (second : ∀ value, Matches same (next value) (other value) related) :
    Matches same (one >>= next) (two >>= other) related := by
  apply matches_bind first
  rintro value _ rfl
  exact second value

theorem matches_lift {one : Except CompileError α} {two : Except CompileError β}
    (agree : Except.Agree related one two) :
    Matches same (lift one) (lift two) related := by
  intro first second paired
  cases agree with
  | error problem => exact ⟨paired, .error problem⟩
  | ok results => exact ⟨paired, .ok results⟩

theorem matches_after {one : Except CompileError α} {two : Except CompileError β} {between : α → β → Prop}
    {related : γ → δ → Prop} (first : Except.Agree between one two)
    (second : ∀ left right, one = .ok left → two = .ok right → between left right →
      Matches same (next left) (other right) related) :
    Matches same (lift one >>= next) (lift two >>= other) related := by
  cases first with
  | error problem => exact fun _ _ paired => ⟨paired, .error problem⟩
  | ok results => exact second _ _ rfl rfl results

theorem matches_throw (problem : CompileError) :
    Matches same (throw problem) (throw problem) related :=
  fun _ _ paired => ⟨paired, .error problem⟩

theorem matches_modify {change : LoweringState → LoweringState}
    (keeps : ∀ first second : LoweringState, first.Paired same second →
      (change first).Paired same (change second)) :
    Matches same (modify change) (modify change) Eq :=
  fun first second paired => ⟨keeps first second paired, .ok rfl⟩

theorem matches_noteSearch : Matches same noteSearch noteSearch Eq :=
  matches_modify fun _ _ paired => { paired with searches := rfl }

theorem matches_noteUnnested (column : ListColumn) :
    Matches same (noteUnnested column) (noteUnnested column) Eq := by
  apply matches_modify
  intro first second paired
  have lists := paired.unnested
  by_cases known : column ∈ first.unnested
  · rwa [if_pos known, if_pos (lists ▸ known)]
  · rw [if_neg known, if_neg (lists ▸ known)]
    exact { paired with unnested := by simp [lists] }

theorem matches_get : Matches same get get (LoweringState.Paired same) :=
  fun _ _ paired => ⟨paired, .ok paired⟩

theorem matches_bound {value other : ParameterValue} (values : same value other) :
    Matches same (bind value) (bind other) Eq := by
  intro first second paired
  have count := paired.values.length_eq
  refine ⟨⟨paired.userId, paired.expanding, ?_, paired.unnested, paired.searches⟩, ?_⟩
  · exact List.rel_append paired.values (.cons values .nil)
  · show Except.Agree Eq (.ok (Expr.parameter (placeholderName _))) (.ok (Expr.parameter _))
    rw [count]
    exact .ok rfl

theorem matches_mapM {pairs : α → β → Prop} {related : γ → δ → Prop} {step : α → Lowering γ}
    {items : List α} {others : List β} (listed : List.Forall₂ pairs items others)
    (each : ∀ item pair, pairs item pair → Matches same (step item) (other pair) related) :
    Matches same (items.mapM step) (others.mapM other) fun results behind =>
      results.length = items.length ∧ List.Forall₂ related results behind := by
  induction listed with
  | nil => exact matches_pure ⟨rfl, .nil⟩
  | cons own _ ih =>
    rw [List.mapM_cons, List.mapM_cons]
    apply matches_bind (each _ _ own)
    intro first second heads
    apply matches_bind ih
    intro rest behind tails
    exact matches_pure ⟨by simp [tails.1], .cons heads tails.2⟩

theorem matches_mapM_same {step other : α → Lowering β} {items : List α}
    (each : ∀ item ∈ items, Matches same (step item) (other item) Eq) :
    Matches same (items.mapM step) (items.mapM other) Eq := by
  induction items with
  | nil => exact matches_pure rfl
  | cons item items ih =>
    rw [List.mapM_cons, List.mapM_cons]
    apply matches_then (each item List.mem_cons_self)
    intro first
    apply matches_then (ih fun other member => each other (List.mem_cons_of_mem _ member))
    intro rest
    exact matches_pure rfl

theorem matches_optional {step other : α → Lowering β} {optional : Option α}
    (each : ∀ item ∈ optional, Matches same (step item) (other item) Eq) :
    Matches same (optional.mapM step) (optional.mapM other) Eq := by
  cases optional with
  | none => exact matches_pure rfl
  | some item =>
    show Matches same (some <$> step item) (some <$> other item) Eq
    rw [map_eq_pure_bind, map_eq_pure_bind]
    exact matches_then (each item rfl) fun value => matches_pure rfl

theorem Matches.symm {two : Lowering α} (equivalent : Equivalence same)
    (matched : Matches same one two Eq) : Matches same two one Eq := by
  intro first second paired
  obtain ⟨states, outcomes⟩ := matched second first (paired.symm equivalent.symm)
  exact ⟨states.symm equivalent.symm, outcomes.symm.mono fun _ _ same => same.symm⟩

theorem Matches.trans {middle two : Lowering α} {related : α → α → Prop} (equivalent : Equivalence same)
    (transitive : ∀ {first second third}, related first second → related second third →
      related first third) (first : Matches same one middle related)
    (second : Matches same middle two related) : Matches same one two related := by
  intro start begin paired
  obtain ⟨states, outcomes⟩ := first start start (.refl equivalent.refl start)
  obtain ⟨states', outcomes'⟩ := second start begin paired
  exact ⟨states.trans equivalent.trans states', outcomes.trans outcomes' transitive⟩

theorem matches_self {related : α → α → Prop} (reflexive : ∀ value, related value value)
    (step : Lowering α) : Matches Eq step step related := by
  intro first second paired
  obtain rfl := paired.eq
  exact ⟨.refl (fun _ => rfl) _, .refl reflexive _⟩

end Lowering

end TabularSql
