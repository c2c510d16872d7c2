import Mathlib.Data.List.Forall2

/-!
# Outcomes of steps that can fail

What is known when a step has succeeded, how the results of a list of steps relate to what they were
made from, and when two steps have the same outcome, with or without regard to the error.
-/

namespace TabularSql

set_option autoImplicit false

variable {α β γ ε : Type} {first : Except ε α} {relation : α → β → Prop} {left : List α} {right : List β}

theorem Except.of_bind {next : α → Except ε β} {result : β} (ok : (first >>= next) = .ok result) :
    ∃ value, first = .ok value ∧ next value = .ok result := by
  cases first with
  | error problem => cases ok
  | ok value => exact ⟨value, rfl, ok⟩

theorem Except.of_map {change : α → β} {result : β} (ok : first.map change = .ok result) :
    ∃ value, first = .ok value ∧ change value = result := by
  cases first with
  | error problem => cases ok
  | ok value => exact ⟨value, rfl, Except.ok.inj ok⟩

theorem Except.of_mapError {δ : Type} {change : ε → δ} {result : α}
    (ok : first.mapError change = .ok result) : first = .ok result := by
  cases first with
  | error problem => cases ok
  | ok value => rw [Except.ok.inj ok]

theorem Except.of_shown {view : α → β} {shown : β} (known : first.toOption.map view = some shown) :
    ∃ value, first = .ok value ∧ view value = shown := by
  cases first with
  | error problem => cases known
  | ok value => exact ⟨value, rfl, Option.some.inj known⟩

theorem Except.of_failed {problem : ε} (failed : (first.map fun _ => ()) = .error problem) :
    first = .error problem := by
  cases first with
  | error other => rw [Except.error.inj failed]
  | ok value => cases failed

theorem Except.forall₂_of_mapM {step : α → Except ε β} {items : List α} {results : List β}
    (ok : items.mapM step = .ok results) :
    List.Forall₂ (fun item result => step item = .ok result) items results := by
  induction items generalizing results with
  | nil =>
    cases ok
    exact .nil
  | cons item items ih =>
    rw [List.mapM_cons] at ok
    obtain ⟨first, own, ok⟩ := Except.of_bind ok
    obtain ⟨rest, others, ok⟩ := Except.of_bind ok
    cases ok
    exact .cons own (ih others)

theorem forall₂_right {property : β → Prop} (pairs : List.Forall₂ relation left right)
    (each : ∀ item ∈ left, ∀ result, relation item result → property result) :
    ∀ result ∈ right, property result := by
  induction pairs with
  | nil => simp
  | cons own _ ih =>
    intro result member
    rcases List.mem_cons.mp member with rfl | behind
    · exact each _ (by simp) result own
    · exact ih (fun item listed => each item (by simp [listed])) result behind

theorem forall₂_left (pairs : List.Forall₂ relation left right) :
    ∀ item ∈ left, ∃ result ∈ right, relation item result := by
  induction pairs with
  | nil => simp
  | cons own _ ih =>
    intro item member
    rcases List.mem_cons.mp member with rfl | behind
    · exact ⟨_, List.mem_cons_self, own⟩
    · obtain ⟨result, listed, related⟩ := ih item behind
      exact ⟨result, List.mem_cons_of_mem _ listed, related⟩

theorem forall₂_getElem? (pairs : List.Forall₂ relation left right) {index : Nat} {item : α}
    (listed : left[index]? = some item) :
    ∃ result, right[index]? = some result ∧ relation item result := by
  induction pairs generalizing index with
  | nil => cases listed
  | cons own _ ih =>
    cases index with
    | zero =>
      cases listed
      exact ⟨_, rfl, own⟩
    | succ index => exact ih listed

theorem forall₂_compose {first : α → β → Prop} {second : β → γ → Prop} {whole : α → γ → Prop}
    {middle : List β} {right : List γ} (pairs : List.Forall₂ first left middle)
    (others : List.Forall₂ second middle right)
    (each : ∀ item ∈ left, ∀ between result, first item between → second between result →
      whole item result) : List.Forall₂ whole left right := by
  induction pairs generalizing right with
  | nil =>
    cases others
    exact .nil
  | cons own _ ih =>
    cases others with
    | cons next rest =>
      exact .cons (each _ (by simp) _ _ own next)
        (ih rest fun item listed => each item (by simp [listed]))

theorem map_eq_of_forall₂ {change : α → γ} {other : β → γ} (pairs : List.Forall₂ relation left right)
    (each : ∀ item result, relation item result → change item = other result) :
    left.map change = right.map other := by
  induction pairs with
  | nil => rfl
  | cons own _ ih => rw [List.map_cons, List.map_cons, each _ _ own, ih]

theorem eq_map_of_forall₂ {change : α → β} {items : List α} {results : List β}
    (pairs : List.Forall₂ (fun item result => result = change item) items results) :
    results = items.map change := by
  induction pairs with
  | nil => rfl
  | cons own _ ih => rw [own, ih, List.map_cons]

theorem any_eq_of_forall₂ {test : α → Bool} {other : β → Bool}
    (pairs : List.Forall₂ relation left right)
    (each : ∀ item result, relation item result → test item = other result) :
    left.any test = right.any other := by
  induction pairs with
  | nil => rfl
  | cons own _ ih => rw [List.any_cons, List.any_cons, each _ _ own, ih]

/-! ## Two outcomes -/

/-- Both steps fail with the same error, or both succeed with related results. -/
inductive Except.Agree {α β ε : Type} (related : α → β → Prop) : Except ε α → Except ε β → Prop where
  | error (problem : ε) : Except.Agree related (.error problem) (.error problem)
  | ok {one : α} {two : β} (results : related one two) : Except.Agree related (.ok one) (.ok two)

namespace Except.Agree

variable {α β γ δ ε : Type} {one : Except ε α} {two : Except ε β} {related : α → β → Prop}

theorem refl {related : α → α → Prop} (same : ∀ value, related value value) (given : Except ε α) :
    Except.Agree related given given := by
  cases given with
  | error problem => exact .error problem
  | ok value => exact .ok (same value)

theorem mono {weaker : α → β → Prop} (agree : Except.Agree related one two)
    (weaken : ∀ first second, related first second → weaker first second) :
    Except.Agree weaker one two := by
  cases agree with
  | error problem => exact .error problem
  | ok results => exact .ok (weaken _ _ results)

theorem of_ok (agree : Except.Agree related one two) {left : α} (ok : one = .ok left) :
    ∃ right, two = .ok right ∧ related left right := by
  cases agree with
  | error problem => cases ok
  | ok results =>
    cases ok
    exact ⟨_, rfl, results⟩

theorem map_unit (agree : Except.Agree related one two) :
    one.map (fun _ => ()) = two.map fun _ => () := by
  cases agree <;> rfl

theorem symm (agree : Except.Agree related one two) :
    Except.Agree (fun second first => related first second) two one := by
  cases agree with
  | error problem => exact .error problem
  | ok results => exact .ok results

theorem trans {three : Except ε γ} {first : α → β → Prop} {second : β → γ → Prop}
    {whole : α → γ → Prop} (agree : Except.Agree first one two) (others : Except.Agree second two three)
    (compose : ∀ {left middle right}, first left middle → second middle right → whole left right) :
    Except.Agree whole one three := by
  cases agree with
  | error problem =>
    cases others
    exact .error problem
  | ok results =>
    cases others with
    | ok behind => exact .ok (compose results behind)

theorem ite {test : Prop} [Decidable test] {other : Except ε α} {another : Except ε β}
    (yes : Except.Agree related one two) (no : Except.Agree related other another) :
    Except.Agree related (if test then one else other) (if test then two else another) := by
  by_cases holds : test
  · rwa [if_pos holds, if_pos holds]
  · rwa [if_neg holds, if_neg holds]

theorem bind {between : α → β → Prop} {related : γ → δ → Prop} {next : α → Except ε γ}
    {other : β → Except ε δ} (first : Except.Agree between one two)
    (second : ∀ left right, one = .ok left → two = .ok right → between left right →
      Except.Agree related (next left) (other right)) :
    Except.Agree related (one >>= next) (two >>= other) := by
  cases first with
  | error problem => exact .error problem
  | ok results => exact second _ _ rfl rfl results

theorem mapM {pairs : α → β → Prop} {related : γ → δ → Prop} {step : α → Except ε γ}
    {other : β → Except ε δ} {items : List α} {others : List β}
    (listed : List.Forall₂ pairs items others)
    (each : ∀ item pair, pairs item pair → Except.Agree related (step item) (other pair)) :
    Except.Agree (List.Forall₂ related) (items.mapM step) (others.mapM other) := by
  induction listed with
  | nil => exact .ok .nil
  | cons own _ ih =>
    rw [List.mapM_cons, List.mapM_cons]
    apply bind (each _ _ own)
    intro first second _ _ heads
    apply bind ih
    intro rest behind _ _ tails
    exact .ok (.cons heads tails)

end Except.Agree

/-- Both steps fail, or both succeed with related results. -/
inductive Except.Alike {α β ε : Type} (related : α → β → Prop) : Except ε α → Except ε β → Prop where
  | error (problem other : ε) : Except.Alike related (.error problem) (.error other)
  | ok {one : α} {two : β} (results : related one two) : Except.Alike related (.ok one) (.ok two)

namespace Except.Alike

variable {α β γ δ ε : Type} {one : Except ε α} {two : Except ε β}

theorem refl {related : α → α → Prop} (same : ∀ value, related value value) (given : Except ε α) :
    Except.Alike related given given := by
  cases given with
  | error problem => exact .error problem problem
  | ok value => exact .ok (same value)

theorem bind {between : α → β → Prop} {related : γ → δ → Prop} {next : α → Except ε γ}
    {other : β → Except ε δ} (first : Except.Alike between one two)
    (second : ∀ left right, one = .ok left → between left right →
      Except.Alike related (next left) (other right)) :
    Except.Alike related (one >>= next) (two >>= other) := by
  cases first with
  | error problem another => exact .error problem another
  | ok results => exact second _ _ rfl results

theorem mono {related weaker : α → β → Prop} (alike : Except.Alike related one two)
    (weaken : ∀ left right, related left right → weaker left right) : Except.Alike weaker one two := by
  cases alike with
  | error problem other => exact .error problem other
  | ok results => exact .ok (weaken _ _ results)

theorem of_ok {related : α → β → Prop} (alike : Except.Alike related one two) {left : α}
    (ok : one = .ok left) : ∃ right, two = .ok right ∧ related left right := by
  cases alike with
  | error problem other => cases ok
  | ok results =>
    cases ok
    exact ⟨_, rfl, results⟩

theorem ite {related : α → β → Prop} {test : Prop} [Decidable test] {other : Except ε α}
    {another : Except ε β} (yes : Except.Alike related one two)
    (no : Except.Alike related other another) :
    Except.Alike related (if test then one else other) (if test then two else another) := by
  by_cases holds : test
  · rwa [if_pos holds, if_pos holds]
  · rwa [if_neg holds, if_neg holds]

theorem mapM {pairs : α → β → Prop} {related : γ → δ → Prop} {step : α → Except ε γ}
    {other : β → Except ε δ} {items : List α} {others : List β}
    (listed : List.Forall₂ pairs items others)
    (each : ∀ item pair, pairs item pair → Except.Alike related (step item) (other pair)) :
    Except.Alike (List.Forall₂ related) (items.mapM step) (others.mapM other) := by
  induction listed with
  | nil => exact .ok .nil
  | cons own _ ih =>
    rw [List.mapM_cons, List.mapM_cons]
    apply bind (each _ _ own)
    intro first second _ heads
    apply bind ih
    intro rest behind _ tails
    exact .ok (.cons heads tails)

end Except.Alike

end TabularSql
