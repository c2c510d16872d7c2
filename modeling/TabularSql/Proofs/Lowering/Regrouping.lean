import TabularSql.Proofs.Lexeme
import TabularSql.Proofs.Lowering.Parallel

/-!
# Regrouped conjunctions

A conjunction is written without a sign of how its operands are grouped, and it is lowered operand by
operand. Grouping it in another way changes neither its text nor the values that are bound for it, so a
query with regrouped conditions is compiled to the same text with the same values.
-/

namespace TabularSql

set_option autoImplicit false

/-- Conditions that are equal up to the grouping of conjunctions. -/
inductive Expr.Regrouped : Expr → Expr → Prop where
  | refl (expr : Expr) : Expr.Regrouped expr expr
  | assoc (first second third : Expr) :
      Expr.Regrouped (.and first (.and second third)) (.and (.and first second) third)
  | and {left right left' right' : Expr} (first : Expr.Regrouped left left')
      (second : Expr.Regrouped right right') : Expr.Regrouped (.and left right) (.and left' right')
  | nested {inner inner' : Expr} (within : Expr.Regrouped inner inner') :
      Expr.Regrouped (.nested inner) (.nested inner')
  | trans {one middle two : Expr} (first : Expr.Regrouped one middle)
      (second : Expr.Regrouped middle two) : Expr.Regrouped one two

theorem Expr.text_and (left right : Expr) :
    (Expr.and left right).text = left.text ++ BinaryOperator.and.spacedText ++ right.text :=
  rfl

theorem Expr.text_nested (inner : Expr) : (Expr.nested inner).text = "( " ++ inner.text ++ " )" :=
  rfl

namespace Expr.Regrouped

theorem text {one two : Expr} (regrouped : one.Regrouped two) : one.text = two.text := by
  induction regrouped with
  | refl => rfl
  | assoc first second third =>
    generalize separator : BinaryOperator.and.spacedText = between
    simp only [text_and, separator, String.append_assoc]
  | and _ _ left right => rw [text_and, text_and, left, right]
  | nested _ ih => rw [text_nested, text_nested, ih]
  | trans _ _ first second => exact first.trans second

theorem parenthesized {one two : Expr} (regrouped : one.Regrouped two) :
    one.parenthesized.Regrouped two.parenthesized := by
  induction regrouped with
  | refl expr => exact .refl _
  | assoc first second third => exact .nested (.assoc first second third)
  | and first second => exact .nested (.and first second)
  | nested within => exact .nested within
  | trans _ _ first second => exact .trans first second

theorem foldl {one two : Expr} (regrouped : one.Regrouped two) (behind : List Expr) :
    (behind.foldl Expr.and one).Regrouped (behind.foldl Expr.and two) := by
  induction behind generalizing one two with
  | nil => exact regrouped
  | cons next behind ih => exact ih (.and regrouped (.refl next))

theorem foldl_behind (first second : Expr) (behind : List Expr) :
    (Expr.and first (behind.foldl Expr.and second)).Regrouped
      (behind.foldl Expr.and (.and first second)) := by
  induction behind generalizing second with
  | nil => exact .refl _
  | cons next behind ih => exact .trans (ih (.and second next)) (foldl (.assoc first second next) behind)

end Expr.Regrouped

/-! ## Lowering -/

theorem Position.comparedWith_none (position : Position) :
    (position.comparedWith none).comparedWith none = position.comparedWith none := by
  cases position <;> rfl

namespace Lowering

theorem lower_and (scope : Scope) (position : Position) (left right : Expr) :
    (Expr.and left right).lower scope position = (do
      let first ← left.lower scope (position.comparedWith none)
      let second ← right.lower scope (position.comparedWith none)
      return .and first second) := by
  rfl

theorem matches_regrouped (scope : Scope) {one two : Expr} (regrouped : one.Regrouped two)
    (position : Position) :
    Matches Eq (one.lower scope position) (two.lower scope position) Expr.Regrouped := by
  induction regrouped generalizing position with
  | refl expr => exact matches_self .refl _
  | assoc first second third =>
    -- The three operands are lowered in one order; only the trees made of the results differ.
    simp only [lower_and, Position.comparedWith_none, bind_assoc, pure_bind]
    apply matches_then (matches_self (fun _ => rfl) _)
    intro left
    apply matches_then (matches_self (fun _ => rfl) _)
    intro middle
    apply matches_then (matches_self (fun _ => rfl) _)
    intro right
    exact matches_pure (.assoc left middle right)
  | and _ _ left right =>
    rw [lower_and, lower_and]
    apply matches_bind (left _)
    intro first first' own
    apply matches_bind (right _)
    intro second second' behind
    exact matches_pure (.and own behind)
  | nested _ ih =>
    apply matches_bind (ih position)
    intro inner inner' within
    exact matches_pure (.nested within)
  | trans _ _ first second => exact (first position).trans eq_equivalence .trans (second position)

theorem parallel_regrouped : Parallel Eq Expr.Regrouped Expr.Regrouped where
  value := fun _ => rfl
  expr := fun _ _ _ => matches_self (fun _ => rfl) _
  condition := fun scope _ _ regrouped => matches_regrouped scope regrouped _
  refl := .refl

end Lowering

/-! ## The text of related queries -/

section Text

variable {conditions : Expr → Expr → Prop}
  (texts : ∀ {one two : Expr}, conditions one two → one.text = two.text)

theorem Source.text_join (left : Source) (kind : JoinKind) (right : TableName) (condition : Expr) :
    (Source.join left kind right condition).text =
      left.text ++ " " ++ kind.text ++ " " ++ right.text ++ " ON " ++ condition.text :=
  rfl

include texts in
theorem Source.Related.text {one two : Source} (related : one.Related conditions two) :
    one.text = two.text := by
  induction related with
  | table only => rfl
  | join kind right _ condition ih => rw [Source.text_join, Source.text_join, ih, texts condition]

include texts in
theorem Expr.textAfter_of_rel (keyword : String) {one two : Option Expr}
    (related : Option.Rel conditions one two) :
    Expr.textAfter keyword one = Expr.textAfter keyword two := by
  cases related with
  | none => rfl
  | some own => rw [Expr.textAfter, Expr.textAfter, texts own]

include texts in
theorem Select.Related.text {one two : Select} (related : one.Related Eq conditions two) :
    one.text = two.text := by
  have source := related.source.text texts
  have defining := Expr.textAfter_of_rel texts " DEFINING_WHERE " related.definingFilter
  have filter := Expr.textAfter_of_rel texts " WHERE " related.filter
  rw [related.eq_outside]
  cases one
  dsimp only [Select.text] at source defining filter ⊢
  rw [source, defining, filter]

include texts in
theorem UnionBranch.texts_of_related {one two : List UnionBranch}
    (related : List.Forall₂ (UnionBranch.Related Eq conditions) one two) :
    UnionBranch.texts one = UnionBranch.texts two := by
  induction related with
  | nil => rfl
  | @cons branch other _ _ own _ ih =>
    obtain ⟨all, select⟩ := branch
    obtain ⟨all', select'⟩ := other
    obtain ⟨rfl, selects⟩ := own
    rw [UnionBranch.texts, UnionBranch.texts, selects.text texts, ih]

include texts in
theorem Query.Related.text {one two : Query} (related : one.Related Eq conditions two) :
    one.text = two.text := by
  refine Query.Related.induction (motive := fun one two => one.text = two.text) ?_ one two related
  rintro ⟨clause, first, unions⟩ ⟨clause', first', unions'⟩ clauses parts
  have elements : CommonTable.clause clause = CommonTable.clause clause' := by
    cases clauses with
    | none => rfl
    | some listed =>
      rw [CommonTable.clause, CommonTable.clause, CommonTable.texts_eq_map, CommonTable.texts_eq_map,
        map_eq_of_forall₂ listed]
      rintro ⟨name, columns, inner⟩ ⟨name', columns', inner'⟩ ⟨names, lists, queries⟩
      simp_all [CommonTable.text]
  have firsts : first.text = first'.text := Select.Related.text texts parts.first
  rw [Query.text, Query.text, elements, firsts, UnionBranch.texts_of_related texts parts.unions]

end Text

namespace Compiler

theorem agree_regrouped (compiler : Compiler) {one two : Query} (related : one.Related Eq Expr.Regrouped two) :
    Except.Agree (Statement.Related Eq Expr.Regrouped) (compiler.compileQuery one)
      (compiler.compileQuery two) := by
  have conjoined (own : Expr) {one two : Expr} (regrouped : one.Regrouped two) :
      (Expr.and own.parenthesized one.parenthesized).Regrouped
        (.and own.parenthesized two.parenthesized) :=
    .and (.refl _) regrouped.parenthesized
  rw [compileQuery_eq, compileQuery_eq]
  apply Except.Agree.bind (Plan.agree_ofStatement (fun _ => rfl) .refl conjoined compiler.lookup
    compiler.context compiler.start compiler.description related)
  intro plan other laid _ plans
  exact compiler.agree_ofRun Lowering.parallel_regrouped plans (Plan.definingFilter_ofStatement laid)

end Compiler

end TabularSql
