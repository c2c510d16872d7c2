import TabularSql.Proofs.Lexeme

/-!
# Placeholders of fragments

The placeholders in the text of a fragment are those of the fragments inside it, in the order in which
these are listed. A fragment without bind parameters at any depth shows none.
-/

namespace TabularSql

set_option autoImplicit false

open Lexeme

/-! ## Sequences of lexemes -/

namespace Lexeme

@[simp] theorem placeholder?_space : space.placeholder? = none := rfl

@[simp] theorem placeholder?_mark (known : Mark) : (mark known).placeholder? = none := rfl

@[simp] theorem placeholder?_word (name : String) : (word name).placeholder? = none := rfl

@[simp] theorem placeholder?_table (name : String) : (table name).placeholder? = none := rfl

@[simp] theorem placeholders_nil : placeholders [] = [] := rfl

@[simp] theorem placeholders_cons (lexeme : Lexeme) (rest : List Lexeme) :
    placeholders (lexeme :: rest) = lexeme.placeholder?.toList ++ placeholders rest := by
  cases lexeme <;> rfl

@[simp] theorem placeholders_append (first second : List Lexeme) :
    placeholders (first ++ second) = placeholders first ++ placeholders second := by
  simp [placeholders]

@[simp] theorem placeholders_comma : placeholders comma = [] := rfl

@[simp] theorem placeholders_phrase (words : List String) : placeholders (phrase words) = [] := by
  induction words with
  | nil => rfl
  | cons name words ih =>
    show placeholders ([space, word name] ++ phrase words) = []
    rw [placeholders_append, ih]
    rfl

theorem placeholders_join {α : Type} {separator : List Lexeme} (silent : placeholders separator = [])
    (lexemes : α → List Lexeme) (items : List α) :
    placeholders (join separator (items.map lexemes)) =
      items.flatMap fun item => placeholders (lexemes item) := by
  induction items with
  | nil => rfl
  | cons first rest ih =>
    cases rest with
    | nil => simp [join]
    | cons second rest =>
      simp only [List.map_cons] at ih
      simp [join, silent, ih]

@[simp] theorem placeholders_spaced (inner : List Lexeme) :
    placeholders (spaced inner) = placeholders inner := by
  simp [spaced]

@[simp] theorem placeholders_tight (inner : List Lexeme) :
    placeholders (tight inner) = placeholders inner := by
  simp [tight]

end Lexeme

/-! ## Fragments -/

namespace Fragment

/-- The placeholders in the text of a fragment, from left to right. -/
def placeholders : Fragment → List String
  | expr whole => Lexeme.placeholders whole.lexemes
  | select whole => Lexeme.placeholders whole.lexemes
  | query whole => Lexeme.placeholders whole.lexemes

def isParameter : Fragment → Bool
  | expr (.parameter _) => true
  | _ => false

def Free (whole : Fragment) : Prop := Everywhere (fun fragment => fragment.isParameter = false) whole

instance : DecidablePred Free := fun whole =>
  inferInstanceAs (Decidable (Everywhere (fun fragment => fragment.isParameter = false) whole))

theorem free_iff {whole : Fragment} :
    Free whole ↔ whole.isParameter = false ∧ ∀ part ∈ whole.inside, Free part :=
  everywhere_iff

end Fragment

@[simp] theorem Identifier.lexeme_silent (identifier : Identifier) :
    identifier.lexeme.placeholder? = none := by
  obtain ⟨name, quote⟩ := identifier
  cases quote <;> rfl

@[simp] theorem ColumnRef.lexemes_silent (column : ColumnRef) :
    Lexeme.placeholders column.lexemes = [] := by
  obtain ⟨qualifier, name⟩ := column
  cases qualifier <;> simp [ColumnRef.lexemes]

@[simp] theorem Literal.lexeme_silent (literal : Literal) : literal.lexeme.placeholder? = none := by
  cases literal with
  | boolean value => cases value <;> rfl
  | _ => rfl

@[simp] theorem BinaryOperator.lexemes_silent (operator : BinaryOperator) :
    Lexeme.placeholders operator.lexemes = [] := by
  cases operator <;> rfl

@[simp] theorem UnaryOperator.lexemes_silent (operator : UnaryOperator) :
    Lexeme.placeholders operator.lexemes = [] := by
  cases operator <;> rfl

@[simp] theorem CastTarget.lexeme_silent (target : CastTarget) :
    target.lexeme.placeholder? = none := by
  cases target <;> rfl

@[simp] theorem TableName.lexemes_silent (named : TableName) :
    Lexeme.placeholders named.lexemes = [] := by
  obtain ⟨name, alias_⟩ := named
  cases alias_ <;> simp [TableName.lexemes]

namespace Expr

theorem placeholders_after {before : List Lexeme} (silent : Lexeme.placeholders before = [])
    (optional : Option Expr) : Lexeme.placeholders (Expr.lexemesAfter before optional) =
      (optional.toList.map Fragment.expr).flatMap Fragment.placeholders := by
  cases optional with
  | none => rfl
  | some expr => simp [Expr.lexemesAfter, silent, Fragment.placeholders]

theorem placeholders_branches (branches : List (Expr × Expr)) :
    Lexeme.placeholders (Expr.branchLexemes branches) =
      (branches.flatMap fun (condition, result) =>
        [Fragment.expr condition, Fragment.expr result]).flatMap Fragment.placeholders := by
  induction branches with
  | nil => rfl
  | cons branch rest ih =>
    obtain ⟨condition, result⟩ := branch
    simp [Expr.branchLexemes, ih, Fragment.placeholders]

theorem placeholders_list {separator : List Lexeme} (silent : Lexeme.placeholders separator = [])
    (list : List Expr) : Lexeme.placeholders (join separator (list.map Expr.lexemes)) =
      (list.map Fragment.expr).flatMap Fragment.placeholders := by
  rw [placeholders_join silent, List.flatMap_map]
  rfl

/-- An expression shows the placeholders of what is inside it, from left to right. -/
theorem placeholders_inside {whole : Expr} (own : (Fragment.expr whole).isParameter = false) :
    (Fragment.expr whole).placeholders = whole.inside.flatMap Fragment.placeholders := by
  cases whole with
  | parameter name => cases own
  | call name distinct arguments =>
    have separator : Lexeme.placeholders
        (if isSetFunctionName name then comma else [mark .comma]) = [] := by
      split <;> rfl
    have opening : Lexeme.placeholders (if distinct then [word "DISTINCT", space] else []) = [] := by
      split <;> rfl
    simp only [Fragment.placeholders, Expr.lexemes, Expr.inside, placeholders_cons,
      placeholders_tight, placeholders_append, opening, Expr.lexeme_lists_eq_map,
      placeholders_list separator]
    rfl
  | caseWhen operand branches otherwise =>
    have first := placeholders_after (show Lexeme.placeholders [space] = [] from rfl) operand
    have last := placeholders_after
      (show Lexeme.placeholders (phrase ["ELSE"] ++ [space]) = [] from rfl) otherwise
    simp only [Fragment.placeholders, Expr.lexemes, Expr.inside, placeholders_cons,
      placeholders_append, first, last, placeholders_branches, placeholders_phrase,
      List.flatMap_append]
    simp
  | inList tested list negated | has tested list pattern negated =>
    simp [Fragment.placeholders, Expr.lexemes, placeholders_list placeholders_comma]
  | like tested pattern escape negated =>
    have last := placeholders_after
      (show Lexeme.placeholders (phrase ["ESCAPE"] ++ [space]) = [] from rfl) escape
    simp [Fragment.placeholders, Expr.lexemes, last]
  | _ => simp [Fragment.placeholders, Expr.lexemes]

end Expr

theorem Source.placeholders_conditions (source : Source) : Lexeme.placeholders source.lexemes =
    (source.conditions.map Fragment.expr).flatMap Fragment.placeholders := by
  match source with
  | .table only => simp [Source.lexemes, Source.conditions]
  | .join left kind right condition =>
    have before := Source.placeholders_conditions left
    simp [Source.lexemes, Source.conditions, before, Fragment.placeholders]

@[simp] theorem SelectItem.placeholders_expr (item : SelectItem) :
    Lexeme.placeholders item.lexemes = (Fragment.expr item.expr).placeholders := by
  obtain ⟨expr, name⟩ := item
  cases name <;> simp [SelectItem.lexemes, Fragment.placeholders]

@[simp] theorem SortKey.placeholders_expr (key : SortKey) :
    Lexeme.placeholders key.lexemes = (Fragment.expr key.expr).placeholders := by
  obtain ⟨expr, direction⟩ := key
  cases direction <;> simp [SortKey.lexemes, Fragment.placeholders]

theorem Projection.placeholders_items (projection : Projection) :
    Lexeme.placeholders projection.lexemes =
      (projection.itemList.map fun item => Fragment.expr item.expr).flatMap Fragment.placeholders := by
  cases projection with
  | all => rfl
  | items list =>
    rw [Projection.lexemes, SelectItem.lexeme_lists_eq_map, placeholders_join placeholders_comma,
      List.flatMap_map]
    simp [Projection.itemList]

theorem Page.placeholders_exprs (page : Option Page) : Lexeme.placeholders (Page.lexemesAfter page) =
    (((page.map Page.exprs).getD []).map Fragment.expr).flatMap Fragment.placeholders := by
  cases page with
  | none => rfl
  | some page =>
    obtain ⟨limit, offset⟩ := page
    have last := Expr.placeholders_after
      (show Lexeme.placeholders (phrase ["OFFSET"] ++ [space]) = [] from rfl) offset
    simp [Page.lexemesAfter, Page.exprs, last, Fragment.placeholders]

theorem Lexeme.placeholders_clause {α : Type} (words : List String) (lexemes : α → List Lexeme)
    (items : List α) : placeholders (if items.isEmpty then []
      else phrase words ++ [space] ++ join comma (items.map lexemes)) =
        items.flatMap fun item => placeholders (lexemes item) := by
  cases items with
  | nil => rfl
  | cons first rest =>
    rw [List.isEmpty_cons, if_neg Bool.false_ne_true, placeholders_append,
      placeholders_join placeholders_comma]
    simp

theorem Select.placeholders_inside (whole : Select) : (Fragment.select whole).placeholders =
    (Fragment.select whole).inside.flatMap Fragment.placeholders := by
  obtain ⟨distinct, projection, source, definingFilter, filter, groupBy, orderBy, page⟩ := whole
  have opening : Lexeme.placeholders (if distinct then [word "DISTINCT", space] else []) = [] := by
    split <;> rfl
  have clause (keyword : String) (optional : Option Expr) := Expr.placeholders_after
    (show Lexeme.placeholders (phrase [keyword] ++ [space]) = [] from rfl) optional
  simp only [Fragment.placeholders, Fragment.inside, Select.lexemes, Select.exprs,
    placeholders_append, opening, clause, Projection.placeholders_items,
    Source.placeholders_conditions, Expr.lexeme_lists_eq_map, SortKey.lexeme_lists_eq_map,
    placeholders_clause, Page.placeholders_exprs, placeholders_phrase, List.map_append,
    List.flatMap_append, List.map_map]
  simp [List.flatMap_map, Fragment.placeholders]

theorem UnionBranch.placeholders_selects (branches : List UnionBranch) :
    Lexeme.placeholders (UnionBranch.lexemes branches) =
      branches.flatMap fun branch => (Fragment.select branch.select).placeholders := by
  induction branches with
  | nil => rfl
  | cons branch rest ih =>
    obtain ⟨all, select⟩ := branch
    cases all <;> simp [UnionBranch.lexemes, ih, Fragment.placeholders]

@[simp] theorem CommonTable.placeholders_query (element : CommonTable) :
    Lexeme.placeholders element.lexemes = (Fragment.query element.query).placeholders := by
  obtain ⟨name, columns, query⟩ := element
  have header : Lexeme.placeholders (CommonTable.columnLexemes columns) = [] := by
    unfold CommonTable.columnLexemes
    split
    · rfl
    · simp [placeholders_join placeholders_comma]
  simp [CommonTable.lexemes, header, Fragment.placeholders]

theorem Query.placeholders_inside (whole : Query) : (Fragment.query whole).placeholders =
    (Fragment.query whole).inside.flatMap Fragment.placeholders := by
  obtain ⟨commonTables, first, unions⟩ := whole
  have clause : Lexeme.placeholders (CommonTable.clauseLexemes commonTables) =
      (commonTables.getD []).flatMap fun element => (Fragment.query element.query).placeholders := by
    cases commonTables with
    | none => rfl
    | some elements =>
      rw [CommonTable.clauseLexemes, CommonTable.lexeme_lists_eq_map, placeholders_append,
        placeholders_append, placeholders_join placeholders_comma]
      simp
  simp only [Fragment.placeholders, Query.lexemes, placeholders_append, clause,
    UnionBranch.placeholders_selects, Fragment.inside, Query.elements, Query.parts,
    List.flatMap_append, List.flatMap_map, List.map_cons, List.flatMap_cons, List.append_assoc]

namespace Fragment

theorem placeholders_inside {whole : Fragment} (own : whole.isParameter = false) :
    whole.placeholders = whole.inside.flatMap placeholders := by
  cases whole with
  | expr whole => exact Expr.placeholders_inside own
  | select whole => exact Select.placeholders_inside whole
  | query whole => exact Query.placeholders_inside whole

theorem Free.placeholders {whole : Fragment} (free : Free whole) : whole.placeholders = [] := by
  induction whole using Fragment.induction with
  | step whole ih =>
    obtain ⟨own, inside⟩ := free_iff.mp free
    rw [placeholders_inside own, List.flatMap_eq_nil_iff]
    exact fun part member => ih part member (inside part member)

end Fragment

end TabularSql
