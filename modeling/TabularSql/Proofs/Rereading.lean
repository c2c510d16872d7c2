import Mathlib.Data.List.Infix
import TabularSql.Proofs.Built

/-!
# Queries that are read again

A query whose canonical text is read as the same query has lost nothing in its text. So its lexemes are
scanned one by one: no minus is continued by the next lexeme, and every name without quotes is a word. The
lexemes of a fragment stand in one piece among those of the whole, so the same holds of every fragment.
-/

namespace TabularSql

set_option autoImplicit false

open Lexeme

/-! ## The lexemes of fragments -/

namespace Lexeme

theorem infix_join {separator list : List Lexeme} {lists : List (List Lexeme)} (member : list ∈ lists) :
    list <:+: join separator lists := by
  induction lists with
  | nil => cases member
  | cons first rest ih =>
    cases rest with
    | nil =>
      rw [List.mem_singleton.mp member]
      exact List.infix_rfl
    | cons second rest =>
      rw [join]
      rcases List.mem_cons.mp member with rfl | behind
      · exact List.infix_append_of_infix_left (List.infix_append_of_infix_left List.infix_rfl)
      · exact List.infix_append_of_infix_right (ih behind)
      · simp

end Lexeme

namespace Expr

theorem infix_after {before : List Lexeme} {clause : Option Expr} {expr : Expr} (given : expr ∈ clause) :
    expr.lexemes <:+: lexemesAfter before clause := by
  cases given
  exact List.infix_append_of_infix_right List.infix_rfl

theorem infix_branches {branches : List (Expr × Expr)} {branch : Expr × Expr} (member : branch ∈ branches) :
    branch.1.lexemes <:+: branchLexemes branches ∧ branch.2.lexemes <:+: branchLexemes branches := by
  induction branches with
  | nil => cases member
  | cons first rest ih =>
    obtain ⟨condition, result⟩ := first
    rw [branchLexemes]
    rcases List.mem_cons.mp member with rfl | behind
    · grind [List.infix_append_of_infix_left, List.infix_append_of_infix_right]
    · grind [List.infix_append_of_infix_left, List.infix_append_of_infix_right]

theorem infix_list {separator : List Lexeme} {list : List Expr} {part : Fragment}
    (member : part ∈ list.map Fragment.expr) :
    part.lexemes <:+: join separator (lexemeLists list) := by
  obtain ⟨expr, listed, rfl⟩ := List.mem_map.mp member
  rw [lexeme_lists_eq_map]
  exact infix_join (List.mem_map_of_mem listed)

theorem infix_option {before : List Lexeme} {clause : Option Expr} {part : Fragment}
    (member : part ∈ clause.toList.map Fragment.expr) : part.lexemes <:+: lexemesAfter before clause := by
  obtain ⟨expr, given, rfl⟩ := List.mem_map.mp member
  exact infix_after (Option.mem_toList.mp given)

theorem infix_inside {whole : Expr} {part : Fragment} (member : part ∈ whole.inside) :
    part.lexemes <:+: whole.lexemes := by
  cases whole with
  | literal | column | parameter | currentUser | wildcard | doubleTest | unnest =>
    simp [inside] at member
  | cast operand _ | unary _ operand | nested operand | isNull operand _ | isTruth operand _ _
  | textMatches operand | matchAgainst operand =>
    simp only [inside, List.mem_singleton] at member
    subst member
    simp only [lexemes, tight, spaced, Fragment.lexemes]
    grind [List.infix_append_of_infix_left, List.infix_append_of_infix_right, List.infix_cons]
  | binary _ left right | between left right _ _ | inQuery left right _ =>
    simp only [inside, List.mem_cons, List.not_mem_nil, or_false] at member
    simp only [lexemes, spaced]
    rcases member with rfl | member
    · grind [List.infix_append_of_infix_left, Fragment.lexemes]
    · grind [List.infix_append_of_infix_left, List.infix_append_of_infix_right, List.infix_cons,
        Fragment.lexemes]
  | call name distinct arguments =>
    have own := @infix_list (if isSetFunctionName name then comma else [mark .comma]) _ _ member
    simp only [lexemes, tight]
    grind [List.infix_append_of_infix_left, List.infix_append_of_infix_right, List.infix_cons]
  | inList tested list _ | has tested list _ _ =>
    simp only [lexemes, spaced]
    rcases List.mem_cons.mp member with rfl | listed
    · grind [List.infix_append_of_infix_left, Fragment.lexemes]
    · have own := @infix_list comma _ _ listed
      grind [List.infix_append_of_infix_left, List.infix_append_of_infix_right, List.infix_cons]
  | like tested pattern escape _ =>
    simp only [inside, List.mem_cons] at member
    simp only [lexemes]
    rcases member with rfl | rfl | optional
    · grind [List.infix_append_of_infix_left, Fragment.lexemes]
    · grind [List.infix_append_of_infix_left, List.infix_append_of_infix_right, Fragment.lexemes]
    · exact List.infix_append_of_infix_right (infix_option optional)
  | caseWhen operand branches otherwise =>
    simp only [inside, List.mem_append] at member
    simp only [lexemes]
    rcases member with (optional | branch) | optional
    · have own := @infix_option [space] _ _ optional
      grind [List.infix_append_of_infix_left, List.infix_append_of_infix_right, List.infix_cons]
    · obtain ⟨⟨condition, result⟩, listed, inBranch⟩ := List.mem_flatMap.mp branch
      have own := infix_branches listed
      simp only [List.mem_cons, List.not_mem_nil, or_false] at inBranch
      rcases inBranch with rfl | rfl
      · grind [List.infix_append_of_infix_left, List.infix_append_of_infix_right, List.infix_cons,
          Fragment.lexemes]
      · grind [List.infix_append_of_infix_left, List.infix_append_of_infix_right, List.infix_cons,
          Fragment.lexemes]
    · have own := @infix_option (phrase ["ELSE"] ++ [space]) _ _ optional
      grind [List.infix_append_of_infix_left, List.infix_append_of_infix_right, List.infix_cons]

end Expr

theorem Source.infix_condition {source : Source} {condition : Expr}
    (member : condition ∈ source.conditions) : condition.lexemes <:+: source.lexemes := by
  match source with
  | .table _ => simp [Source.conditions] at member
  | .join left kind right own =>
    simp only [Source.conditions, List.mem_append, List.mem_singleton] at member
    simp only [Source.lexemes]
    rcases member with before | rfl
    · have inner := infix_condition before
      grind [List.infix_append_of_infix_left]
    · exact List.infix_append_of_infix_right List.infix_rfl

theorem Projection.infix_item {projection : Projection} {item : SelectItem}
    (member : item ∈ projection.itemList) : item.expr.lexemes <:+: projection.lexemes := by
  cases projection with
  | all => simp [Projection.itemList] at member
  | items list =>
    rw [Projection.lexemes, SelectItem.lexeme_lists_eq_map]
    apply List.IsInfix.trans _ (infix_join (List.mem_map_of_mem member))
    exact List.infix_append_of_infix_left List.infix_rfl

theorem Page.infix_expr {page : Option Page} {own : Page} (given : own ∈ page) {expr : Expr}
    (member : expr ∈ own.exprs) : expr.lexemes <:+: Page.lexemesAfter page := by
  cases given
  obtain ⟨limit, offset⟩ := own
  simp only [Page.exprs, List.mem_cons, Option.mem_toList] at member
  simp only [Page.lexemesAfter]
  rcases member with rfl | behind
  · exact List.infix_append_of_infix_left (List.infix_append_of_infix_right List.infix_rfl)
  · exact List.infix_append_of_infix_right (Expr.infix_after behind)

theorem Select.infix_expr {select : Select} {expr : Expr} (member : expr ∈ select.exprs) :
    expr.lexemes <:+: select.lexemes := by
  have clauses := Select.mem_exprs.mp member
  obtain ⟨distinct, projection, source, definingFilter, filter, groupBy, orderBy, page⟩ := select
  simp only [Select.lexemes]
  rcases clauses with ⟨item, listed, rfl⟩ | condition | defining | filtered | grouped |
    ⟨key, sorted, rfl⟩ | ⟨window, given, counted⟩
  · have own := Projection.infix_item listed
    grind [List.infix_append_of_infix_left, List.infix_append_of_infix_right]
  · have own := Source.infix_condition condition
    grind [List.infix_append_of_infix_left, List.infix_append_of_infix_right]
  · have own := @Expr.infix_after (phrase ["DEFINING_WHERE"] ++ [space]) _ _ defining
    grind [List.infix_append_of_infix_left, List.infix_append_of_infix_right]
  · have own := @Expr.infix_after (phrase ["WHERE"] ++ [space]) _ _ filtered
    grind [List.infix_append_of_infix_left, List.infix_append_of_infix_right]
  · have own := @Expr.infix_list comma _ (.expr expr) (List.mem_map_of_mem grouped)
    have some : groupBy.isEmpty = false := by
      simpa using List.ne_nil_of_mem grouped
    grind [List.infix_append_of_infix_left, List.infix_append_of_infix_right, Fragment.lexemes]
  · have own : key.expr.lexemes <:+: join comma (SortKey.lexemeLists orderBy) := by
      rw [SortKey.lexeme_lists_eq_map]
      apply List.IsInfix.trans _ (infix_join (List.mem_map_of_mem sorted))
      exact List.infix_append_of_infix_left List.infix_rfl
    have some : orderBy.isEmpty = false := by
      simpa using List.ne_nil_of_mem sorted
    grind [List.infix_append_of_infix_left, List.infix_append_of_infix_right]
  · exact List.infix_append_of_infix_right (Page.infix_expr given counted)

theorem UnionBranch.infix_select {unions : List UnionBranch} {branch : UnionBranch}
    (member : branch ∈ unions) : branch.select.lexemes <:+: UnionBranch.lexemes unions := by
  induction unions with
  | nil => cases member
  | cons first rest ih =>
    obtain ⟨all, select⟩ := first
    simp only [UnionBranch.lexemes]
    rcases List.mem_cons.mp member with rfl | behind
    · exact List.infix_append_of_infix_left (List.infix_append_of_infix_right List.infix_rfl)
    · exact List.infix_append_of_infix_right (ih behind)

theorem Query.infix_element {query : Query} {element : CommonTable} (member : element ∈ query.elements) :
    element.query.lexemes <:+: query.lexemes := by
  obtain ⟨commonTables, first, unions⟩ := query
  cases commonTables with
  | none => simp [Query.elements] at member
  | some elements =>
    have own : element.query.lexemes <:+: element.lexemes := by
      simp only [CommonTable.lexemes, tight]
      grind [List.infix_append_of_infix_left, List.infix_append_of_infix_right, List.infix_cons]
    have listed : element.lexemes <:+: join comma (CommonTable.lexemeLists elements) := by
      rw [CommonTable.lexeme_lists_eq_map]
      exact infix_join (List.mem_map_of_mem member)
    have whole := own.trans listed
    simp only [Query.lexemes, CommonTable.clauseLexemes]
    grind [List.infix_append_of_infix_left, List.infix_append_of_infix_right]

theorem Query.infix_part {query : Query} {part : Select} (member : part ∈ query.parts) :
    part.lexemes <:+: query.lexemes := by
  obtain ⟨commonTables, first, unions⟩ := query
  simp only [Query.parts, List.mem_cons, List.mem_map] at member
  simp only [Query.lexemes]
  rcases member with rfl | ⟨branch, listed, rfl⟩
  · exact List.infix_append_of_infix_left (List.infix_append_of_infix_right List.infix_rfl)
  · exact List.infix_append_of_infix_right (UnionBranch.infix_select listed)

/-- The lexemes of a fragment stand in one piece among those of the whole. -/
theorem Fragment.infix_within {fragment whole : Fragment} (within : Within fragment whole) :
    fragment.lexemes <:+: whole.lexemes := by
  induction within with
  | self => exact List.infix_rfl
  | @deeper part whole member _ ih =>
    apply ih.trans
    cases whole with
    | expr whole => exact Expr.infix_inside member
    | select whole =>
      obtain ⟨expr, listed, rfl⟩ := List.mem_map.mp member
      exact Select.infix_expr listed
    | query whole =>
      rcases List.mem_append.mp member with common | own
      · obtain ⟨element, listed, rfl⟩ := List.mem_map.mp common
        exact Query.infix_element listed
      · obtain ⟨select, listed, rfl⟩ := List.mem_map.mp own
        exact Query.infix_part listed

/-! ## What clean lexemes tell about a fragment -/

namespace Lexeme

theorem Clean.part {draft : Bool} {lexemes whole : List Lexeme} (clean : Clean draft whole)
    (inside : lexemes <:+: whole) : Clean draft lexemes := by
  obtain ⟨before, behind, rfl⟩ := inside
  refine ⟨fun lexeme member => clean.spelled lexeme (by simp [member]), ?_⟩
  exact (List.isChain_append.mp (List.isChain_append.mp clean.apart).1).2.1

/-- Nothing that starts with a minus stands behind a minus. -/
theorem Clean.minus {lexemes : List Lexeme} (clean : Clean false (mark .minus :: lexemes)) :
    (spelling lexemes).head? ≠ some '-' := by
  cases lexemes with
  | nil => simp
  | cons next rest =>
    have apart := apart_of_follows (List.isChain_cons_cons.mp clean.apart).1
    rw [head_spelling (clean.spelled next (by simp))]
    intro minus
    have allowed := apart '-' minus
    exact absurd allowed (by decide)

end Lexeme

/-- Canonical text that is scanned lexeme by lexeme keeps the expression. -/
theorem Expr.restorable_of_clean {whole : Expr} (clean : Clean false whole.lexemes) :
    whole.Restorable := by
  unfold Restorable
  split
  · next operand =>
      rw [Expr.text_eq, String.toList_ofList]
      exact clean.minus
  · next left right =>
      have behind : Clean false (mark .minus :: right.lexemes) := by
        apply clean.part
        simp only [Expr.lexemes]
        rw [List.append_assoc]
        exact List.infix_append_of_infix_right List.infix_rfl
      rw [Expr.text_eq, String.toList_ofList]
      exact behind.minus
  · next name => exact Token.isPlainWord_iff.mpr (clean.spelled (placeholder name) (by simp [Expr.lexemes]))
  · next operand name =>
      apply Token.isPlainWord_iff.mpr
      exact clean.spelled (word name) (by simp [Expr.lexemes, CastTarget.lexeme, tight])
  · trivial

/-- A draft can be scanned if every name without quotes in it is a word. -/
theorem Expr.scannable_of_free {whole : Expr} (free : ∀ lexeme ∈ whole.lexemes, lexeme.fee = 0) :
    whole.Scannable true := by
  have plain {name : String} (charge : Token.fee name = 0) : Token.IsPlainWord name := by
    unfold Token.fee at charge
    split at charge
    · assumption
    · cases charge
  unfold Scannable
  split
  · simp
  · simp
  · next notNegated notSubtracted =>
      unfold Restorable
      split
      · next operand => exact absurd rfl (notNegated operand)
      · next left right => exact absurd rfl (notSubtracted left right)
      · next name => exact plain (free (placeholder name) (by simp [lexemes]))
      · next operand name =>
          exact plain (free (word name) (by simp [lexemes, CastTarget.lexeme, tight]))
      · trivial

theorem Source.mem_lexemes {source : Source} {table : TableName} (member : table ∈ source.tables) :
    Lexeme.table table.name ∈ source.lexemes := by
  match source with
  | .table only =>
    rw [List.mem_singleton.mp member]
    simp [Source.lexemes, TableName.lexemes]
  | .join left kind right condition =>
    simp only [Source.tables, List.mem_append, List.mem_singleton] at member
    rcases member with before | rfl
    · have inner := mem_lexemes before
      simp [Source.lexemes, inner]
    · simp [Source.lexemes, TableName.lexemes]

/-! ## Reading again -/

namespace Query

variable {query : Query}

/-- A query that is read from a text, and has this text, pays no charge, and no sign of the text is lost. -/
theorem signs_of_again {again : Query} (reread : parse query.text = .ok again)
    (same : again.text = query.text) : (∀ lexeme ∈ again.lexemes, lexeme.fee = 0) ∧
      ∃ tokens, Token.scan (spelling query.lexemes) = .ok tokens ∧
        Text.signs (spelling query.lexemes) ≤ Token.weights tokens := by
  obtain ⟨tokens, scanned, paid⟩ := cost_le_of_parse reread
  have spelled : spelling again.lexemes = spelling query.lexemes := by
    rw [text_eq, text_eq] at same
    exact String.ofList_injective same
  rw [text_eq, String.toList_ofList] at scanned
  have worth := Token.weights_scan scanned
  have costs : again.cost = Text.signs (spelling query.lexemes) + total fee again.lexemes := by
    rw [← spelled]
    exact costs_eq again.lexemes
  exact ⟨weightless_of_total (by omega), tokens, scanned, by omega⟩

/-- No version of a table is torn by a blank. -/
theorem tables_of_reread (reread : parse query.text = .ok query) {select : Select}
    (within : Fragment.Within (.select select) (.query query)) :
    ∀ table ∈ select.source.tables, TableName.isTorn table.name.toList = false := by
  intro table member
  have listed : Lexeme.table table.name ∈ select.lexemes := by
    have own := Source.mem_lexemes member
    obtain ⟨distinct, projection, source, definingFilter, filter, groupBy, orderBy, page⟩ := select
    simp [Select.lexemes, own]
  have free := (signs_of_again reread rfl).1 _ ((Fragment.infix_within within).subset listed)
  simpa [fee] using free

/-- Lexemes that lose no sign are scanned one by one, as soon as the names among them are words. -/
theorem clean_of_kept {tokens : List Token}
    (scannable : Fragment.Everywhere (fun fragment => fragment.Grammatical ∧ fragment.Scannable true)
      (.query query))
    (scanned : Token.scan (spelling query.lexemes) = .ok tokens)
    (kept : Text.signs (spelling query.lexemes) ≤ Token.weights tokens) : Clean false query.lexemes := by
  have draft : Sealed true query.lexemes := Fragment.sealed_of_scannable (.query query) scannable
  exact draft.clean.final scanned kept

/-- The lexemes of a query that is read from its own text are scanned one by one. -/
theorem clean_of_reread (reread : parse query.text = .ok query)
    (tables : ∀ select, Fragment.Within (.select select) (.query query) →
      ∀ table ∈ select.source.tables, (Lexeme.table table.name).Spelled) :
    Clean false query.lexemes := by
  obtain ⟨free, tokens, scanned, kept⟩ := signs_of_again reread rfl
  refine clean_of_kept (fun fragment within => ?_) scanned kept
  refine ⟨grammatical_of_parse reread fragment within, ?_⟩
  have inside := (Fragment.infix_within within).subset
  cases fragment with
  | expr whole => exact Expr.scannable_of_free fun lexeme member => free lexeme (inside member)
  | select whole => exact tables whole within
  | query whole => trivial

/-- The text of a query that is read again keeps every expression of it. -/
theorem restorable_of_reread (reread : parse query.text = .ok query)
    (tables : ∀ select, Fragment.Within (.select select) (.query query) →
      ∀ table ∈ select.source.tables, (Lexeme.table table.name).Spelled)
    {expr : Expr} (within : Fragment.Within (.expr expr) (.query query)) : expr.Restorable :=
  Expr.restorable_of_clean ((clean_of_reread reread tables).part (Fragment.infix_within within))

end Query

end TabularSql
