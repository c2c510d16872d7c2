import TabularSql.Proofs.Reading.Query

/-!
# Reading every fragment back

What stands in brackets has fewer tokens than the whole, so a depth of nesting as large as the number of
tokens is enough to read it. By induction over fragments every writable one is read back from its tokens.
-/

namespace TabularSql

set_option autoImplicit false

open Reader Grammar Lexeme

/-! ## Numbers of tokens -/

namespace Reader

theorem member_length {lists : List (List Token)} {own : List Token} (member : own ∈ lists) :
    own.length ≤ (commaSeparated lists).length := by
  obtain ⟨first, others, rfl⟩ := List.exists_cons_of_ne_nil (List.ne_nil_of_mem member)
  rw [commaSeparated, List.length_append]
  rcases List.mem_cons.mp member with rfl | behind
  · omega
  · obtain ⟨before, after, rfl⟩ := List.append_of_mem behind
    simp only [List.flatMap_append, List.flatMap_cons, List.length_append, List.length_cons]
    omega

end Reader

namespace Fragment

def tokens : Fragment → List Token
  | expr whole => whole.tokens
  | select whole => tokensOf whole.lexemes
  | query whole => whole.tokens

end Fragment

namespace Expr

theorem clause_length {before : List Lexeme} {clause : Option Expr} {part : Fragment}
    (member : part ∈ clause.toList.map Fragment.expr) :
    part.tokens.length ≤ (tokensOf (lexemesAfter before clause)).length := by
  cases clause with
  | none => simp at member
  | some own =>
    simp only [Option.toList_some, List.map_cons, List.map_nil, List.mem_singleton] at member
    subst member
    simp [lexemesAfter, Fragment.tokens, Expr.tokens]

theorem list_length {separator : List Lexeme} {list : List Expr} {part : Fragment}
    (separates : IsComma separator) (member : part ∈ list.map Fragment.expr) :
    part.tokens.length ≤ (tokensOf (join separator (list.map Expr.lexemes))).length := by
  obtain ⟨own, listed, rfl⟩ := List.mem_map.mp member
  rw [tokensOf_list separates]
  exact member_length (List.mem_map_of_mem listed)

theorem branch_length {branches : List (Expr × Expr)} {part : Fragment}
    (member : part ∈ branches.flatMap fun (condition, result) =>
      [Fragment.expr condition, Fragment.expr result]) :
    part.tokens.length < (branchTokens branches).length := by
  obtain ⟨branch, listed, inBranch⟩ := List.mem_flatMap.mp member
  obtain ⟨before, after, rfl⟩ := List.append_of_mem listed
  simp only [List.mem_cons, List.not_mem_nil, or_false] at inBranch
  rcases inBranch with rfl | rfl <;>
    simp [branchTokens, Fragment.tokens] <;> omega

theorem inside_length {whole : Expr} {part : Fragment} (member : part ∈ whole.inside) :
    part.tokens.length < whole.tokens.length := by
  cases whole with
  | literal | column | parameter | currentUser | wildcard | doubleTest | unnest =>
    simp at member
  | cast operand _ | nested operand | isNull operand _ | isTruth operand _ _
  | textMatches operand | matchAgainst operand =>
    simp only [Expr.inside, List.mem_singleton] at member
    subst member
    simp [Fragment.tokens, Expr.tokens, Expr.lexemes, tight, spaced, tokensOf_words, wordTokens,
      Lexeme.tokens] <;> omega
  | unary operator operand =>
    simp only [Expr.inside, List.mem_singleton] at member
    subst member
    cases operator <;> simp [Fragment.tokens, Expr.tokens, Expr.lexemes, UnaryOperator.lexemes,
      Lexeme.tokens]
  | binary operator left right =>
    simp only [Expr.inside, List.mem_cons, List.not_mem_nil, or_false] at member
    have operatorLength := congrArg List.length (tokensOf_operator operator)
    rcases member with rfl | rfl
    all_goals
      simp only [Fragment.tokens, Expr.tokens, Expr.lexemes, tokensOf_append, List.length_append,
        operatorLength, List.length_singleton]
      omega
  | between tested low high negated =>
    simp only [Expr.inside, List.mem_cons, List.not_mem_nil, or_false] at member
    rcases member with rfl | rfl | rfl <;>
      simp [Fragment.tokens, Expr.tokens, Expr.lexemes, tokensOf_words, wordTokens,
        Lexeme.tokens] <;> omega
  | inQuery tested candidates negated =>
    simp only [Expr.inside, List.mem_cons, List.not_mem_nil, or_false] at member
    rcases member with rfl | rfl
    all_goals
      simp only [Fragment.tokens, Expr.tokens, Query.tokens, Expr.lexemes, spaced, tokensOf_append,
        tokensOf_words, wordTokens, List.map_append, List.length_append, List.map_cons, List.length_cons]
      omega
  | call name distinct arguments =>
    have separates : IsComma (if isSetFunctionName name then comma else [.mark .comma]) := by
      split
      · exact .inl rfl
      · exact .inr rfl
    have own := list_length separates member
    simp [Expr.tokens, Expr.lexemes, tight, Lexeme.tokens]
    omega
  | inList tested list _ | has tested list _ _ =>
    rcases List.mem_cons.mp member with rfl | listed
    · simp only [Fragment.tokens, Expr.tokens, Expr.lexemes, spaced, tokensOf_append, tokensOf_words,
        wordTokens, List.map_append, List.length_append, List.map_cons, List.length_cons]
      omega
    · have own := list_length (.inl rfl) listed
      simp [Expr.tokens, Expr.lexemes, spaced, Lexeme.tokens]
      omega
  | like tested pattern escape negated =>
    simp only [Expr.inside, List.mem_cons] at member
    rcases member with rfl | rfl | optional
    · simp only [Fragment.tokens, Expr.tokens, Expr.lexemes, tokensOf_append, tokensOf_words,
        wordTokens, List.map_append, List.length_append, List.map_cons, List.length_cons]
      omega
    · simp [Fragment.tokens, Expr.tokens, Expr.lexemes, tokensOf_words, wordTokens]
      omega
    · have own := @clause_length (phrase ["ESCAPE"] ++ [space]) escape part optional
      simp [Expr.tokens, Expr.lexemes, tokensOf_words, wordTokens]
      omega
  | caseWhen operand branches otherwise =>
    simp only [Expr.inside, List.mem_append] at member
    rcases member with (optional | branch) | optional
    · have own := @clause_length [space] operand part optional
      simp [Expr.tokens, Expr.lexemes, Lexeme.tokens]
      omega
    · have own := branch_length branch
      simp [Expr.tokens, Expr.lexemes, Lexeme.tokens, tokensOf_branches]
      omega
    · have own := @clause_length (phrase ["ELSE"] ++ [space]) otherwise part optional
      simp [Expr.tokens, Expr.lexemes, Lexeme.tokens]
      omega

end Expr

theorem Source.conditions_eq : ∀ source : Source,
    source.conditions = source.joins.map fun join => join.2.2
  | .table only => rfl
  | .join left kind right condition => by
      simp [Source.conditions, Source.joins, Source.conditions_eq left]

theorem Source.condition_length (source : Source) {own : Expr} (member : own ∈ source.conditions) :
    own.tokens.length ≤ (tokensOf source.lexemes).length := by
  rw [Source.conditions_eq] at member
  obtain ⟨join, listed, rfl⟩ := List.mem_map.mp member
  obtain ⟨before, after, split⟩ := List.append_of_mem listed
  rw [Source.tokens_eq, split]
  simp [Source.joinTokens]
  omega

namespace Select

theorem clause_length {keyword : String} {clause : Option Expr} {own : Expr}
    (given : own ∈ clause) : own.tokens.length ≤ (clauseTokens keyword clause).length := by
  cases given
  simp [clauseTokens]

theorem list_length {first second : String} {lists : List (List Token)} {own : List Token}
    (member : own ∈ lists) : own.length ≤ (listTokens first second lists).length := by
  have some : lists.isEmpty = false := by simpa using List.ne_nil_of_mem member
  have listed := member_length member
  rw [listTokens, some, if_neg (by decide)]
  simp only [List.length_cons]
  omega

theorem page_length {page : Page} {window : Option Page} {own : Expr} (given : page ∈ window)
    (member : own ∈ page.exprs) : own.tokens.length ≤ (pageTokens window).length := by
  cases given
  simp only [Page.exprs, List.mem_cons, Option.mem_toList] at member
  rcases member with rfl | inOffset
  · simp [pageTokens]
    omega
  · have shorter := @clause_length "OFFSET" page.offset own inOffset
    simp [pageTokens]
    omega

theorem expr_length {whole : Select} {own : Expr} (member : own ∈ whole.exprs) :
    own.tokens.length < (tokensOf whole.lexemes).length := by
  rw [select_tokens]
  simp only [List.length_cons, List.length_append]
  simp only [exprs, List.mem_append, Option.mem_toList] at member
  rcases member with (((((item | condition) | defining) | filtered) | group) | key) | window
  · obtain ⟨own, listed, rfl⟩ := List.mem_map.mp item
    cases projected : whole.projection with
    | all => simp [projected, Projection.itemList] at listed
    | items list =>
      rw [projected] at listed
      have shorter := member_length (List.mem_map_of_mem (f := fun item => tokensOf item.lexemes)
        (show own ∈ list from listed))
      have expr_le : own.expr.tokens.length ≤ (tokensOf own.lexemes).length := by
        simp [SelectItem.lexemes, Expr.tokens]
      rw [tokensOf_items]
      omega
  · have shorter := Source.condition_length whole.source condition
    omega
  · have shorter := @clause_length "DEFINING_WHERE" _ _ defining
    omega
  · have shorter := @clause_length "WHERE" _ _ filtered
    omega
  · have shorter := @list_length "GROUP" "BY" _ _ (List.mem_map_of_mem (f := Expr.tokens) group)
    omega
  · obtain ⟨own, listed, rfl⟩ := List.mem_map.mp key
    have shorter := @list_length "ORDER" "BY" _ _
      (List.mem_map_of_mem (f := fun key => tokensOf key.lexemes) listed)
    have expr_le : own.expr.tokens.length ≤ (tokensOf own.lexemes).length := by
      simp [SortKey.lexemes, Expr.tokens]
    omega
  · cases given : whole.page with
    | none => simp [given] at window
    | some page =>
      rw [given] at window
      have shorter := page_length rfl (show own ∈ page.exprs from window)
      omega

end Select

namespace Query

theorem element_length {whole : Query} {element : CommonTable} (member : element ∈ whole.elements) :
    element.query.tokens.length < whole.tokens.length := by
  obtain ⟨commonTables, first, unions⟩ := whole
  cases commonTables with
  | none => simp [elements] at member
  | some list =>
    have shorter := member_length (List.mem_map_of_mem
      (f := fun element => tokensOf element.lexemes) (show element ∈ list from member))
    have query_le : element.query.tokens.length ≤ (tokensOf element.lexemes).length := by
      simp [CommonTable.lexemes, Query.tokens, tight]
      omega
    simp only [tokens, Query.lexemes, tokensOf_append, tokensOf_elements, List.length_append,
      List.length_cons] at query_le ⊢
    omega

theorem part_length {whole : Query} {part : Select} (member : part ∈ whole.parts) :
    (tokensOf part.lexemes).length ≤ whole.tokens.length := by
  obtain ⟨commonTables, first, unions⟩ := whole
  simp only [tokens, Query.lexemes, tokensOf_append, tokensOf_unions, List.length_append]
  simp only [parts, List.mem_cons, List.mem_map] at member
  rcases member with rfl | ⟨branch, listed, rfl⟩
  · omega
  · obtain ⟨before, after, rfl⟩ := List.append_of_mem listed
    simp [branchSelectTokens]
    omega

end Query

/-! ## Every fragment -/

namespace Fragment

def ReadBack (inner : Inner) : Fragment → Prop
  | expr whole => whole.level ≤ 7 → Reads inner whole
  | select whole => ReadsSelect inner whole
  | query whole => ∀ rest, Stops 17 rest → Grammar.query inner (whole.tokens ++ rest) = .ok (whole, rest)

theorem readBack (whole : Fragment) (writable : Everywhere Writable whole) (depth : Nat)
    (deep : whole.tokens.length ≤ depth) : whole.ReadBack (nested depth) := by
  induction whole using Fragment.induction generalizing depth with
  | step whole ih =>
    obtain ⟨⟨grammatical, restorable⟩, inside⟩ := everywhere_iff.mp writable
    have own := fun part member => ih part member (inside part member)
    have bracket (part : Fragment) (member : part ∈ whole.inside)
        (shorter : part.tokens.length < whole.tokens.length) :
        ∃ less, depth = less + 1 ∧ part.ReadBack (nested less) := by
      cases depth with
      | zero => omega
      | succ less => exact ⟨less, rfl, own part member less (by omega)⟩
    cases whole with
    | expr whole =>
      intro level
      refine expr_reads_of_inside whole grammatical level (Expr.startsWith writable level)
        (fun part member => ?_) (fun part member fits => ?_) fun part member => ?_
      · have shorter := Expr.inside_length member
        exact own (.expr part) member depth (shorter.le.trans deep)
      · obtain ⟨less, rfl, reads⟩ := bracket (.expr part) member (Expr.inside_length member)
        exact (reads fits).reads 7 fits (by decide)
      · obtain ⟨less, rfl, reads⟩ := bracket (.query part) member (Expr.inside_length member)
        exact reads
    | select whole =>
      intro rest stops
      refine select_ok grammatical restorable (fun part member => ?_) stops
      have shorter := Select.expr_length member
      exact own (.expr part) (List.mem_map_of_mem member) depth (shorter.le.trans deep)
        (grammatical.2.2.1 part member)
    | query whole =>
      intro rest stops
      refine query_ok grammatical (fun element member => ?_) (fun part member => ?_) stops
      · obtain ⟨less, rfl, reads⟩ := bracket (.query element.query)
          (List.mem_append_left _ (List.mem_map_of_mem member)) (Query.element_length member)
        exact reads
      · have shorter := Query.part_length member
        exact own (.select part) (List.mem_append_right _ (List.mem_map_of_mem member)) depth
          (shorter.trans deep)

end Fragment

end TabularSql
