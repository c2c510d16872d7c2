import TabularSql.Proofs.Reading.Expr

/-!
# Reading signs, predicates and negations back

A sign and a NOT stand in front of their operand, and reading one of them is reading the operand and
applying it. A predicate reads a sum first and then decides by the next tokens.
-/

namespace TabularSql

set_option autoImplicit false

open Reader Grammar Lexeme

namespace Grammar

variable {inner : Inner}

/-! ## Signs and negations -/

variable {tokens rest : List Token} {token : Token} {operand tested : Expr} {negated : Bool}

theorem bind_congr_at {α β : Type} {read other : Reader α} {next : α → Reader β} {others : List Token}
    (same : read tokens = other others) :
    (read >>= next) tokens = (other >>= next) others := by
  show (read tokens >>= fun pair => next pair.1 pair.2) = (other others >>= fun pair => _)
  rw [same]

theorem many_cons {α : Type} {read : Reader (Option α)} {item : α}
    (found : read (token :: tokens) = .ok (some item, tokens)) :
    many read (token :: tokens) = (many read >>= fun items => pure (item :: items)) tokens := by
  show (read >>= _) (token :: tokens) = _
  rw [bind_ok found]
  rfl

theorem signed_sign {operator : UnaryOperator}
    (found : sign (token :: tokens) = .ok (some operator, tokens))
    (own : signed inner tokens = .ok (operand, rest)) :
    signed inner (token :: tokens) = .ok (.unary operator operand, rest) := by
  have split : signed inner (token :: tokens) =
      (signed inner >>= fun expr => pure (.unary operator expr)) tokens := by
    rw [signed, bind_congr_at (many_cons found)]
    simp only [bind_assoc, pure_bind]
    rfl
  rw [split, bind_ok own]
  rfl

theorem negation_not (own : negation inner tokens = .ok (operand, rest)) :
    negation inner (.word "NOT" none :: tokens) = .ok (.unary .not operand, rest) := by
  have found : after "NOT" (pure () : Reader Unit) (.word "NOT" none :: tokens) =
      .ok (some (), tokens) := after_keyword (by decide) rfl
  have split : negation inner (.word "NOT" none :: tokens) =
      (negation inner >>= fun expr => pure (.unary .not expr)) tokens := by
    rw [negation, bind_congr_at (many_cons found)]
    simp only [bind_assoc, pure_bind]
    rfl
  rw [split, bind_ok own]
  rfl

theorem reads_plus (own : ReadsAt inner 1 operand) :
    ReadsAt inner 1 (.unary .plus operand) :=
  fun rest stops => signed_sign rfl (own rest stops)

theorem reads_negate {behind : List Token} (starts : operand.StartsWith token behind)
    (notNumber : token.isNumber = false) (own : ReadsAt inner 1 operand) : ReadsAt inner 1
    (.unary .negate operand) := by
  intro rest stops
  refine signed_sign ?_ (own rest stops)
  show sign (.mark .minus :: (operand.tokens ++ rest)) = .ok (some .negate, operand.tokens ++ rest)
  rw [starts.tokens]
  cases token with
  | number digits long => simp [Token.isNumber] at notNumber
  | _ => rfl

theorem reads_not (own : ReadsAt inner 5 operand) :
    ReadsAt inner 5 (.unary .not operand) :=
  fun rest stops => negation_not (own rest stops)

/-! ## Predicates -/

theorem predicate_comparison {operator : BinaryOperator} {left right : Expr}
    (compares : operator.isComparison = true) (before : ReadsAt inner 3 left)
    (behind : ReadsAt inner 3 right) : ReadsAt inner 4 (.binary operator left right) := by
  intro rest stops
  have tokens : (Expr.binary operator left right).tokens ++ rest =
      left.tokens ++ operatorToken operator :: (right.tokens ++ rest) := by
    simp [Expr.tokens, Expr.lexemes, tokensOf_operator]
  have ranked : operator.level = 4 := by
    cases operator <;> first | rfl | simp [BinaryOperator.isComparison] at compares
  have first : sum inner (left.tokens ++ operatorToken operator :: (right.tokens ++ rest)) = _ :=
    before _ (Stops.cons (by rw [rank_operator, ranked]; decide))
  have second : sum inner (right.tokens ++ rest) = _ := behind rest (stops.mono (by decide))
  have found : comparison (operatorToken operator :: (right.tokens ++ rest)) =
      .ok (some operator, right.tokens ++ rest) := by
    cases operator <;> first | rfl | simp [BinaryOperator.isComparison] at compares
  show predicate inner ((Expr.binary operator left right).tokens ++ rest) = _
  rw [tokens, predicate, bind_ok first, bind_ok found]
  show (sum inner >>= _) _ = _
  rw [bind_ok second]
  rfl

def wordTokens (words : List String) : List Token := words.map (Token.word · none)

theorem isTest_null (rest : List Token) :
    isTest tested (wordTokens (notWords negated ++ ["NULL"]) ++ rest) =
      .ok (.isNull tested negated, rest) := by
  cases negated with
  | false =>
    show isTest tested (.word "NULL" none :: rest) = _
    rw [isTest, bind_ok (accept_other (by decide)),
      bind_ok (accept_keyword (by decide))]
    rfl
  | true =>
    show isTest tested (.word "NOT" none :: .word "NULL" none :: rest) = _
    rw [isTest, bind_ok (accept_keyword (by decide)), bind_ok (accept_keyword (by decide))]
    rfl

theorem isTest_truth {value : Bool} (rest : List Token) :
    isTest tested (wordTokens (notWords negated ++ [if value then "TRUE" else "FALSE"]) ++ rest) =
      .ok (.isTruth tested value negated, rest) := by
  have truth (negated : Bool) : (do
      if ← accept "NULL" then return .isNull tested negated
      if ← accept "TRUE" then return .isTruth tested true negated
      if ← accept "FALSE" then return .isTruth tested false negated
      unexpected "NULL, TRUE or FALSE" : Reader Expr)
        (.word (if value then "TRUE" else "FALSE") none :: rest) =
          .ok (.isTruth tested value negated, rest) := by
    cases value with
    | true =>
      rw [ite_skipped (accept_other (by decide)), bind_ok (accept_keyword (by decide))]
      rfl
    | false =>
      rw [ite_skipped (accept_other (by decide)), ite_skipped (accept_other (by decide)),
        bind_ok (accept_keyword (by decide))]
      rfl
  cases negated with
  | false =>
    show isTest tested (.word (if value then "TRUE" else "FALSE") none :: rest) = _
    rw [isTest, bind_ok (accept_other (by cases value <;> decide))]
    exact truth false
  | true =>
    show isTest tested (.word "NOT" none :: .word (if value then "TRUE" else "FALSE") none :: rest) = _
    rw [isTest, bind_ok (accept_keyword (by decide))]
    exact truth true

theorem predicate_is {whole : Expr} {words : List String} (own : ReadsAt inner 3 tested)
    (tokens : whole.tokens = tested.tokens ++ wordTokens ("IS" :: words))
    (test : ∀ rest, isTest tested (wordTokens words ++ rest) = .ok (whole, rest)) :
    ReadsAt inner 4 whole := by
  intro rest stops
  have first : sum inner (tested.tokens ++ (.word "IS" none :: (wordTokens words ++ rest))) = _ :=
    own _ (Stops.cons (by decide))
  have noComparison : comparison (.word "IS" none :: (wordTokens words ++ rest)) =
      .ok (none, .word "IS" none :: (wordTokens words ++ rest)) := rfl
  show predicate inner (whole.tokens ++ rest) = _
  rw [tokens, List.append_assoc]
  show predicate inner (tested.tokens ++ (.word "IS" none :: (wordTokens words ++ rest))) = _
  rw [predicate, bind_ok first, bind_ok noComparison]
  show (accept "IS" >>= _) _ = _
  rw [ite_taken (accept_keyword (by decide))]
  exact test rest

theorem tokensOf_words (words : List String) : tokensOf (phrase words) = wordTokens words :=
  tokensOf_phrase words

theorem reads_isNull (own : ReadsAt inner 3 tested) :
    ReadsAt inner 4 (.isNull tested negated) :=
  predicate_is own (by simp [Expr.tokens, Expr.lexemes, tokensOf_words]) fun rest =>
    isTest_null rest

theorem reads_isTruth {value : Bool} (own : ReadsAt inner 3 tested) :
    ReadsAt inner 4 (.isTruth tested value negated) :=
  predicate_is own (by simp [Expr.tokens, Expr.lexemes, tokensOf_words]) fun rest =>
    isTest_truth rest

/-- What is read behind the keyword NOT of a predicate, or where it could have stood. -/
def predicateTail (inner : Inner) (tested : Expr) (negated : Bool) : Reader Expr := do
  if ← accept "BETWEEN" then
    let low ← sum inner
    expect "AND"
    return .between tested low (← sum inner) negated
  if ← accept "IN" then return ← membership inner tested negated
  if ← accept "LIKE" then
    let pattern ← sum inner
    return .like tested pattern (← after "ESCAPE" (sum inner)) negated
  if ← accept "HAS" then
    return .has tested (← parenthesized (separated inner.expr)) false negated
  if ← accept "HAS_LIKE" then
    return .has tested (← parenthesized (separated inner.expr)) true negated
  return tested

theorem acceptNot_keyword {keyword : String} (known : keyword ∈ predicateWords) (negated : Bool)
    (rest : List Token) :
    acceptNot (wordTokens (notWords negated ++ [keyword]) ++ rest) =
      .ok (negated, .word keyword none :: rest) := by
  have listed : keyword = "BETWEEN" ∨ keyword = "IN" ∨ keyword = "LIKE" ∨ keyword = "HAS" ∨
      keyword = "HAS_LIKE" := by
    simpa [predicateWords] using known
  rcases listed with rfl | rfl | rfl | rfl | rfl <;> cases negated <;> rfl

theorem predicate_keyword {keyword : String} (own : ReadsAt inner 3 tested)
    (known : keyword ∈ predicateWords) :
    predicate inner (tested.tokens ++ (wordTokens (notWords negated ++ [keyword]) ++ rest)) =
      predicateTail inner tested negated (.word keyword none :: rest) := by
  have opens : ∃ name behind, wordTokens (notWords negated ++ [keyword]) ++ rest =
      .word name none :: behind ∧ (Token.word name none).rank = 4 ∧
        (Token.word name none).isKeyword "IS" = false := by
    cases negated with
    | true => exact ⟨"NOT", _, rfl, by decide, by decide⟩
    | false =>
      refine ⟨keyword, rest, rfl, ?_⟩
      revert keyword
      decide
  have behind := acceptNot_keyword known negated rest
  obtain ⟨name, more, same, ranked, notIs⟩ := opens
  rw [same] at behind ⊢
  have first : sum inner (tested.tokens ++ .word name none :: more) = _ :=
    own _ (Stops.cons (by omega))
  have noComparison : comparison (.word name none :: more) = .ok (none, .word name none :: more) :=
    rfl
  rw [predicate, bind_ok first, bind_ok noComparison]
  show (accept "IS" >>= _) _ = _
  rw [ite_skipped (accept_other notIs),
    bind_ok behind]
  rfl

theorem reads_between {low high : Expr} (own : ReadsAt inner 3 tested) (least : ReadsAt inner 3 low)
    (most : ReadsAt inner 3 high) :
    ReadsAt inner 4 (.between tested low high negated) := by
  intro rest stops
  have tokens : (Expr.between tested low high negated).tokens ++ rest = tested.tokens ++
      (wordTokens (notWords negated ++ ["BETWEEN"]) ++
        (low.tokens ++ .word "AND" none :: (high.tokens ++ rest))) := by
    simp [Expr.tokens, Expr.lexemes, tokensOf_words, wordTokens, Lexeme.tokens]
  have second : sum inner (low.tokens ++ .word "AND" none :: (high.tokens ++ rest)) = _ :=
    least _ (Stops.cons (by decide))
  have third : sum inner (high.tokens ++ rest) = _ := most rest (stops.mono (by decide))
  show predicate inner ((Expr.between tested low high negated).tokens ++ rest) = _
  rw [tokens, predicate_keyword own (by decide), predicateTail,
    ite_taken (accept_keyword (by decide)), bind_ok second,
    bind_ok (expect_keyword (by decide)), bind_ok third]
  rfl

theorem reads_like {pattern : Expr} {escape : Option Expr} (own : ReadsAt inner 3 tested)
    (patternReads : ReadsAt inner 3 pattern) (escapeReads : ∀ expr ∈ escape, ReadsAt inner 3 expr) :
    ReadsAt inner 4 (.like tested pattern escape negated) := by
  intro rest stops
  let escapeTokens := (escape.map fun expr => Token.word "ESCAPE" none :: expr.tokens).getD []
  have tokens : (Expr.like tested pattern escape negated).tokens ++ rest = tested.tokens ++
      (wordTokens (notWords negated ++ ["LIKE"]) ++
        (pattern.tokens ++ (escapeTokens ++ rest))) := by
    cases escape <;> simp [Expr.tokens, Expr.lexemes, Expr.lexemesAfter, tokensOf_words, wordTokens,
      Lexeme.tokens, escapeTokens]
  have behind : Stops 3 (escapeTokens ++ rest) := by
    cases escape with
    | none => exact stops.mono (by decide)
    | some expr => exact Stops.cons (by decide)
  have second : sum inner (pattern.tokens ++ (escapeTokens ++ rest)) = _ := patternReads _ behind
  have third : after "ESCAPE" (sum inner) (escapeTokens ++ rest) = .ok (escape, rest) := by
    cases escape with
    | none => exact after_stops stops (by decide)
    | some expr => exact after_keyword (by decide) (escapeReads expr rfl rest (stops.mono (by decide)))
  show predicate inner ((Expr.like tested pattern escape negated).tokens ++ rest) = _
  rw [tokens, predicate_keyword own (by decide), predicateTail,
    ite_skipped (accept_other (by decide)), ite_skipped (accept_other (by decide)),
    ite_taken (accept_keyword (by decide)), bind_ok second, bind_ok third]
  rfl

theorem reads_has {values : List Expr} {pattern : Bool} (own : ReadsAt inner 3 tested)
    (listed : values ≠ []) (reads : ∀ expr ∈ values, ReadsInside inner expr) :
    ReadsAt inner 4 (.has tested values pattern negated) := by
  intro rest stops
  have tokens : (Expr.has tested values pattern negated).tokens ++ rest = tested.tokens ++
      (wordTokens (notWords negated ++ [if pattern then "HAS_LIKE" else "HAS"]) ++
        (.mark .leftParen ::
          (commaSeparated (values.map Expr.tokens) ++ .mark .rightParen :: rest))) := by
    simp [Expr.tokens, Expr.lexemes, spaced, tokensOf_words, wordTokens, Lexeme.tokens,
      tokensOf_list (.inl rfl)]
  have list : parenthesized (separated inner.expr) (.mark .leftParen ::
      (commaSeparated (values.map Expr.tokens) ++ .mark .rightParen :: rest)) = .ok (values, rest) :=
    parenthesized_ok (separated_inside listed reads (Stops.cons (by decide)))
  show predicate inner ((Expr.has tested values pattern negated).tokens ++ rest) = _
  rw [tokens, predicate_keyword own (by cases pattern <;> decide), predicateTail]
  cases pattern with
  | false =>
    iterate 3 rw [ite_skipped (accept_other (by decide))]
    rw [ite_taken (accept_keyword (by decide)), bind_ok list]
    rfl
  | true =>
    iterate 4 rw [ite_skipped (accept_other (by decide))]
    rw [ite_taken (accept_keyword (by decide)), bind_ok list]
    rfl

theorem reads_inList {candidates : List Expr} (own : ReadsAt inner 3 tested) (listed : candidates ≠ [])
    (reads : ∀ expr ∈ candidates, ReadsInside inner expr)
    (starts : ∀ expr ∈ candidates, ∃ token behind, expr.StartsWith token behind) :
    ReadsAt inner 4 (.inList tested candidates negated) := by
  intro rest stops
  let listTokens := commaSeparated (candidates.map Expr.tokens) ++ Token.mark .rightParen :: rest
  have tokens : (Expr.inList tested candidates negated).tokens ++ rest = tested.tokens ++
      (wordTokens (notWords negated ++ ["IN"]) ++ (.mark .leftParen :: listTokens)) := by
    simp [Expr.tokens, Expr.lexemes, spaced, tokensOf_words, wordTokens, Lexeme.tokens,
      tokensOf_list (.inl rfl), listTokens]
  have list : separated inner.expr listTokens = .ok (candidates, .mark .rightParen :: rest) :=
    separated_inside listed reads (Stops.cons (by decide))
  obtain ⟨token, behind, first, start⟩ := list_starts listed starts
  have head : listTokens.head? = some token := by simp [listTokens, first]
  have notSelect : isNext "SELECT" listTokens = .ok (false, listTokens) := by
    rw [isNext, head, Option.any_some, Token.starts_not_keyword start (by decide) (by decide)]
  have notWith : isNext "WITH" listTokens = .ok (false, listTokens) := by
    rw [isNext, head, Option.any_some, Token.starts_not_keyword start (by decide) (by decide)]
  have member : membership inner tested negated (.mark .leftParen :: listTokens) =
      .ok (.inList tested candidates negated, rest) := by
    refine parenthesized_ok ?_
    rw [bind_ok notSelect, bind_ok notWith, if_neg (by decide), bind_ok list]
    rfl
  show predicate inner ((Expr.inList tested candidates negated).tokens ++ rest) = _
  rw [tokens, predicate_keyword own (by decide), predicateTail,
    ite_skipped (accept_other (by decide)), ite_taken (accept_keyword (by decide))]
  exact member

end Grammar

/-! ## Subqueries -/

namespace Query

def tokens (query : Query) : List Token := tokensOf query.lexemes

end Query

namespace Grammar

variable {inner : Inner}

def ReadsQueryInside (inner : Inner) (whole : Query) : Prop :=
  ∀ rest, Stops 17 rest → inner.query (whole.tokens ++ rest) = .ok (whole, rest)

theorem select_starts (select : Select) :
    ∃ behind, tokensOf select.lexemes = .word "SELECT" none :: behind := by
  obtain ⟨distinct, projection, source, definingFilter, filter, groupBy, orderBy, page⟩ := select
  exact ⟨_, rfl⟩

theorem query_starts (query : Query) : ∃ name behind, query.tokens = .word name none :: behind ∧
    (name = "SELECT" ∨ name = "WITH") := by
  obtain ⟨commonTables, first, unions⟩ := query
  cases commonTables with
  | none =>
    obtain ⟨behind, starts⟩ := select_starts first
    exact ⟨"SELECT", behind ++ tokensOf (UnionBranch.lexemes unions),
      by simp [Query.tokens, Query.lexemes, CommonTable.clauseLexemes, starts], .inl rfl⟩
  | some list => exact ⟨"WITH", _, rfl, .inr rfl⟩

theorem reads_inQuery {tested : Expr} {candidates : Query} {negated : Bool}
    (own : ReadsAt inner 3 tested) (reads : ReadsQueryInside inner candidates) :
    ReadsAt inner 4 (.inQuery tested candidates negated) := by
  intro rest stops
  let queryTokens := candidates.tokens ++ Token.mark .rightParen :: rest
  have tokens : (Expr.inQuery tested candidates negated).tokens ++ rest = tested.tokens ++
      (wordTokens (notWords negated ++ ["IN"]) ++ (.mark .leftParen :: queryTokens)) := by
    simp [Expr.tokens, Expr.lexemes, spaced, tokensOf_words, wordTokens, Lexeme.tokens,
      Query.tokens, queryTokens]
  have query : inner.query queryTokens = .ok (candidates, .mark .rightParen :: rest) :=
    reads _ (Stops.cons (by decide))
  obtain ⟨name, behind, first, keyword⟩ := query_starts candidates
  have head : queryTokens.head? = some (.word name none) := by simp [queryTokens, first]
  have isSelect : isNext "SELECT" queryTokens =
      .ok ((Token.word name none).isKeyword "SELECT", queryTokens) := by
    rw [isNext, head, Option.any_some]
  have isWith : isNext "WITH" queryTokens =
      .ok ((Token.word name none).isKeyword "WITH", queryTokens) := by
    rw [isNext, head, Option.any_some]
  have one : ((Token.word name none).isKeyword "SELECT" ||
      (Token.word name none).isKeyword "WITH") = true := by
    rcases keyword with rfl | rfl <;> decide
  have member : membership inner tested negated (.mark .leftParen :: queryTokens) =
      .ok (.inQuery tested candidates negated, rest) := by
    refine parenthesized_ok ?_
    rw [bind_ok isSelect, bind_ok isWith, if_pos one, bind_ok query]
    rfl
  show predicate inner ((Expr.inQuery tested candidates negated).tokens ++ rest) = _
  rw [tokens, predicate_keyword own (by decide), predicateTail,
    ite_skipped (accept_other (by decide)), ite_taken (accept_keyword (by decide))]
  exact member

/-! ## Every form of expression -/

/-- An expression is read back at every level that it fits in, and goes on as a chain where it fits in
one. -/
structure Reads (inner : Inner) (whole : Expr) : Prop where
  starts : ∃ token behind, whole.StartsWith token behind
  reads : ∀ level, whole.level ≤ level → level ≤ 7 → ReadsAt inner level whole
  chain : ∀ level, IsChain level → whole.level ≤ level → ReadsChain inner level whole

theorem reads_of_level {whole : Expr} (starts : ∃ token behind, whole.StartsWith token behind)
    (own : ReadsAt inner whole.level whole)
    (chain : IsChain whole.level → ReadsChain inner whole.level whole) : Reads inner whole := by
  obtain ⟨token, behind, start⟩ := starts
  refine ⟨⟨token, behind, start⟩, fun level => reads_above start own, fun level chained looser => ?_⟩
  by_cases same : whole.level = level
  · subst same
    exact chain chained
  · have bound : level ≤ 7 := by rcases chained with h | h | h | h <;> omega
    exact readsChain_of_reads chained (reads_above start own (by omega) (by omega))

theorem binary_of_isChain {whole : Expr} (level : whole.level ≤ 7) (chained : IsChain whole.level) :
    ∃ operator left right, whole = .binary operator left right := by
  cases whole with
  | binary operator left right => exact ⟨operator, left, right, rfl⟩
  | unary operator => cases operator <;> simp [IsChain, Expr.level] at chained
  | _ => simp [IsChain, Expr.level] at chained level

theorem reads_chained {operator : BinaryOperator} {left right : Expr}
    (grammatical : (Expr.binary operator left right).Grammatical)
    (starts : ∃ token behind, (Expr.binary operator left right).StartsWith token behind)
    (chained : IsChain operator.level) (before : Reads inner left) (behind : Reads inner right) :
    Reads inner (.binary operator left right) := by
  obtain ⟨leftLevel, rightLevel⟩ := grammatical
  have bound : operator.level ≤ 7 := by cases operator <;> decide
  have own : operator.leftLevel = operator.level := if_neg fun compares => by
    cases operator <;> first | cases compares; done | simp [IsChain, BinaryOperator.level] at chained
  rw [own] at leftLevel
  have chain : ReadsChain inner operator.level (.binary operator left right) :=
    readsChain_binary chained (before.chain operator.level chained leftLevel)
      (behind.reads (operator.level - 1) (by omega) (by omega))
  exact reads_of_level starts (reads_of_readsChain chained chain) fun _ => chain

/-- Each form of expression is read back when what it holds is. -/
theorem expr_reads_of_inside (whole : Expr) (grammatical : whole.Grammatical)
    (level : whole.level ≤ 7)
    (starts : ∃ token behind, whole.StartsWith token behind)
    (operands : ∀ expr, Fragment.expr expr ∈ whole.inside → expr.level ≤ 7 → Reads inner expr)
    (brackets : ∀ expr, Fragment.expr expr ∈ whole.inside → expr.level ≤ 7 → ReadsInside inner expr)
    (queries : ∀ query, Fragment.query query ∈ whole.inside → ReadsQueryInside inner query) :
    Reads inner whole := by
  by_cases chained : IsChain whole.level
  · obtain ⟨operator, left, right, rfl⟩ := binary_of_isChain level chained
    have bound : operator.leftLevel ≤ 7 ∧ operator.level ≤ 7 := by cases operator <;> decide
    exact reads_chained grammatical starts chained
      (operands left (by simp) (grammatical.1.trans bound.1))
      (operands right (by simp) (grammatical.2.le.trans bound.2))
  refine reads_of_level starts ?_ fun other => absurd other chained
  have operand (expr : Expr) (member : Fragment.expr expr ∈ whole.inside) (own : Nat)
      (fits : expr.level ≤ own) (bound : own ≤ 7) : ReadsAt inner own expr :=
    (operands expr member (fits.trans bound)).reads own fits bound
  have sum_ (expr : Expr) (member : Fragment.expr expr ∈ whole.inside) (fits : expr.level ≤ 3) :
      ReadsAt inner 3 expr := operand expr member 3 fits (by decide)
  have first (expr : Expr) (member : Fragment.expr expr ∈ whole.inside) (fits : expr.level ≤ 7) :
      ∃ token behind, expr.StartsWith token behind := (operands expr member fits).starts
  cases whole with
  | literal value => exact reads_literal grammatical
  | column reference => exact reads_column grammatical
  | parameter name => exact reads_parameter
  | currentUser => exact reads_currentUser
  | wildcard => simp [Expr.level] at level
  | call name distinct arguments =>
    refine reads_call grammatical.2.1 grammatical.2.2 ?_ ?_
    · exact fun expr member => brackets expr (List.mem_map_of_mem member)
    · exact fun expr member => first expr (List.mem_map_of_mem member)
  | cast inside target =>
    exact reads_cast grammatical.2 (brackets inside (by simp) grammatical.1)
  | caseWhen value branches otherwise =>
    obtain ⟨valueLevel, listed, branchLevels, otherwiseLevel⟩ := grammatical
    refine reads_caseWhen listed ?_ ?_ ?_
    · intro expr given
      have member : Fragment.expr expr ∈ (Expr.caseWhen value branches otherwise).inside := by
        simp [Option.mem_def.mp given]
      exact ⟨brackets expr member (valueLevel expr given), first expr member (valueLevel expr given)⟩
    · intro branch member
      exact ⟨brackets branch.1 (by simp; grind) (branchLevels branch member).1,
        brackets branch.2 (by simp; grind) (branchLevels branch member).2⟩
    · intro expr given
      exact brackets expr (by simp [Option.mem_def.mp given]) (otherwiseLevel expr given)
  | nested inside => exact reads_nested (brackets inside (by simp) grammatical)
  | doubleTest test column => exact reads_doubleTest
  | unnest column => exact reads_unnest
  | textMatches text => exact reads_textMatches (brackets text (by simp) grammatical)
  | matchAgainst text => exact reads_matchAgainst (brackets text (by simp) grammatical)
  | binary operator left right =>
    have compares : operator.isComparison = true := by
      cases operator <;> first | rfl | simp [IsChain, Expr.level, BinaryOperator.level] at chained
    have ranked : operator.level = 4 ∧ operator.leftLevel = 3 := by
      cases operator <;> first | exact ⟨rfl, rfl⟩ | simp [BinaryOperator.isComparison] at compares
    obtain ⟨leftLevel, rightLevel⟩ := grammatical
    rw [ranked.2] at leftLevel
    rw [ranked.1] at rightLevel
    show ReadsAt inner operator.level _
    rw [ranked.1]
    exact predicate_comparison compares (sum_ left (by simp) leftLevel)
      (sum_ right (by simp) (by omega))
  | unary operator inside =>
    have member : Fragment.expr inside ∈ (Expr.unary operator inside).inside := by
      simp
    cases operator with
    | not => exact reads_not (operand inside member 5 grammatical (by decide))
    | plus => exact reads_plus (operand inside member 1 grammatical (by decide))
    | negate =>
      obtain ⟨token, behind, start⟩ := first inside member (grammatical.1.trans (by decide))
      have notNumber : token.isNumber = false := by
        refine Bool.eq_false_iff.mpr fun number => ?_
        have unsigned := start.number grammatical.1 number
        simp [grammatical.2] at unsigned
      exact reads_negate start notNumber (operand inside member 1 grammatical.1 (by decide))
  | isNull tested negated => exact reads_isNull (sum_ tested (by simp) grammatical)
  | isTruth tested value negated => exact reads_isTruth (sum_ tested (by simp) grammatical)
  | between tested low high negated =>
    obtain ⟨testedLevel, lowLevel, highLevel⟩ := grammatical
    exact reads_between (sum_ tested (by simp) testedLevel) (sum_ low (by simp) lowLevel)
      (sum_ high (by simp) highLevel)
  | inList tested candidates negated =>
    obtain ⟨testedLevel, listed, levels⟩ := grammatical
    exact reads_inList (sum_ tested (by simp) testedLevel) listed
      (fun expr member => brackets expr (by simp [member]) (levels expr member))
      fun expr member => first expr (by simp [member]) (levels expr member)
  | inQuery tested candidates negated =>
    exact reads_inQuery (sum_ tested (by simp) grammatical) (queries candidates (by simp))
  | like tested pattern escape negated =>
    obtain ⟨testedLevel, patternLevel, escapeLevel⟩ := grammatical
    exact reads_like (sum_ tested (by simp) testedLevel) (sum_ pattern (by simp) patternLevel)
      fun expr given => sum_ expr (by simp [Option.mem_def.mp given]) (escapeLevel expr given)
  | has tested values pattern negated =>
    obtain ⟨testedLevel, listed, levels⟩ := grammatical
    exact reads_has (sum_ tested (by simp) testedLevel) listed
      fun expr member => brackets expr (by simp [member]) (levels expr member)

end Grammar

end TabularSql
