import TabularSql.Proofs.Reading.Basic

/-!
# Reading expressions back

The first token of an expression tells which readers take it; the rest is one lemma for each form of
expression, at the level where the grammar reads it, and one for each step from a level to the next
looser one.
-/

namespace TabularSql

set_option autoImplicit false

open Reader Grammar Lexeme

/-! ## First tokens -/

namespace Token

def starts : Token → Bool
  | number _ _ | string _ | word _ (some _) => true
  | mark known => known = .minus || known = .plus || known = .colon || known = .leftParen
  | word name none => !isReserved name || Text.upper name = "CASE" || Text.upper name = "NOT"
  | other _ => false

/-- No keyword but CASE and NOT starts an expression. -/
theorem starts_not_keyword {token : Token} {keyword : String} (start : token.starts = true)
    (reserved : isReserved keyword = true)
    (other : Text.upper keyword ≠ "CASE" ∧ Text.upper keyword ≠ "NOT") :
    token.isKeyword keyword = false := by
  refine Bool.eq_false_iff.mpr fun same => ?_
  unfold isKeyword at same
  split at same
  · next name =>
      simp only [Text.sameWord, beq_iff_eq] at same
      have nameReserved : isReserved name = true := by
        simpa [isReserved, Text.listed, Text.sameWord, same] using reserved
      simp [starts, nameReserved, same, other] at start
  · cases same

end Token

namespace Grammar

def Opening.isName : Opening → Bool
  | .column | .call _ => true
  | _ => false

theorem opening_reserved {word : String} {called : Bool} (reserved : isReserved word = true) :
    (opening word called).isName = false := by
  have skip {test : Prop} [Decidable test] {special other : Opening}
      (first : special.isName = false) (second : other.isName = false) :
      (if test then special else other).isName = false := by
    split
    · exact first
    · exact second
  simp only [opening, reserved, if_true]
  iterate 11 refine skip rfl ?_
  rfl

theorem opening_free {word : String} {called : Bool} (name : (opening word called).isName = true) :
    isReserved word = false :=
  Bool.eq_false_iff.mpr fun reserved => by simp [opening_reserved reserved] at name

end Grammar

theorem Identifier.lexeme_tokens (identifier : Identifier) :
    identifier.lexeme.tokens = [.word identifier.name identifier.quote] := by
  obtain ⟨name, quote⟩ := identifier
  cases quote <;> rfl

theorem ColumnRef.tokens_head (column : ColumnRef) :
    ∃ rest, tokensOf column.lexemes = .word column.head.name column.head.quote :: rest ∧
      (rest = [] ∨ rest.head? = some (.mark .period)) := by
  obtain ⟨qualifier, name⟩ := column
  cases qualifier with
  | none => exact ⟨[], by simp [ColumnRef.lexemes, ColumnRef.head, Identifier.lexeme_tokens], .inl rfl⟩
  | some qualifier =>
    refine ⟨[.mark .period, .word name.name name.quote], ?_, .inr rfl⟩
    simp only [ColumnRef.lexemes, ColumnRef.head, tokensOf_cons, Identifier.lexeme_tokens]
    rfl

namespace Expr

/-- What the first token of an expression tells about it. -/
structure StartsWith (whole : Expr) (token : Token) (behind : List Token) : Prop where
  tokens : whole.tokens = token :: behind
  starts : token.starts = true
  /-- Only a negation starts with NOT. -/
  noNot : whole.level ≤ 4 → token.isKeyword "NOT" = false
  /-- Only a number starts with a number, operators apart. -/
  number : whole.level ≤ 1 → token.isNumber = true → whole.isUnsignedNumber = true
  /-- Without an operator there is no sign but that of a number. -/
  noSign : whole.level = 0 → token ≠ .mark .plus ∧
    (token = .mark .minus → behind.head?.any Token.isNumber = true)

theorem startsWith_word {whole : Expr} {name : String} {behind : List Token}
    (tokens : whole.tokens = .word name none :: behind) (free : isReserved name = false) :
    StartsWith whole (.word name none) behind where
  tokens := tokens
  starts := by simp [Token.starts, free]
  noNot := by
    intro _
    refine Bool.eq_false_iff.mpr fun same => ?_
    simp only [Token.isKeyword, Text.sameWord, beq_iff_eq] at same
    have reserved : isReserved name = isReserved "NOT" := by
      simp [isReserved, Text.listed, Text.sameWord, same]
    rw [free] at reserved
    exact absurd reserved (by decide)
  number := by simp [Token.isNumber]
  noSign := by simp

theorem startsWith_operand {whole operand : Expr} {token : Token} {behind more : List Token}
    (first : StartsWith operand token behind) (tokens : whole.tokens = operand.tokens ++ more)
    (looser : 2 ≤ whole.level) (level : whole.level ≤ 4 → operand.level ≤ 4) :
    StartsWith whole token (behind ++ more) where
  tokens := by rw [tokens, first.tokens, List.cons_append]
  starts := first.starts
  noNot := fun bound => first.noNot (level bound)
  number := fun bound => by omega
  noSign := fun bound => by omega

theorem startsWith_of_inside (whole : Expr) (grammatical : whole.Grammatical)
    (level : whole.level ≤ 7)
    (own : ∀ expr, Fragment.expr expr ∈ whole.inside → expr.level ≤ 7 →
      ∃ token behind, StartsWith expr token behind) :
    ∃ token behind, StartsWith whole token behind := by
  have operand (first : Expr) (more : List Token) (member : Fragment.expr first ∈ whole.inside)
      (tokens : whole.tokens = first.tokens ++ more) (looser : 2 ≤ whole.level)
      (tighter : first.level ≤ whole.level) : ∃ token behind, StartsWith whole token behind := by
    obtain ⟨token, behind, starts⟩ := own first member (tighter.trans level)
    exact ⟨token, behind ++ more, startsWith_operand starts tokens looser (tighter.trans ·)⟩
  cases whole with
  | literal value =>
    cases value with
    | null => exact ⟨_, _, startsWith_word rfl (by decide)⟩
    | boolean value =>
      cases value
      · exact ⟨_, _, startsWith_word rfl (by decide)⟩
      · exact ⟨_, _, startsWith_word rfl (by decide)⟩
    | string value => exact ⟨.string value, [], rfl, rfl, by simp [Token.isKeyword],
        by simp [Token.isNumber], by simp⟩
    | number digits =>
      rcases grammatical with shape | ⟨behind, same, shape⟩
      · have notMinus := numeral_not_minus shape
        have tokens : (literal (.number digits)).tokens = [.number digits false] := by
          simp [Expr.tokens, Expr.lexemes, Literal.lexeme, tokens_of_numeral shape]
        exact ⟨_, _, tokens, rfl, fun _ => rfl, fun _ _ => by simpa [isUnsignedNumber],
          by simp⟩
      · have tokens : (literal (.number digits)).tokens =
            [.mark .minus, .number (String.ofList behind) false] := by
          simp [Expr.tokens, Expr.lexemes, Literal.lexeme, tokens_of_negative same]
        exact ⟨_, _, tokens, rfl, fun _ => rfl, fun _ other => by simp [Token.isNumber] at other,
          by simp [Token.isNumber]⟩
  | column reference =>
    obtain ⟨behind, tokens, _⟩ := reference.tokens_head
    cases quote : reference.head.quote with
    | none =>
      rw [quote] at tokens
      have name := congrArg Opening.isName (grammatical.2 quote)
      exact ⟨_, _, startsWith_word tokens (opening_free name)⟩
    | some delimiter =>
      rw [quote] at tokens
      exact ⟨_, behind, tokens, rfl, fun _ => rfl, by simp [Token.isNumber], by simp⟩
  | parameter name => exact ⟨_, _, rfl, rfl, fun _ => rfl, by simp [Token.isNumber], by simp⟩
  | currentUser => exact ⟨_, _, startsWith_word rfl (by decide)⟩
  | wildcard => simp [Expr.level] at level
  | call name distinct arguments =>
    exact ⟨_, _, startsWith_word rfl (opening_free (congrArg Opening.isName grammatical.2.1))⟩
  | cast target => exact ⟨_, _, startsWith_word rfl (by decide)⟩
  | doubleTest test column =>
    cases test
    · exact ⟨_, _, startsWith_word rfl (by decide)⟩
    · exact ⟨_, _, startsWith_word rfl (by decide)⟩
  | textMatches | matchAgainst | unnest => exact ⟨_, _, startsWith_word rfl (by decide)⟩
  | caseWhen value branches otherwise =>
    exact ⟨.word "CASE" none, _, rfl, by decide, fun _ => by decide,
      by simp [Token.isNumber], by simp⟩
  | nested inner =>
    exact ⟨.mark .leftParen, _, rfl, rfl, fun _ => rfl, by simp [Token.isNumber], by simp⟩
  | unary operator inner =>
    cases operator with
    | not => exact ⟨.word "NOT" none, _, rfl, by decide, by simp [Expr.level], by simp [Expr.level],
        by simp [Expr.level]⟩
    | negate | plus =>
      exact ⟨_, _, rfl, rfl, fun _ => rfl, by simp [Token.isNumber], by simp [Expr.level]⟩
  | binary operator left right =>
    have tighter : operator.leftLevel ≤ operator.level ∧ 2 ≤ operator.level := by
      cases operator <;> decide
    exact operand left (operatorToken operator :: right.tokens) (by simp [inside])
      (by simp [Expr.tokens, Expr.lexemes, tokensOf_operator]) tighter.2
      (grammatical.1.trans tighter.1)
  | isNull tested negated | isTruth tested value negated | inQuery tested candidates negated =>
    exact operand tested _ (by simp [inside])
      (by simp only [Expr.tokens, Expr.lexemes, tokensOf_append, List.append_assoc]; rfl)
      (by simp [Expr.level]) (le_trans grammatical (by simp [Expr.level]))
  | between tested _ _ _ | inList tested _ _ | like tested _ _ _ | has tested _ _ _ =>
    exact operand tested _ (by simp [inside])
      (by simp only [Expr.tokens, Expr.lexemes, tokensOf_append, List.append_assoc]; rfl)
      (by simp [Expr.level]) (le_trans grammatical.1 (by simp [Expr.level]))

theorem startsWith {whole : Expr}
    (writable : Fragment.Everywhere Fragment.Writable (.expr whole)) (level : whole.level ≤ 7) :
    ∃ token behind, StartsWith whole token behind := by
  induction whole using Fragment.expr_induction with
  | step whole ih =>
    obtain ⟨⟨grammatical, _⟩, inside⟩ := Fragment.everywhere_iff.mp writable
    exact startsWith_of_inside whole grammatical level fun part member => ih part member (inside _ member)

end Expr

/-! ## From each level to the next -/

namespace Grammar

variable {inner : Inner} {whole : Expr} {token : Token} {behind : List Token}

variable {rest : List Token} {operand otherwise : Option Expr} {list : List Expr} {name : String}
  {branches : List (Expr × Expr)}

theorem many_none {α : Type} {read : Reader (Option α)} {tokens : List Token}
    (none : read tokens = .ok (.none, tokens)) : many read tokens = .ok ([], tokens) := by
  exact @many_ok α read (fun _ => True) (fun _ => []) [] tokens (by simp) trivial none

theorem sign_none (starts : whole.StartsWith token behind) (level : whole.level = 0)
    (rest : List Token) :
    sign (whole.tokens ++ rest) = .ok (none, whole.tokens ++ rest) := by
  obtain ⟨notPlus, minus⟩ := starts.noSign level
  rw [starts.tokens, List.cons_append]
  unfold sign
  split
  · next same => rw [same]
  · next notNumber same =>
      obtain ⟨rfl, rfl⟩ := List.cons.inj same
      have number := minus rfl
      cases behind with
      | nil => simp at number
      | cons next behind =>
        cases next with
        | number digits long => exact absurd rfl (notNumber digits long _)
        | _ => simp [Token.isNumber] at number
  · next same => exact absurd (List.cons.inj same).1 notPlus
  · rfl

theorem signed_of_primary (starts : whole.StartsWith token behind) (level : whole.level = 0)
    (reads : ReadsAt inner 0 whole) : ReadsAt inner 1 whole := by
  intro rest stops
  have own : primary inner _ = _ := reads rest (stops.mono (by decide))
  show signed inner _ = _
  rw [signed, bind_ok (many_none (sign_none starts level rest)), bind_ok own]
  rfl

theorem comparison_stops (stops : Stops 4 rest) :
    comparison rest = .ok (none, rest) := by
  unfold comparison
  split
  all_goals first
    | rfl
    | exact absurd (stops _ rfl) (by decide)

theorem acceptNot_stops (stops : Stops 4 rest) :
    acceptNot rest = .ok (false, rest) := by
  have noNot : rest.head?.any (Token.isKeyword "NOT") = false := by
    cases rest with
    | nil => rfl
    | cons token rest =>
      refine Bool.eq_false_iff.mpr fun same => ?_
      have ranked := stops token rfl
      rw [Token.rank_of_isKeyword same] at ranked
      exact absurd ranked (by decide)
  have none : (predicateWords.any fun word => startsWith ["NOT", word] rest) = false := by
    refine List.any_eq_false.mpr fun word _ => ?_
    cases rest with
    | nil => simp [startsWith]
    | cons token rest =>
      have other : token.isKeyword "NOT" = false := noNot
      simp [startsWith, other]
  rw [acceptNot, none]
  rfl

theorem predicate_of_sum (reads : ReadsAt inner 3 whole) : ReadsAt inner 4 whole := by
  intro rest stops
  have own : sum inner _ = _ := reads rest (stops.mono (by decide))
  show predicate inner _ = _
  rw [predicate, bind_ok own, bind_ok (comparison_stops stops)]
  show (accept "IS" >>= _) rest = _
  rw [ite_skipped (accept_stops stops (by decide)), bind_ok (acceptNot_stops stops)]
  iterate 5 rw [ite_skipped (accept_stops stops (by decide))]
  rfl

theorem negation_of_predicate (starts : whole.StartsWith token behind) (level : whole.level ≤ 4)
    (reads : ReadsAt inner 4 whole) : ReadsAt inner 5 whole := by
  intro rest stops
  have noNot : after "NOT" (pure () : Reader Unit) (whole.tokens ++ rest) =
      .ok (none, whole.tokens ++ rest) := by
    have none : accept "NOT" (whole.tokens ++ rest) = .ok (false, whole.tokens ++ rest) := by
      refine accept_none fun first head => ?_
      rw [starts.tokens] at head
      cases head
      exact starts.noNot level
    rw [after, bind_ok none]
    rfl
  have own : predicate inner _ = _ := reads rest (stops.mono (by decide))
  show negation inner _ = _
  rw [negation, bind_ok (many_none noNot), bind_ok own]
  rfl

theorem chain_of_operand {level : Nat} (chained : IsChain level)
    (reads : ReadsAt inner (level - 1) whole) : ReadsAt inner level whole :=
  reads_of_readsChain chained (readsChain_of_reads chained reads)

theorem reads_above (starts : whole.StartsWith token behind)
    (own : ReadsAt inner whole.level whole) {level : Nat} (looser : whole.level ≤ level)
    (bound : level ≤ 7) : ReadsAt inner level whole := by
  induction level with
  | zero =>
    have same : whole.level = 0 := by omega
    rwa [same] at own
  | succ level ih =>
    rcases Nat.lt_or_ge level whole.level with above | below
    · have same : level + 1 = whole.level := by omega
      rwa [same]
    · have reads := ih below (by omega)
      have known : level = 0 ∨ level = 1 ∨ level = 2 ∨ level = 3 ∨ level = 4 ∨ level = 5 ∨
          level = 6 := by omega
      rcases known with rfl | rfl | rfl | rfl | rfl | rfl | rfl
      · exact signed_of_primary starts (by omega) reads
      · exact chain_of_operand (.inl rfl) reads
      · exact chain_of_operand (.inr (.inl rfl)) reads
      · exact predicate_of_sum reads
      · exact negation_of_predicate starts below reads
      · exact chain_of_operand (.inr (.inr (.inl rfl))) reads
      · exact chain_of_operand (.inr (.inr (.inr rfl))) reads

/-! ## Expressions without operators -/

theorem primary_special {word : String} {opened : Opening}
    (opens : opening word (rest.head? = some (.mark .leftParen)) = opened)
    (special_ : opened ≠ .column ∧ opened ≠ .reserved) :
    primary inner (.word word none :: rest) = special inner opened rest := by
  show wordExpr inner word rest = _
  unfold wordExpr
  rw [opens]
  cases opened with
  | column => exact absurd rfl special_.1
  | reserved => exact absurd rfl special_.2
  | _ => rfl

theorem primary_called {word : String} {rest : List Token} {opened : Opening}
    (opens : opening word true = opened) (special_ : opened ≠ .column ∧ opened ≠ .reserved) :
    primary inner (.word word none :: .mark .leftParen :: rest) =
      special inner opened (.mark .leftParen :: rest) :=
  primary_special (by simpa using opens) special_

theorem identifier_ok (name : Identifier) (rest : List Token) :
    identifier (.word name.name name.quote :: rest) = .ok (name, rest) := rfl

theorem columnRef_ok (column : ColumnRef) (stops : Stops 0 rest) :
    columnRef (tokensOf column.lexemes ++ rest) = .ok (column, rest) := by
  obtain ⟨qualifier, name⟩ := column
  cases qualifier with
  | none =>
    have noPeriod : afterMark .period identifier rest = .ok (none, rest) :=
      afterMark_none fun token head same => by
        have ranked := stops token head
        rw [same] at ranked
        exact absurd ranked (by decide)
    simp only [ColumnRef.lexemes, tokensOf_cons, Identifier.lexeme_tokens]
    show (identifier >>= _) (.word name.name name.quote :: rest) = _
    rw [bind_ok (identifier_ok name rest), bind_ok noPeriod]
    rfl
  | some qualifier =>
    simp only [ColumnRef.lexemes, tokensOf_cons, Identifier.lexeme_tokens]
    show (identifier >>= _) (.word qualifier.name qualifier.quote :: .mark .period ::
      .word name.name name.quote :: rest) = _
    rw [bind_ok (identifier_ok qualifier _), bind_ok (afterMark_same (identifier_ok name rest))]
    rfl

theorem reads_column {reference : ColumnRef} (grammatical : reference.Grammatical) :
    ReadsAt inner 0 (.column reference) := by
  intro rest stops
  obtain ⟨behind, tokens, point⟩ := reference.tokens_head
  have column : (Expr.column <$> columnRef : Reader Expr) (tokensOf reference.lexemes ++ rest) =
      .ok (.column reference, rest) := by
    rw [map_eq_pure_bind, bind_ok (columnRef_ok reference stops)]
    rfl
  rw [tokens] at column
  show primary inner (tokensOf reference.lexemes ++ rest) = _
  rw [tokens]
  cases quote : reference.head.quote with
  | some delimiter =>
    rw [quote] at column
    exact column
  | none =>
    rw [quote] at column
    have notCalled : (behind ++ rest).head? ≠ some (.mark .leftParen) := by
      rcases point with rfl | period
      · intro called
        exact absurd (stops _ called) (by decide)
      · simp [period]
    show wordExpr inner _ (behind ++ rest) = _
    unfold wordExpr
    have opened := grammatical.2 quote
    rw [decide_eq_false notCalled, opened]
    exact column

theorem reads_literal {value : Literal} (grammatical : value.Grammatical) :
    ReadsAt inner 0 (.literal value) := by
  intro rest stops
  have word (name : String) (own : Literal) (opens : ∀ called, opening name called = .literal own) :
      primary inner (.word name none :: rest) = .ok (.literal own, rest) := by
    rw [primary_special (opens _) (by simp)]
    rfl
  cases value with
  | null => exact word "NULL" .null (by decide)
  | boolean value =>
    cases value with
    | true => exact word "TRUE" (.boolean true) (by decide)
    | false => exact word "FALSE" (.boolean false) (by decide)
  | string value => rfl
  | number digits =>
    rcases grammatical with shape | ⟨behind, same, shape⟩
    · show primary inner ((number digits).tokens ++ [] ++ rest) = _
      rw [tokens_of_numeral shape]
      rfl
    · show primary inner ((number digits).tokens ++ [] ++ rest) = _
      rw [tokens_of_negative same]
      have written : "-" ++ String.ofList behind = digits :=
        String.toList_inj.mp (by simp [same])
      show Except.ok (Expr.literal (.number ("-" ++ String.ofList behind)), rest) = _
      rw [written]

theorem reads_currentUser : ReadsAt inner 0 .currentUser := by
  intro rest stops
  show primary inner (.word "CURRENT_USER" none :: .mark .leftParen :: .mark .rightParen :: rest) = _
  rw [@primary_called inner _ _ .currentUser (by decide) (by simp)]
  show (acceptMark .leftParen >>= _) _ = _
  rw [ite_taken acceptMark_same, bind_ok expectMark_same]
  rfl

theorem reads_nested {operand : Expr} (own : ReadsInside inner operand) :
    ReadsAt inner 0 (.nested operand) := by
  intro rest stops
  have inside := own (.mark .rightParen :: rest) (Stops.cons (by decide))
  have tokens : (Expr.nested operand).tokens ++ rest =
      .mark .leftParen :: (operand.tokens ++ .mark .rightParen :: rest) := by
    simp [Expr.tokens, Expr.lexemes, spaced, Lexeme.tokens]
  rw [tokens]
  show (inner.expr >>= _) _ = _
  rw [bind_ok inside, bind_ok expectMark_same]
  rfl

theorem reads_doubleTest {test : DoubleTest} {column : ColumnRef} :
    ReadsAt inner 0 (.doubleTest test column) := by
  intro rest stops
  have opens : opening test.text true = .doubleTest test := by cases test <;> decide
  have inside := parenthesized_ok (columnRef_ok column (Stops.cons (by decide) :
    Stops 0 (.mark .rightParen :: rest)))
  have tokens : (Expr.doubleTest test column).tokens ++ rest =
      .word test.text none :: .mark .leftParen ::
        (tokensOf column.lexemes ++ .mark .rightParen :: rest) := by
    simp [Expr.tokens, Expr.lexemes, tight, Lexeme.tokens]
  show primary inner ((Expr.doubleTest test column).tokens ++ rest) = _
  rw [tokens, primary_called opens (by simp)]
  show (parenthesized columnRef >>= _) _ = _
  rw [bind_ok inside]
  rfl

theorem reads_unnest {column : ColumnRef} : ReadsAt inner 0 (.unnest column) := by
  intro rest stops
  have inside := parenthesized_ok (columnRef_ok column (Stops.cons (by decide) :
    Stops 0 (.mark .rightParen :: rest)))
  have tokens : (Expr.unnest column).tokens ++ rest = .word "UNNEST" none :: .mark .leftParen ::
      (tokensOf column.lexemes ++ .mark .rightParen :: rest) := by
    simp [Expr.tokens, Expr.lexemes, tight, Lexeme.tokens]
  show primary inner ((Expr.unnest column).tokens ++ rest) = _
  rw [tokens, @primary_called inner _ _ .unnest (by decide) (by simp)]
  show (parenthesized columnRef >>= _) _ = _
  rw [bind_ok inside]
  rfl

theorem parenthesized_inside {operand : Expr} (own : ReadsInside inner operand) (rest : List Token) :
    parenthesized inner.expr (.mark .leftParen :: (operand.tokens ++ .mark .rightParen :: rest)) =
      .ok (operand, rest) :=
  parenthesized_ok (own _ (Stops.cons (by decide)))

theorem reads_textMatches {text : Expr} (own : ReadsInside inner text) :
    ReadsAt inner 0 (.textMatches text) := by
  intro rest stops
  have tokens : (Expr.textMatches text).tokens ++ rest = .word "TEXT_MATCHES" none ::
      .mark .leftParen :: (text.tokens ++ .mark .rightParen :: rest) := by
    simp [Expr.tokens, Expr.lexemes, tight, Lexeme.tokens]
  show primary inner ((Expr.textMatches text).tokens ++ rest) = _
  rw [tokens, @primary_called inner _ _ .textMatches (by decide) (by simp)]
  show (parenthesized inner.expr >>= _) _ = _
  rw [bind_ok (parenthesized_inside own rest)]
  rfl

theorem reads_matchAgainst {text : Expr} (own : ReadsInside inner text) :
    ReadsAt inner 0 (.matchAgainst text) := by
  intro rest stops
  have column (behind : List Token) : parenthesized identifier (.mark .leftParen ::
      .word "ROW_SEARCH_CONTENT" none :: .mark .rightParen :: behind) =
        .ok (⟨"ROW_SEARCH_CONTENT", none⟩, behind) := parenthesized_ok rfl
  have tokens : (Expr.matchAgainst text).tokens ++ rest = .word "MATCH" none :: .mark .leftParen ::
      .word "ROW_SEARCH_CONTENT" none :: .mark .rightParen :: .word "AGAINST" none ::
        .mark .leftParen :: (text.tokens ++ .mark .rightParen :: rest) := by
    simp [Expr.tokens, Expr.lexemes, tight, phrase, Lexeme.tokens]
  show primary inner ((Expr.matchAgainst text).tokens ++ rest) = _
  rw [tokens, @primary_called inner _ _ .matchAgainst (by decide) (by simp)]
  show ((parenthesized identifier >>= fun _ => pure ()) >>= _) _ = _
  rw [bind_assoc, bind_ok (column _), pure_bind, bind_ok (expect_keyword (by decide)),
    bind_ok (parenthesized_inside own rest)]
  rfl

theorem tokensOf_list {separator : List Lexeme} (separates : IsComma separator) (list : List Expr) :
    tokensOf (join separator (list.map Expr.lexemes)) = commaSeparated (list.map Expr.tokens) := by
  rw [tokensOf_join separates, List.map_map]
  rfl

theorem separated_inside (some : list ≠ []) (own : ∀ expr ∈ list, ReadsInside inner expr)
    (stops : Stops 9 rest) :
    separated inner.expr (commaSeparated (list.map Expr.tokens) ++ rest) = .ok (list, rest) :=
  separated_ok some (fun expr member behind follows => own expr member behind
    (follows.mono (by decide))) stops

theorem list_starts (some : list ≠ [])
    (starts : ∀ expr ∈ list, ∃ token behind, expr.StartsWith token behind) :
    ∃ token behind, commaSeparated (list.map Expr.tokens) = token :: behind ∧
      token.starts = true := by
  obtain ⟨first, others, rfl⟩ := List.exists_cons_of_ne_nil some
  obtain ⟨token, behind, start⟩ := starts first (by simp)
  refine ⟨token, behind ++ (others.map Expr.tokens).flatMap (.mark .comma :: ·), ?_, start.starts⟩
  rw [List.map_cons, commaSeparated, start.tokens, List.cons_append]

theorem starts_not_mark {token : Token} {known : Mark} (start : token.starts = true)
    (other : known ∉ [.minus, .plus, .colon, .leftParen]) : token ≠ .mark known := by
  rintro rfl
  simp only [Token.starts, Bool.or_eq_true, decide_eq_true_eq] at start
  simp only [List.mem_cons, List.not_mem_nil, or_false] at other
  tauto

theorem arguments_ok {distinct : Bool} (grammatical : Expr.ArgumentsGrammatical distinct list)
    (own : ∀ expr ∈ list, expr.level ≤ 7 → ReadsInside inner expr)
    (starts : ∀ expr ∈ list, expr.level ≤ 7 → ∃ token behind, expr.StartsWith token behind) :
    arguments inner name ((if distinct then [.word "DISTINCT" none] else []) ++
      commaSeparated (list.map Expr.tokens) ++ .mark .rightParen :: rest) =
        .ok (.call name distinct list, rest) := by
  rcases grammatical with ⟨rfl, rfl⟩ | ⟨levels, distinctSome⟩
  · show arguments inner name (.mark .star :: .mark .rightParen :: rest) = _
    rw [arguments, ite_skipped (acceptMark_none (by simp)), ite_taken acceptMark_same,
      bind_ok expectMark_same]
    rfl
  · cases list with
    | nil =>
      have plain : distinct = false := by
        cases distinct with
        | true => exact absurd rfl (distinctSome rfl)
        | false => rfl
      subst plain
      show arguments inner name (.mark .rightParen :: rest) = _
      rw [arguments, bind_ok acceptMark_same]
      rfl
    | cons first others =>
      have some : first :: others ≠ [] := List.cons_ne_nil _ _
      obtain ⟨token, behind, tokens, start⟩ :=
        list_starts some fun expr member => starts expr member (levels expr member)
      have listed := separated_inside some (fun expr member => own expr member (levels expr member))
        (Stops.cons (by decide) : Stops 9 (.mark .rightParen :: rest))
      generalize first :: others = list at *
      have first_token : ∃ opening more, (if distinct then [.word "DISTINCT" none] else []) ++
          commaSeparated (list.map Expr.tokens) ++ .mark .rightParen :: rest = opening :: more ∧
          opening ≠ .mark .rightParen ∧ opening ≠ .mark .star := by
        cases distinct with
        | true => exact ⟨_, _, rfl, by simp, by simp⟩
        | false =>
          refine ⟨token, behind ++ .mark .rightParen :: rest, by simp [tokens], ?_, ?_⟩
          · exact starts_not_mark start (by decide)
          · exact starts_not_mark start (by decide)
      have keyword : accept "DISTINCT" ((if distinct then [.word "DISTINCT" none] else []) ++
          commaSeparated (list.map Expr.tokens) ++ .mark .rightParen :: rest) =
          .ok (distinct, commaSeparated (list.map Expr.tokens) ++ .mark .rightParen :: rest) := by
        cases distinct with
        | true => exact accept_keyword (by decide)
        | false =>
          refine accept_none fun first head => ?_
          rw [if_neg (by decide), List.nil_append, tokens] at head
          cases head
          exact Token.starts_not_keyword start (by decide) (by decide)
      obtain ⟨opening, more, same, notParen, notStar⟩ := first_token
      rw [same] at keyword ⊢
      rw [arguments, ite_skipped (acceptMark_none fun own head => by cases head; exact notParen),
        ite_skipped (acceptMark_none fun own head => by cases head; exact notStar), bind_ok keyword, bind_ok listed, bind_ok expectMark_same]
      rfl

theorem reads_call {distinct : Bool} (opens : opening name true = .call name)
    (grammatical : Expr.ArgumentsGrammatical distinct list)
    (own : ∀ expr ∈ list, expr.level ≤ 7 → ReadsInside inner expr)
    (starts : ∀ expr ∈ list, expr.level ≤ 7 → ∃ token behind, expr.StartsWith token behind) :
    ReadsAt inner 0 (.call name distinct list) := by
  intro rest stops
  have separates : IsComma (if isSetFunctionName name then comma else [.mark .comma]) := by
    split
    · exact .inl rfl
    · exact .inr rfl
  have tokens : (Expr.call name distinct list).tokens ++ rest = .word name none ::
      .mark .leftParen :: ((if distinct then [.word "DISTINCT" none] else []) ++
        commaSeparated (list.map Expr.tokens) ++ .mark .rightParen :: rest) := by
    have listed := tokensOf_list separates list
    cases distinct <;> simp [Expr.tokens, Expr.lexemes, tight, Lexeme.tokens, listed]
  show primary inner ((Expr.call name distinct list).tokens ++ rest) = _
  rw [tokens, primary_called opens (by simp)]
  show (expectMark .leftParen >>= _) _ = _
  rw [bind_ok expectMark_same]
  exact arguments_ok grammatical own starts

theorem readUnsigned_decimal (value : UInt64) :
    Number.readUnsigned (Number.decimal value.toNat) = some value := by
  have digits : ∀ char ∈ Nat.toDigits 10 value.toNat, char.isDigit = true := fun char member =>
    Nat.isDigit_of_mem_toDigits (by decide) (by decide) member
  have read : Number.readDigits (Nat.toDigits 10 value.toNat) = some value.toNat := by
    have number : Number.digitsValue (Nat.toDigits 10 value.toNat) = value.toNat :=
      Nat.ofDigitChars_toDigits (by decide) (by decide)
    have all : (Nat.toDigits 10 value.toNat).all Char.isDigit = true := List.all_eq_true.mpr digits
    simp [Number.readDigits, all, number, Nat.toDigits_ne_nil]
  have inRange : Number.toUnsigned value.toNat = some value := by
    simp [Number.toUnsigned, value.toNat_lt_size]
  rw [Number.readUnsigned, Number.decimal, String.toList_ofList]
  unfold Number.readUnsignedChars
  split
  · next behind same =>
      have plus := digits '+' (by simp [same])
      exact absurd plus (by decide)
  · rw [read]
    exact inRange

theorem castTarget_ok {target : CastTarget} (grammatical : target.Grammatical)
    (rest : List Token) : castTarget (target.lexeme.tokens ++ rest) = .ok (target, rest) := by
  cases target with
  | type logical =>
    have known : ColumnType.ofText? logical.name = some logical := by cases logical <;> decide
    show castTarget (.word logical.name none :: rest) = _
    simp only [castTarget, known]
  | column id =>
    have known := readUnsigned_decimal id
    rw [CastTarget.lexeme, tokens_of_numeral (decimal_numeral id.toNat)]
    show castTarget (.number (Number.decimal id.toNat) false :: rest) = _
    simp only [castTarget, known]
  | physical name =>
    show castTarget (.word name none :: rest) = _
    simp only [castTarget, grammatical.1, grammatical.2]

theorem reads_cast {operand : Expr} {target : CastTarget} (grammatical : target.Grammatical)
    (own : ReadsInside inner operand) : ReadsAt inner 0 (.cast operand target) := by
  intro rest stops
  have inside := own (.word "AS" none :: (target.lexeme.tokens ++ .mark .rightParen :: rest))
    (Stops.cons (by decide))
  have tokens : (Expr.cast operand target).tokens ++ rest = .word "CAST" none ::
      .mark .leftParen :: (operand.tokens ++ .word "AS" none ::
        (target.lexeme.tokens ++ .mark .rightParen :: rest)) := by
    simp [Expr.tokens, Expr.lexemes, tight, phrase, Lexeme.tokens]
  show primary inner ((Expr.cast operand target).tokens ++ rest) = _
  rw [tokens, @primary_called inner _ _ .cast (by decide) (by simp)]
  refine parenthesized_ok ?_
  rw [bind_ok inside, bind_ok (expect_keyword (by decide)),
    bind_ok (castTarget_ok grammatical _)]
  rfl

theorem reads_parameter : ReadsAt inner 0 (.parameter name) :=
  fun _ _ => rfl

def branchTokens (branches : List (Expr × Expr)) : List Token :=
  branches.flatMap fun branch =>
    .word "WHEN" none :: (branch.1.tokens ++ .word "THEN" none :: branch.2.tokens)

theorem tokensOf_branches (branches : List (Expr × Expr)) :
    tokensOf (Expr.branchLexemes branches) = branchTokens branches := by
  induction branches with
  | nil => rfl
  | cons branch branches ih =>
    obtain ⟨condition, result⟩ := branch
    simp [Expr.branchLexemes, branchTokens, phrase, Lexeme.tokens, ih, Expr.tokens]

theorem branches_ok (own : ∀ branch ∈ branches, ReadsInside inner branch.1 ∧ ReadsInside inner branch.2)
    (stops : Stops 7 rest) (noWhen : ∀ token ∈ rest.head?, token.isKeyword "WHEN" = false) :
    many (after "WHEN" (whenBranch inner)) (branchTokens branches ++ rest) =
      .ok (branches, rest) := by
  refine @many_ok _ _ (Stops 7) _ _ _ (fun branch member => ?_) stops (by
    rw [after, bind_ok (accept_none noWhen)]
    rfl)
  obtain ⟨condition, result⟩ := own branch member
  refine ⟨by simp, fun behind => Stops.cons (by decide), fun behind follows => ?_⟩
  rw [List.cons_append, List.append_assoc, List.cons_append]
  refine after_keyword (by decide) ?_
  rw [whenBranch, bind_ok (condition _ (Stops.cons (by decide))),
    bind_ok (expect_keyword (by decide)), bind_ok (result behind follows)]
  rfl

def caseEnd (otherwise : Option Expr) (rest : List Token) : List Token :=
  (otherwise.map fun expr => Token.word "ELSE" none :: expr.tokens).getD [] ++
    .word "END" none :: rest

theorem caseEnd_stops (otherwise : Option Expr) (rest : List Token) :
    Stops 7 (caseEnd otherwise rest) ∧
      ∀ token ∈ (caseEnd otherwise rest).head?, token.isKeyword "WHEN" = false := by
  cases otherwise with
  | none => exact ⟨Stops.cons (by decide), fun token head => by cases head; decide⟩
  | some expr => exact ⟨Stops.cons (by decide), fun token head => by cases head; decide⟩

theorem else_ok (own : ∀ expr ∈ otherwise, ReadsInside inner expr) (rest : List Token) : after "ELSE"
    inner.expr (caseEnd otherwise rest) =
      .ok (otherwise, .word "END" none :: rest) := by
  cases otherwise with
  | none =>
    show (accept "ELSE" >>= _) (.word "END" none :: rest) = _
    rw [bind_ok (accept_other (by decide))]
    rfl
  | some expr => exact after_keyword (by decide) (own expr rfl _ (Stops.cons (by decide)))

def caseBody (inner : Inner) (operand : Option Expr) : Reader Expr := do
  let branches ← many (after "WHEN" (whenBranch inner))
  if branches.isEmpty then unexpected "WHEN"
  let otherwise ← after "ELSE" inner.expr
  expect "END"
  return .caseWhen operand branches otherwise

theorem caseBody_ok (listed : branches ≠ [])
    (branchReads : ∀ branch ∈ branches, ReadsInside inner branch.1 ∧ ReadsInside inner branch.2)
    (otherwiseReads : ∀ expr ∈ otherwise, ReadsInside inner expr) :
    caseBody inner operand (branchTokens branches ++ caseEnd otherwise rest) =
      .ok (.caseWhen operand branches otherwise, rest) := by
  obtain ⟨stops, noWhen⟩ := caseEnd_stops otherwise rest
  have notEmpty : ¬ branches.isEmpty = true := by simpa using listed
  rw [caseBody, bind_ok (branches_ok branchReads stops noWhen)]
  show (if branches.isEmpty = true then _ else _ : Reader Expr) _ = _
  rw [if_neg notEmpty]
  show (after "ELSE" inner.expr >>= _) _ = _
  rw [bind_ok (else_ok otherwiseReads rest), bind_ok (expect_keyword (by decide))]
  rfl

theorem caseWhen_operand {behind : List Token}
    (own : ∀ expr ∈ operand, ReadsInside inner expr ∧ ∃ token more, expr.StartsWith token more)
    (when_ : behind.head? = some (.word "WHEN" none)) :
    caseWhen inner ((operand.map Expr.tokens).getD [] ++ behind) = caseBody inner operand behind := by
  obtain ⟨rest, rfl⟩ := List.head?_eq_some_iff.mp when_
  cases operand with
  | none =>
    have isWhen : isNext "WHEN" (.word "WHEN" none :: rest) =
        .ok (true, .word "WHEN" none :: rest) := rfl
    show caseWhen inner (.word "WHEN" none :: rest) = _
    rw [caseWhen, bind_ok isWhen]
    rfl
  | some expr =>
    obtain ⟨reads, token, more, starts⟩ := own expr rfl
    have first := Token.starts_not_keyword starts.starts (by decide : isReserved "WHEN" = true)
      (by decide)
    have notWhen : isNext "WHEN" (expr.tokens ++ .word "WHEN" none :: rest) =
        .ok (false, expr.tokens ++ .word "WHEN" none :: rest) := by
      rw [isNext, starts.tokens, List.cons_append, List.head?_cons, Option.any_some, first]
    show caseWhen inner (expr.tokens ++ .word "WHEN" none :: rest) = _
    rw [caseWhen, bind_ok notWhen]
    show ((some <$> inner.expr) >>= _) _ = _
    rw [map_eq_pure_bind, bind_assoc, bind_ok (reads _ (Stops.cons (by decide))), pure_bind]
    rfl

theorem reads_caseWhen (listed : branches ≠ [])
    (operandReads : ∀ expr ∈ operand, ReadsInside inner expr ∧ ∃ token behind, expr.StartsWith token behind)
    (branchReads : ∀ branch ∈ branches, ReadsInside inner branch.1 ∧ ReadsInside inner branch.2)
    (otherwiseReads : ∀ expr ∈ otherwise, ReadsInside inner expr) :
    ReadsAt inner 0 (.caseWhen operand branches otherwise) := by
  intro rest stops
  have tokens : (Expr.caseWhen operand branches otherwise).tokens ++ rest = .word "CASE" none ::
      ((operand.map Expr.tokens).getD [] ++ (branchTokens branches ++ caseEnd otherwise rest)) := by
    cases operand <;> cases otherwise <;>
      simp [Expr.tokens, Expr.lexemes, Expr.lexemesAfter, phrase, Lexeme.tokens, tokensOf_branches,
        caseEnd]
  have opens : ∀ called, opening "CASE" called = .caseWhen := by decide
  have when_ : (branchTokens branches ++ caseEnd otherwise rest).head? =
      some (.word "WHEN" none) := by
    obtain ⟨branch, others, rfl⟩ := List.exists_cons_of_ne_nil listed
    rfl
  show primary inner ((Expr.caseWhen operand branches otherwise).tokens ++ rest) = _
  rw [tokens, primary_special (opens _) (by simp)]
  show caseWhen inner _ = _
  rw [caseWhen_operand operandReads when_]
  exact caseBody_ok listed branchReads otherwiseReads

end Grammar

end TabularSql
