import TabularSql.Proofs.Scanning

/-!
# Reading canonical tokens

A writable fragment is read back from the tokens of its lexemes, whatever stands behind them, as long as
that cannot continue it. Tokens are ranked by what they could continue: a star continues a product, AND
a conjunction, WHERE a select that has none yet. The proof goes from the tightest level of expressions
to the loosest, and then through the clauses of a select.
-/

namespace TabularSql

set_option autoImplicit false

/-! ## Readers -/

namespace Reader

variable {α β : Type}

theorem bind_ok {read : Reader α} {next : α → Reader β} {tokens rest : List Token} {value : α}
    (given : read tokens = .ok (value, rest)) : (read >>= next) tokens = next value rest := by
  show (read tokens >>= fun pair => next pair.1 pair.2) = next value rest
  rw [given]
  rfl

variable {test : Reader Bool} {yes no : Reader α} {tokens rest : List Token}

theorem ite_taken (found : test tokens = .ok (true, rest)) :
    (test >>= fun found => if found then yes else no) tokens = yes rest := by
  rw [bind_ok found, if_pos rfl]

theorem ite_skipped (missing : test tokens = .ok (false, rest)) :
    (test >>= fun found => if found then yes else no) tokens = no rest := by
  rw [bind_ok missing, if_neg (by decide)]

end Reader

/-! ## What can continue what -/

namespace Token

/-- The words that continue something, with their ranks. -/
def keywordRanks : List (String × Nat) :=
  [("DIV", 2), ("MOD", 2),
   ("IS", 4), ("NOT", 4), ("BETWEEN", 4), ("IN", 4), ("LIKE", 4), ("HAS", 4), ("HAS_LIKE", 4),
   ("ESCAPE", 4), ("AND", 6), ("OR", 7), ("AS", 8), ("ASC", 8), ("DESC", 8),
   ("JOIN", 10), ("INNER", 10), ("LEFT", 10), ("RIGHT", 10), ("DEFINING_WHERE", 11), ("WHERE", 12),
   ("GROUP", 13), ("ORDER", 14), ("LIMIT", 15), ("OFFSET", 16), ("UNION", 17)]

/-- The rank of a word in upper case. A word that is not reserved could be an alias. -/
def wordRank (name : String) : Nat :=
  match keywordRanks.find? fun entry => entry.1 == name with
  | some entry => entry.2
  | none => if isReserved name then 18 else 8

/-- The level of what the token could continue; 18 if it continues nothing. -/
def rank : Token → Nat
  | mark .leftParen | mark .period => 0
  | mark .star | mark .slash | mark .percent => 2
  | mark .plus | mark .minus => 3
  | mark .equal | mark .doubleEqual | mark .notEqual | mark .less | mark .lessEqual
  | mark .greater | mark .greaterEqual => 4
  | mark .comma => 9
  | mark .rightParen => 18
  | word name none => wordRank (Text.upper name)
  | _ => 8

theorem rank_of_isKeyword {keyword : String} {token : Token}
    (same : token.isKeyword keyword = true) : token.rank = wordRank (Text.upper keyword) := by
  unfold isKeyword at same
  split at same
  · simp only [Text.sameWord, beq_iff_eq] at same
    rw [rank, same]
  · cases same

end Token

/-- The tokens do not continue anything up to the given level. -/
def Stops (level : Nat) (tokens : List Token) : Prop :=
  ∀ token ∈ tokens.head?, level < token.rank

namespace Stops

theorem nil (level : Nat) : Stops level [] := by
  simp [Stops]

theorem cons {level : Nat} {token : Token} {rest : List Token} (ranked : level < token.rank) :
    Stops level (token :: rest) := by
  intro first head
  cases head
  exact ranked

theorem mono {level other : Nat} {tokens : List Token} (stops : Stops level tokens)
    (le : other ≤ level) : Stops other tokens :=
  fun token head => le.trans_lt (stops token head)

end Stops

namespace Reader

variable {keyword : String} {token : Token} {level : Nat} {tokens rest : List Token} {mark : Mark}

theorem accept_keyword (same : token.isKeyword keyword = true) :
    accept keyword (token :: rest) = .ok (true, rest) := by
  rw [accept, if_pos same]

theorem accept_none (none : ∀ token ∈ tokens.head?, token.isKeyword keyword = false) :
    accept keyword tokens = .ok (false, tokens) := by
  cases tokens with
  | nil => rfl
  | cons token rest => rw [accept, if_neg (by simp [none token rfl])]

theorem accept_other (other : token.isKeyword keyword = false) :
    accept keyword (token :: rest) = .ok (false, token :: rest) :=
  accept_none fun first head => by cases head; exact other

theorem accept_stops (stops : Stops level tokens) (ranked : Token.wordRank (Text.upper keyword) ≤ level) :
    accept keyword tokens = .ok (false, tokens) := by
  refine accept_none fun token head => Bool.eq_false_iff.mpr fun same => ?_
  have above := stops token head
  rw [Token.rank_of_isKeyword same] at above
  omega

theorem acceptMark_same : acceptMark mark (.mark mark :: rest) = .ok (true, rest) := by
  rw [acceptMark, if_pos rfl]

theorem acceptMark_none (none : ∀ token ∈ tokens.head?, token ≠ .mark mark) :
    acceptMark mark tokens = .ok (false, tokens) := by
  cases tokens with
  | nil => rfl
  | cons token rest => rw [acceptMark, if_neg (none token rfl)]

theorem expect_keyword (same : token.isKeyword keyword = true) :
    expect keyword (token :: rest) = .ok ((), rest) := by
  rw [expect, bind_ok (accept_keyword same)]
  rfl

theorem expectMark_same : expectMark mark (.mark mark :: rest) = .ok ((), rest) := by
  rw [expectMark, bind_ok acceptMark_same]
  rfl

variable {α : Type} {read : Reader α} {value : α}

theorem after_keyword (same : token.isKeyword keyword = true) (given : read tokens = .ok (value, rest)) :
    after keyword read (token :: tokens) = .ok (some value, rest) := by
  rw [after, bind_ok (accept_keyword same), if_pos rfl, bind_ok given]
  rfl

theorem after_stops (stops : Stops level tokens) (ranked : Token.wordRank (Text.upper keyword) ≤ level) :
    after keyword read tokens = .ok (none, tokens) := by
  rw [after, bind_ok (accept_stops stops ranked)]
  rfl

theorem afterMark_same (given : read tokens = .ok (value, rest)) :
    afterMark mark read (.mark mark :: tokens) = .ok (some value, rest) := by
  rw [afterMark, bind_ok acceptMark_same, if_pos rfl, bind_ok given]
  rfl

theorem afterMark_none (none : ∀ token ∈ tokens.head?, token ≠ .mark mark) :
    afterMark mark read tokens = .ok (.none, tokens) := by
  rw [afterMark, bind_ok (acceptMark_none none)]
  rfl

theorem parenthesized_ok (given : read tokens = .ok (value, .mark .rightParen :: rest)) :
    parenthesized read (.mark .leftParen :: tokens) = .ok (value, rest) := by
  rw [parenthesized, bind_ok expectMark_same, bind_ok given, bind_ok expectMark_same]
  rfl

/-! ### Repetition -/

/-- The items are read one after the other if each can be followed by the next one and by the rest. -/
theorem many_ok {read : Reader (Option α)} {follows : List Token → Prop} {tokens : α → List Token}
    {items : List α} {rest : List Token}
    (each : ∀ item ∈ items, tokens item ≠ [] ∧ (∀ behind, follows (tokens item ++ behind)) ∧
      ∀ behind, follows behind → read (tokens item ++ behind) = .ok (some item, behind))
    (stops : follows rest) (none : read rest = .ok (none, rest)) :
    many read (items.flatMap tokens ++ rest) = .ok (items, rest) := by
  suffices counted : ∀ bound, (items.flatMap tokens).length ≤ bound →
      atMost read bound (items.flatMap tokens ++ rest) = .ok (items, rest) from
    counted _ (by simp)
  intro bound enough
  induction items generalizing bound with
  | nil =>
    cases bound with
    | zero => rfl
    | succ bound =>
      show (read >>= _) rest = _
      rw [bind_ok none]
      rfl
  | cons item items ih =>
    obtain ⟨some, _, reads⟩ := each item (by simp)
    have length : 0 < (tokens item).length := List.length_pos_iff.mpr some
    simp only [List.flatMap_cons, List.length_append] at enough
    cases bound with
    | zero => omega
    | succ bound =>
      have behind : follows (items.flatMap tokens ++ rest) := by
        cases items with
        | nil => exact stops
        | cons next items =>
          have leads := (each next (by simp)).2.1 (items.flatMap tokens ++ rest)
          simpa using leads
      have others := ih (fun other member => each other (by simp [member])) bound (by omega)
      rw [List.flatMap_cons, List.append_assoc]
      show (read >>= _) _ = _
      rw [bind_ok (reads _ behind)]
      show (atMost read bound >>= _) _ = _
      rw [bind_ok others]
      rfl

def commaSeparated : List (List Token) → List Token
  | [] => []
  | first :: rest => first ++ rest.flatMap (.mark .comma :: ·)

theorem separated_ok {read : Reader α} {tokens : α → List Token} {items : List α}
    {rest : List Token} (some : items ≠ [])
    (each : ∀ item ∈ items, ∀ behind, Stops 8 behind →
      read (tokens item ++ behind) = .ok (item, behind)) (stops : Stops 9 rest) :
    separated read (commaSeparated (items.map tokens) ++ rest) = .ok (items, rest) := by
  obtain ⟨first, others, rfl⟩ := List.exists_cons_of_ne_nil some
  have listed := @many_ok α (afterMark .comma read) (Stops 8) (fun item => .mark .comma :: tokens item)
    others rest (fun item member => ⟨by simp, fun behind => Stops.cons (by decide),
      fun behind follows => afterMark_same (each item (by simp [member]) behind follows)⟩)
    (stops.mono (by decide)) (afterMark_none fun token head same => by
      have above := stops token head
      rw [same] at above
      exact absurd above (by decide))
  have follows : Stops 8 (others.flatMap (fun item => .mark .comma :: tokens item) ++ rest) := by
    cases others with
    | nil => exact stops.mono (by decide)
    | cons next others => exact Stops.cons (by decide)
  rw [List.map_cons, commaSeparated, List.append_assoc, List.flatMap_map]
  show (read >>= _) _ = _
  rw [bind_ok (each first (by simp) _ follows)]
  show (many _ >>= _) _ = _
  rw [bind_ok listed]
  rfl

end Reader

namespace Lexeme

theorem tokensOf_join {separator : List Lexeme} (separates : IsComma separator)
    (lists : List (List Lexeme)) :
    tokensOf (join separator lists) = Reader.commaSeparated (lists.map tokensOf) := by
  have comma_tokens : tokensOf separator = [.mark .comma] := by
    rcases separates with rfl | rfl <;> rfl
  induction lists with
  | nil => rfl
  | cons first rest ih =>
    cases rest with
    | nil => simp [join, Reader.commaSeparated]
    | cons second rest =>
      rw [join, tokensOf_append, tokensOf_append, ih, comma_tokens]
      · simp [Reader.commaSeparated]
      · simp

theorem tokensOf_phrase (words : List String) :
    tokensOf (phrase words) = words.map (Token.word · none) := by
  induction words with
  | nil => rfl
  | cons name words ih =>
    show tokensOf ([space, word name] ++ phrase words) = _
    rw [tokensOf_append, ih]
    rfl

end Lexeme

/-! ## Levels of expressions -/

namespace Expr

def tokens (expr : Expr) : List Token := Lexeme.tokensOf expr.lexemes

end Expr

namespace Grammar

open Reader

def readerAt (inner : Inner) : Nat → Reader Expr
  | 0 => primary inner
  | 1 => signed inner
  | 2 => product inner
  | 3 => sum inner
  | 4 => predicate inner
  | 5 => negation inner
  | 6 => conjunction inner
  | _ => expr inner

/-- The expression is read back by the reader of a level. -/
def ReadsAt (inner : Inner) (level : Nat) (whole : Expr) : Prop :=
  ∀ rest, Stops level rest → readerAt inner level (whole.tokens ++ rest) = .ok (whole, rest)

/-- The expression is read back between brackets. -/
def ReadsInside (inner : Inner) (whole : Expr) : Prop :=
  ∀ rest, Stops 7 rest → inner.expr (whole.tokens ++ rest) = .ok (whole, rest)

/-! ### Chains -/

/-- The levels whose operators can be chained. -/
def IsChain (level : Nat) : Prop := level = 2 ∨ level = 3 ∨ level = 6 ∨ level = 7

def chainOperator : Nat → Reader (Option BinaryOperator)
  | 2 => productOperator
  | 3 => sumOperator
  | 6 => after "AND" (pure .and)
  | _ => after "OR" (pure .or)

def link (operator : Reader (Option BinaryOperator)) (operand : Reader Expr) :
    Reader (Option (BinaryOperator × Expr)) := do
  match ← operator with
  | none => return none
  | some operator => return some (operator, ← operand)

def extend (whole : Expr) (links : List (BinaryOperator × Expr)) : Expr :=
  links.foldl (fun left (operator, right) => .binary operator left right) whole

theorem readerAt_chain {level : Nat} (chained : IsChain level) (inner : Inner) :
    readerAt inner level = (do
      let first ← readerAt inner (level - 1)
      let links ← many (link (chainOperator level) (readerAt inner (level - 1)))
      return extend first links) := by
  rcases chained with rfl | rfl | rfl | rfl <;> rfl

theorem chainOperator_stops {level : Nat} {rest : List Token} (chained : IsChain level)
    (stops : Stops level rest) : chainOperator level rest = .ok (none, rest) := by
  rcases chained with rfl | rfl | rfl | rfl
  · have noDiv := @accept_stops "DIV" 2 rest stops (by decide)
    have noMod := @accept_stops "MOD" 2 rest stops (by decide)
    show productOperator rest = _
    unfold productOperator
    split
    · exact absurd (stops _ rfl) (by decide)
    · exact absurd (stops _ rfl) (by decide)
    · exact absurd (stops _ rfl) (by decide)
    · rw [ite_skipped noDiv, ite_skipped noMod]
      rfl
  · show sumOperator rest = _
    unfold sumOperator
    split
    · exact absurd (stops _ rfl) (by decide)
    · exact absurd (stops _ rfl) (by decide)
    · rfl
  · exact after_stops stops (by decide)
  · exact after_stops stops (by decide)

def operatorToken (operator : BinaryOperator) : Token :=
  match operator.lexeme with
  | .mark known => .mark known
  | .word name => .word name none
  | _ => .mark .comma

theorem tokensOf_operator (operator : BinaryOperator) :
    Lexeme.tokensOf operator.lexemes = [operatorToken operator] := by
  cases operator <;> rfl

theorem rank_operator (operator : BinaryOperator) :
    (operatorToken operator).rank = operator.level := by
  cases operator <;> decide

theorem chainOperator_reads {operator : BinaryOperator} (chained : IsChain operator.level)
    (rest : List Token) :
    chainOperator operator.level (operatorToken operator :: rest) = .ok (some operator, rest) := by
  cases operator with
  | add | subtract | multiply | divide | modulo => rfl
  | wholeDivide =>
    show productOperator (.word "DIV" none :: rest) = _
    rw [productOperator, bind_ok (accept_keyword (by decide))]
    · rfl
    all_goals simp
  | remainder =>
    show productOperator (.word "MOD" none :: rest) = _
    rw [productOperator, ite_skipped (accept_other (by decide)), ite_taken (accept_keyword (by decide))]
    · rfl
    all_goals simp
  | and | or => exact after_keyword (by decide) rfl
  | equal | notEqual | less | lessEqual | greater | greaterEqual =>
    simp [IsChain, BinaryOperator.level] at chained

/-- Reading the chain goes on behind the expression as if the expression had been read so far. -/
def ReadsChain (inner : Inner) (level : Nat) (whole : Expr) : Prop :=
  ∀ rest, Stops (level - 1) rest → ∃ bound, rest.length ≤ bound ∧
    readerAt inner level (whole.tokens ++ rest) =
      (atMost (link (chainOperator level) (readerAt inner (level - 1))) bound >>= fun links =>
        pure (extend whole links)) rest

theorem readsChain_of_reads {inner : Inner} {level : Nat} {whole : Expr} (chained : IsChain level)
    (reads : ReadsAt inner (level - 1) whole) : ReadsChain inner level whole := by
  intro rest stops
  refine ⟨rest.length, Nat.le_refl _, ?_⟩
  rw [readerAt_chain chained, bind_ok (reads rest stops)]
  rfl

theorem reads_of_readsChain {inner : Inner} {level : Nat} {whole : Expr} (chained : IsChain level)
    (reads : ReadsChain inner level whole) : ReadsAt inner level whole := by
  intro rest stops
  obtain ⟨bound, _, same⟩ := reads rest (stops.mono (Nat.sub_le _ _))
  have noLink : link (chainOperator level) (readerAt inner (level - 1)) rest = .ok (none, rest) := by
    rw [link, bind_ok (chainOperator_stops chained stops)]
    rfl
  have noLinks : atMost (link (chainOperator level) (readerAt inner (level - 1))) bound rest =
      .ok ([], rest) := by
    cases bound with
    | zero => rfl
    | succ bound =>
      show (link _ _ >>= _) rest = _
      rw [bind_ok noLink]
      rfl
  rw [same, bind_ok noLinks]
  rfl

theorem readsChain_binary {inner : Inner} {operator : BinaryOperator} {left right : Expr}
    (chained : IsChain operator.level) (before : ReadsChain inner operator.level left)
    (behind : ReadsAt inner (operator.level - 1) right) :
    ReadsChain inner operator.level (.binary operator left right) := by
  intro rest stops
  have positive : 0 < operator.level := by rcases chained with h | h | h | h <;> omega
  have tokens_eq : (Expr.binary operator left right).tokens ++ rest =
      left.tokens ++ (operatorToken operator :: (right.tokens ++ rest)) := by
    simp [Expr.tokens, Expr.lexemes, tokensOf_operator]
  have follows : Stops (operator.level - 1) (operatorToken operator :: (right.tokens ++ rest)) :=
    Stops.cons (by rw [rank_operator]; omega)
  obtain ⟨bound, enough, same⟩ := before _ follows
  simp only [List.length_cons, List.length_append] at enough
  cases bound with
  | zero => omega
  | succ bound =>
    refine ⟨bound, by omega, ?_⟩
    have linked : link (chainOperator operator.level) (readerAt inner (operator.level - 1))
        (operatorToken operator :: (right.tokens ++ rest)) = .ok (some (operator, right), rest) := by
      rw [link, bind_ok (chainOperator_reads chained _)]
      show (readerAt inner (operator.level - 1) >>= _) _ = _
      rw [bind_ok (behind rest stops)]
      rfl
    rw [tokens_eq, same]
    show ((link _ _ >>= _) >>= _) _ = _
    rw [bind_assoc, bind_ok linked]
    simp only [bind_assoc, pure_bind]
    rfl

end Grammar

end TabularSql
