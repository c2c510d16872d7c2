import TabularSql.Proofs.Built

/-!
# Progress of the readers

A reader ends somewhere in front of the tokens that it has not taken, whether it gives a value or fails. No
reader of the grammar goes back, and none gives a value without taking a token. Three things follow. A loop
comes to an end, since every round but the last takes a token. What stands in brackets is shorter than what
stands around it, so the recursion of the grammar ends. And the bounds on both, which the definitions carry,
are never met: the readers are those of a grammar without bounds.
-/

namespace TabularSql

set_option autoImplicit false

/-! ## Places in a list of tokens -/

namespace Reader

variable {α β : Type} {read : Reader α} {next : α → Reader β}

/-- From any place in a list of tokens the reader gets to a place that is not before it, and behind it if the
reader gives a value. No place is behind the end of the list. -/
def Progresses (read : Reader α) : Prop :=
  ∀ (tokens : List Token) (cursor : Nat), cursor ≤ tokens.length → ∃ next, next ≤ tokens.length ∧
    ((∃ value, read (tokens.drop cursor) = .ok (value, tokens.drop next)) ∧ cursor < next ∨
      (∃ error, read (tokens.drop cursor) = .error ⟨error, tokens.drop next⟩) ∧ cursor ≤ next)

/-- Whatever value the reader gives, it takes a token. -/
def Shortens (read : Reader α) : Prop :=
  ∀ tokens value rest, read tokens = .ok (value, rest) → rest.length < tokens.length

theorem Yields.shortens {purse : Nat} {cost : α → Nat} {post : α → Prop}
    (own : Yields 1 purse read cost post) : Shortens read :=
  fun tokens value rest given => (own tokens value rest given).progress

theorem Shortens.bind (own : Shortens read) (behind : ∀ value, Moves (next value)) :
    Shortens (read >>= next) := by
  intro tokens result rest given
  obtain ⟨value, between, taken, last⟩ := of_bind given
  exact ((behind value).suffix last).length_le.trans_lt (own tokens value between taken)

/-- A suffix is told by its place in the list. -/
theorem drop_of_suffix {rest tokens : List Token} {cursor : Nat} (suffix : rest <:+ tokens.drop cursor)
    (within : cursor ≤ tokens.length) : ∃ next, cursor ≤ next ∧ next ≤ tokens.length ∧
      rest = tokens.drop next ∧ rest.length + next = tokens.length := by
  have length := suffix.length_le
  rw [List.length_drop] at length
  refine ⟨tokens.length - rest.length, by omega, by omega, ?_, by omega⟩
  exact List.suffix_iff_eq_drop.mp (suffix.trans (List.drop_suffix cursor tokens))

theorem Shortens.progresses (own : Shortens read) (moves : Moves read) : Progresses read := by
  intro tokens cursor within
  have suffix := moves (tokens.drop cursor)
  cases ended : read (tokens.drop cursor) with
  | ok pair =>
    obtain ⟨value, rest⟩ := pair
    have fewer := own (tokens.drop cursor) value rest ended
    rw [ended] at suffix
    obtain ⟨next, _, inside, place, length⟩ := @drop_of_suffix rest tokens cursor suffix within
    subst place
    simp only [List.length_drop] at fewer
    exact ⟨next, inside, .inl ⟨⟨value, rfl⟩, by omega⟩⟩
  | error failure =>
    obtain ⟨error, rest⟩ := failure
    rw [ended] at suffix
    obtain ⟨next, after, inside, place, _⟩ := @drop_of_suffix rest tokens cursor suffix within
    subst place
    exact ⟨next, inside, .inr ⟨⟨error, rfl⟩, after⟩⟩

/-! ## Repetition -/

/-- The loop that repeats a round until it finds nothing, with no bound on the number of rounds: what it gives
from a list of tokens, if it comes to an end. -/
inductive Repeats (round : Reader (Option α)) :
    List Token → Except Failure (List α × List Token) → Prop where
  | stop {tokens rest : List Token} (nothing : round tokens = .ok (none, rest)) :
      Repeats round tokens (.ok ([], rest))
  | fail {tokens : List Token} {failure : Failure} (fails : round tokens = .error failure) :
      Repeats round tokens (.error failure)
  | item {tokens rest : List Token} {item : α} {outcome : Except Failure (List α × List Token)}
      (found : round tokens = .ok (some item, rest)) (others : Repeats round rest outcome) :
      Repeats round tokens (outcome.map fun pair => (item :: pair.1, pair.2))

/-- A round that finds something takes a token, and there is nothing to find at the end. -/
class Consumes (round : Reader (Option α)) : Prop where
  atEnd : round [] = .ok (none, [])
  shortens : ∀ tokens item rest, round tokens = .ok (some item, rest) → rest.length < tokens.length

variable {round : Reader (Option α)}

theorem Repeats.unique {tokens : List Token} {outcome other : Except Failure (List α × List Token)}
    (first : Repeats round tokens outcome) (second : Repeats round tokens other) : outcome = other := by
  induction first generalizing other with
  | stop nothing => cases second <;> simp_all
  | fail fails => cases second <;> simp_all
  | item found _ ih =>
    cases second with
    | item same others =>
      rw [found] at same
      cases same
      rw [ih others]
    | _ => simp_all

/-- As many rounds as there are tokens are enough. -/
theorem Consumes.repeats_atMost (consumes : Consumes round) {rounds : Nat} {tokens : List Token}
    (enough : tokens.length ≤ rounds) : Repeats round tokens (atMost round rounds tokens) := by
  induction rounds generalizing tokens with
  | zero =>
    cases List.eq_nil_of_length_eq_zero (Nat.le_zero.mp enough)
    exact .stop consumes.atEnd
  | succ rounds ih =>
    have start : atMost round (rounds + 1) tokens = (round tokens >>= _) := rfl
    rcases ended : round tokens with failure | ⟨_ | item, rest⟩ <;> rw [start, ended]
    · exact .fail ended
    · exact .stop ended
    · have fewer := consumes.shortens tokens item rest ended
      exact .item ended (ih (by omega))

theorem Consumes.repeats_iff (consumes : Consumes round) {tokens : List Token}
    {outcome : Except Failure (List α × List Token)} :
    Repeats round tokens outcome ↔ outcome = many round tokens := by
  have own : Repeats round tokens (many round tokens) := consumes.repeats_atMost (Nat.le_refl _)
  constructor
  · intro other
    exact other.unique own
  · rintro rfl
    exact own

instance consumes_nothing : Consumes (pure none : Reader (Option α)) where
  atEnd := rfl
  shortens := by
    intro tokens item rest given
    cases given

/-- A round that goes on only behind what it finds first. -/
theorem consumes_bind {next : Option α → Reader (Option β)} [own : Consumes round]
    (nothing : next none = pure none) (behind : ∀ item, Moves (next (some item))) :
    Consumes (round >>= next) where
  atEnd := by
    rw [bind_ok own.atEnd, nothing]
    rfl
  shortens := by
    intro tokens item rest given
    obtain ⟨found, between, taken, last⟩ := of_bind given
    cases found with
    | none =>
      rw [nothing] at last
      cases last
    | some first =>
      exact ((behind first).suffix last).length_le.trans_lt (own.shortens tokens first between taken)

/-- A round that begins with what it may take. -/
theorem consumes_choice {take : Reader Bool} {first other : Reader (Option α)} (takes : Takes take)
    (atEnd : take [] = .ok (false, [])) [∀ bound, Accords bound first first] [else_ : Consumes other] :
    Consumes (do if ← take then first else other) where
  atEnd := by
    rw [bind_ok atEnd]
    exact else_.atEnd
  shortens := by
    intro tokens item rest given
    obtain ⟨found, between, taken, last⟩ := of_bind given
    have fewer := (takes tokens found between taken).progress
    cases found with
    | true => exact ((moves first).suffix last).length_le.trans_lt fewer
    | false => exact (else_.shortens between item rest last).trans_le fewer

theorem takes_acceptAll (keyword : String) (keywords : List String) :
    Takes (acceptAll (keyword :: keywords)) := by
  intro tokens found rest given
  simp only [acceptAll] at given
  split at given <;> cases given
  · next starts =>
      cases tokens with
      | nil => cases starts
      | cons token rest =>
        have suffix : rest.drop keywords.length <:+ rest := List.drop_suffix _ _
        have lighter := weights_of_suffix suffix
        refine ⟨suffix.trans (List.suffix_cons _ _), Nat.succ_le_succ suffix.length_le, ?_, fun _ => trivial⟩
        show 0 + Token.weights (rest.drop keywords.length) ≤ token.weight + Token.weights rest + 0
        omega
  · exact .nothing (Nat.le_refl 0) trivial

section

variable {first other : Reader (Option α)} [∀ bound, Accords bound first first] [Consumes other]

instance consumes_accept (keyword : String) : Consumes (do if ← accept keyword then first else other) :=
  consumes_choice (takes_accept keyword) rfl

instance consumes_acceptMark (mark : Mark) : Consumes (do if ← acceptMark mark then first else other) :=
  consumes_choice (takes_acceptMark mark) rfl

instance consumes_acceptAll (keyword : String) (keywords : List String) :
    Consumes (do if ← acceptAll (keyword :: keywords) then first else other) :=
  consumes_choice (takes_acceptAll keyword keywords) rfl

end

instance consumes_after (keyword : String) [∀ bound, Accords bound read read] :
    Consumes (after keyword read) := by
  unfold after
  infer_instance

instance consumes_afterMark (mark : Mark) [∀ bound, Accords bound read read] :
    Consumes (afterMark mark read) := by
  unfold afterMark
  infer_instance

end Reader

open Reader

namespace Grammar

/-! ## Rounds of the grammar -/

instance consumes_link {operator : Reader (Option BinaryOperator)} {operand : Reader Expr}
    [Consumes operator] [∀ bound, Accords bound operand operand] : Consumes (link operator operand) :=
  consumes_bind rfl fun _ => moves _

instance consumes_sign : Consumes sign := by
  refine ⟨rfl, fun tokens item rest given => ?_⟩
  unfold sign at given
  split at given <;> cases given <;> exact Nat.lt_succ_self _

instance consumes_sumOperator : Consumes sumOperator := by
  refine ⟨rfl, fun tokens item rest given => ?_⟩
  unfold sumOperator at given
  split at given <;> cases given <;> exact Nat.lt_succ_self _

instance consumes_productOperator : Consumes productOperator := by
  have words : Consumes (do
      if ← accept "DIV" then return some BinaryOperator.wholeDivide
      if ← accept "MOD" then return some BinaryOperator.remainder
      return none) := inferInstance
  refine ⟨rfl, fun tokens item rest given => ?_⟩
  unfold productOperator at given
  split at given
  iterate 3
    cases given
    exact Nat.lt_succ_self _
  exact words.shortens tokens item rest given

instance consumes_joinKind : Consumes joinKind := by
  unfold joinKind
  infer_instance

instance consumes_joined {inner : Inner} [∀ bound, Accords bound (expr inner) (expr inner)] :
    Consumes (joined inner) :=
  consumes_bind rfl fun _ => moves _

/-! ## Rules -/

/-- The rules of the grammar. Those for CASE, CAST, IN and calls are read behind the word that opens them. -/
inductive Rule : Type → Type 1 where
  | query : Rule Query
  | commonTable : Rule CommonTable
  | select : Rule Select
  | projection : Rule Projection
  | selectItem : Rule SelectItem
  | source : Rule Source
  | tableName : Rule TableName
  | sortKey : Rule SortKey
  | page : Rule Page
  | expr : Rule Expr
  | conjunction : Rule Expr
  | negation : Rule Expr
  | predicate : Rule Expr
  | sum : Rule Expr
  | product : Rule Expr
  | signed : Rule Expr
  | primary : Rule Expr
  | caseWhen : Rule Expr
  | cast : Rule Expr
  | membership (tested : Expr) (negated : Bool) : Rule Expr
  | call (name : String) : Rule Expr
  | columnRef : Rule ColumnRef
  | identifier : Rule Identifier
  | separated {α : Type} (item : Rule α) : Rule (List α)

namespace Rule

variable {α : Type} {bound : Nat} {one two : Inner}

def read (inner : Inner) {α : Type} : Rule α → Reader α
  | query => Grammar.query inner
  | commonTable => Grammar.commonTable inner
  | select => Grammar.select inner
  | projection => Grammar.projection inner
  | selectItem => Grammar.selectItem inner
  | source => Grammar.source inner
  | tableName => Grammar.tableName
  | sortKey => Grammar.sortKey inner
  | page => Grammar.page inner
  | expr => Grammar.expr inner
  | conjunction => Grammar.conjunction inner
  | negation => Grammar.negation inner
  | predicate => Grammar.predicate inner
  | sum => Grammar.sum inner
  | product => Grammar.product inner
  | signed => Grammar.signed inner
  | primary => Grammar.primary inner
  | caseWhen => Grammar.caseWhen inner
  | cast => Grammar.cast inner
  | membership tested negated => Grammar.membership inner tested negated
  | call name => special inner (.call name)
  | columnRef => Grammar.columnRef
  | identifier => Grammar.identifier
  | separated item => Reader.separated (item.read inner)

instance accords (rule : Rule α) [AccordsInside bound one two] :
    Accords bound (rule.read one) (rule.read two) := by
  induction rule with
  | separated item ih => exact accords_separated
  | _ => dsimp only [read]; infer_instance

theorem shortens (rule : Rule α) (depth : Nat) : Shortens (rule.read (nested depth)) := by
  induction rule with
  | query => exact yields_query.shortens
  | commonTable => exact yields_commonTable.shortens
  | select => exact yields_select.shortens
  | projection => exact yields_projection.shortens
  | selectItem => exact yields_selectItem.shortens
  | source => exact yields_source.shortens
  | tableName => exact yields_tableName.shortens
  | sortKey => exact yields_sortKey.shortens
  | page => exact yields_page.shortens
  | expr => exact yields_expr.shortens
  | conjunction => exact yields_conjunction.shortens
  | negation => exact yields_negation.shortens
  | predicate => exact yields_predicate.shortens
  | sum => exact yields_sum.shortens
  | product => exact yields_product.shortens
  | signed => exact yields_signed.shortens
  | primary => exact fun _ _ _ given => (taken_primary given).progress
  | caseWhen => exact yields_caseWhen.shortens
  | cast => exact yields_cast.shortens
  | membership tested negated => exact (yields_membership tested negated).shortens
  | call name =>
    exact (yields_behind (passes_expectMark .leftParen) fun _ => yields_arguments name).shortens
  | columnRef => exact yields_columnRef.shortens
  | identifier => exact yields_identifier.shortens
  | separated item ih =>
    exact Shortens.bind ih fun _ => moves _

end Rule

/-! ## Loops -/

/-- The loops of the grammar: unions, lists, joins, the four levels of chained operators, the branches of
CASE, and the negations and signs in front of an operand. -/
inductive Loop : Type → Type 1 where
  | unions : Loop UnionBranch
  | commas {α : Type} (item : Rule α) : Loop α
  | joins : Loop (JoinKind × TableName × Expr)
  | disjuncts : Loop (BinaryOperator × Expr)
  | conjuncts : Loop (BinaryOperator × Expr)
  | terms : Loop (BinaryOperator × Expr)
  | factors : Loop (BinaryOperator × Expr)
  | branches : Loop (Expr × Expr)
  | negations : Loop Unit
  | signs : Loop UnaryOperator

namespace Loop

variable {α : Type}

def round (inner : Inner) {α : Type} : Loop α → Reader (Option α)
  | unions => after "UNION" (unionBranch inner)
  | commas item => afterMark .comma (item.read inner)
  | joins => joined inner
  | disjuncts => link (after "OR" (pure .or)) (conjunction inner)
  | conjuncts => link (after "AND" (pure .and)) (negation inner)
  | terms => link sumOperator (product inner)
  | factors => link productOperator (signed inner)
  | branches => after "WHEN" (whenBranch inner)
  | negations => after "NOT" (pure ())
  | signs => sign

theorem consumes (loop : Loop α) (depth : Nat) : Consumes (loop.round (nested depth)) := by
  cases loop <;> dsimp only [round] <;> infer_instance

end Loop

/-! ## The grammar without bounds -/

/-- A rule does not read what would be nested deeper than there are tokens. -/
theorem Rule.read_nestedOver {α : Type} (rule : Rule α) (deeper : Inner) (tokens : List Token)
    (further : Nat) : rule.read (nestedOver deeper (tokens.length + 1 + further)) tokens =
      rule.read (nested (tokens.length + 1)) tokens := by
  have inside : AccordsInside (tokens.length + 1) (nestedOver deeper (tokens.length + 1 + further))
      (nested (tokens.length + 1)) :=
    accords_nestedOver (Nat.le_add_right _ _) (Nat.le_refl _)
  exact (rule.accords.below tokens (Nat.lt_succ_self _)).1

/-- Nor does a whole text: what is nested in it has one token less. -/
theorem run_nestedOver {α : Type} {rule : Inner → Reader α} (deeper : Inner) (tokens : List Token)
    (further : Nat) (accords : ∀ {bound : Nat} {one two : Inner} [AccordsInside (bound - 1) one two],
      Accords bound (rule one) (rule two)) :
    (complete (rule (nested tokens.length))).run' tokens =
      (complete (rule (nestedOver deeper (tokens.length + further)))).run' tokens := by
  have inside : AccordsInside tokens.length (nestedOver deeper (tokens.length + further))
      (nested tokens.length) :=
    accords_nestedOver (Nat.le_add_right _ _) (Nat.le_refl _)
  have whole := @accords_complete _ _ _ _ (@accords (tokens.length + 1) _ _ inside)
  rw [Reader.run', Reader.run', (whole.below tokens (Nat.lt_succ_self _)).1]

/-- The grammar always makes progress. Every rule gets from any place in the tokens to one that is not before
it, and behind it if it gives a value. It gives the same whatever readers stand for what is nested deeper than
there are tokens; no reader recovers from a failure of another one, so it calls none of them. Each loop comes
to an end, and the bounded loop gives its outcome. So texts are read as if nothing were bounded. -/
theorem readers_always_progress :
    (∀ {α : Type} (rule : Rule α) (depth : Nat), (rule.read (nested depth)).Progresses) ∧
    (∀ {α : Type} (rule : Rule α) (deeper : Inner) (tokens : List Token) (further : Nat),
      rule.read (nestedOver deeper (tokens.length + 1 + further)) tokens =
        rule.read (nested (tokens.length + 1)) tokens) ∧
    (∀ {α : Type} (loop : Loop α) (depth : Nat) (tokens : List Token)
      (outcome : Except Failure (List α × List Token)),
      Repeats (loop.round (nested depth)) tokens outcome ↔
        outcome = many (loop.round (nested depth)) tokens) ∧
    ∀ (text : String) (deeper : Inner) (further : Nat),
      Query.parse text = (do
        let tokens ← Token.ofText text
        (complete (query (nestedOver deeper (tokens.length + further)))).run' tokens) ∧
      Expr.parse text = (do
        let tokens ← Token.ofText text
        (complete (expr (nestedOver deeper (tokens.length + further)))).run' tokens) := by
  refine ⟨fun rule depth => (rule.shortens depth).progresses (moves _),
    fun rule deeper tokens further => rule.read_nestedOver deeper tokens further,
    fun loop depth tokens outcome => (loop.consumes depth).repeats_iff, fun text deeper further => ?_⟩
  constructor
  · rw [Query.parse]
    congr
    funext tokens
    exact run_nestedOver deeper tokens further accords_query
  · rw [Expr.parse]
    congr
    funext tokens
    exact run_nestedOver deeper tokens further accords_expr

end Grammar

end TabularSql
