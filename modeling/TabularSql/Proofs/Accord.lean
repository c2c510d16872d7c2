import TabularSql.Proofs.Reading.Basic

/-!
# Readers side by side

Two versions of a reader accord up to a number of tokens if they end in the same way on fewer, and leave a suffix
of them, whether they give a value or fail. Combinators keep this, and instance search takes readers apart into
them. What is read in brackets has fewer tokens than what stands around it, so that readers of the grammar accord
up to one token more than the readers for what is nested in them. Readers for different depths of nesting
therefore accord up to the smaller depth, whatever is nested deeper.
-/

namespace TabularSql

set_option autoImplicit false

/-! ## Combinators -/

namespace Reader

variable {α β : Type}

@[simp] def left : Except Failure (α × List Token) → List Token
  | .ok (_, rest) => rest
  | .error failure => failure.left

/-- The reader leaves a suffix of its tokens, whether it gives a value or fails. -/
def Moves (read : Reader α) : Prop := ∀ tokens, left (read tokens) <:+ tokens

/-- On fewer tokens than the bound, the two readers end in the same way and leave a suffix. -/
class Accords (bound : Nat) (first second : Reader α) : Prop where
  below : ∀ tokens, tokens.length < bound → first tokens = second tokens ∧ left (second tokens) <:+ tokens

variable {bound : Nat} {first second other another read : Reader α} {next follow : α → Reader β}

theorem accords_same (moves : Moves read) : Accords bound read read :=
  ⟨fun tokens _ => ⟨rfl, moves tokens⟩⟩

theorem moves (read : Reader α) [accords : ∀ bound, Accords bound read read] : Moves read :=
  fun tokens => ((accords _).below tokens (Nat.lt_succ_self _)).2

theorem Moves.suffix (moves : Moves read) {tokens rest : List Token} {value : α}
    (ended : read tokens = .ok (value, rest)) : rest <:+ tokens := by
  have own := moves tokens
  rwa [ended] at own

instance accords_pure (value : α) : Accords bound (pure value : Reader α) (pure value) :=
  accords_same fun _ => List.suffix_refl _

instance accords_unexpected (expected : String) :
    Accords bound (unexpected expected : Reader α) (unexpected expected) := by
  refine accords_same fun tokens => ?_
  cases tokens <;> exact List.suffix_refl _

/-- The reader behind the first one has fewer tokens, by those that the first one takes. -/
theorem accords_step (least : Nat) (own : Accords bound first second)
    (takes : ∀ tokens value rest, tokens.length < bound → second tokens = .ok (value, rest) →
      rest.length + least ≤ tokens.length)
    (behind : ∀ value, Accords (bound - least) (next value) (follow value)) :
    Accords bound (first >>= next) (second >>= follow) := by
  refine ⟨fun tokens short => ?_⟩
  obtain ⟨same, suffix⟩ := own.below tokens short
  show (first tokens >>= fun pair => next pair.1 pair.2) =
    (second tokens >>= fun pair => follow pair.1 pair.2) ∧
      left (second tokens >>= fun pair => follow pair.1 pair.2) <:+ tokens
  rw [same]
  cases ended : second tokens with
  | error failure =>
    rw [ended] at suffix
    exact ⟨rfl, suffix⟩
  | ok pair =>
    obtain ⟨value, rest⟩ := pair
    have fewer := takes tokens value rest short ended
    rw [ended] at suffix
    obtain ⟨agree, further⟩ := (behind value).below rest (by omega)
    exact ⟨agree, further.trans suffix⟩

instance accords_bind [own : Accords bound first second]
    [behind : ∀ value, Accords bound (next value) (follow value)] :
    Accords bound (first >>= next) (second >>= follow) := by
  -- A suffix is no longer than the whole, so nothing has to be taken.
  refine accords_step 0 own (fun tokens value rest short ended => ?_) behind
  have suffix := (own.below tokens short).2
  rw [ended] at suffix
  exact suffix.length_le

instance accords_map {change : α → β} [Accords bound first second] :
    Accords bound (change <$> first) (change <$> second) := by
  rw [map_eq_pure_bind, map_eq_pure_bind]
  infer_instance

instance accords_discard [own : Accords bound first second] :
    Accords bound (discard first) (discard second) :=
  @accords_bind _ _ bound first second _ (fun _ => pure PUnit.unit) own fun _ => accords_pure _

instance accords_ite {test : Prop} [Decidable test] [then_ : Accords bound first second]
    [else_ : Accords bound other another] :
    Accords bound (if test then first else other) (if test then second else another) := by
  split
  · exact then_
  · exact else_

instance accords_get : Accords bound (get : Reader (List Token)) get :=
  accords_same fun _ => List.suffix_refl _

instance accords_isNext (keyword : String) : Accords bound (isNext keyword) (isNext keyword) :=
  accords_same fun _ => List.suffix_refl _

instance accords_accept (keyword : String) : Accords bound (accept keyword) (accept keyword) := by
  refine accords_same fun tokens => ?_
  unfold accept
  split
  · simp
  · split <;> simp

instance accords_acceptMark (mark : Mark) : Accords bound (acceptMark mark) (acceptMark mark) := by
  refine accords_same fun tokens => ?_
  unfold acceptMark
  split
  · simp
  · split <;> simp

instance accords_acceptAll (keywords : List String) :
    Accords bound (acceptAll keywords) (acceptAll keywords) := by
  refine accords_same fun tokens => ?_
  simp only [acceptAll]
  split <;> simp [List.drop_suffix]

instance accords_expect (keyword : String) : Accords bound (expect keyword) (expect keyword) := by
  unfold expect
  infer_instance

instance accords_expectMark (mark : Mark) : Accords bound (expectMark mark) (expectMark mark) := by
  unfold expectMark
  infer_instance

instance accords_after (keyword : String) [Accords bound first second] :
    Accords bound (after keyword first) (after keyword second) := by
  unfold after
  infer_instance

instance accords_afterAll (keywords : List String) [Accords bound first second] :
    Accords bound (afterAll keywords first) (afterAll keywords second) := by
  unfold afterAll
  infer_instance

instance accords_afterMark (mark : Mark) [Accords bound first second] :
    Accords bound (afterMark mark first) (afterMark mark second) := by
  unfold afterMark
  infer_instance

/-- A reader that goes on in two ways, by what it has found. -/
theorem accords_found {read : Reader (Option α)} {first second : Option α → Reader β}
    [Accords bound read read] (nothing : Accords bound (first none) (second none))
    (something : ∀ value, Accords bound (first (some value)) (second (some value))) :
    Accords bound (read >>= first) (read >>= second) := by
  refine @accords_bind _ _ _ _ _ _ _ _ fun found => ?_
  cases found with
  | none => exact nothing
  | some value => exact something value

instance accords_atMost {first second : Reader (Option α)} [own : Accords bound first second]
    (rounds : Nat) : Accords bound (atMost first rounds) (atMost second rounds) := by
  induction rounds with
  | zero => exact accords_pure _
  | succ rounds ih =>
    refine @accords_bind _ _ _ _ _ _ _ own fun found => ?_
    cases found <;> infer_instance

instance accords_many {first second : Reader (Option α)} [Accords bound first second] :
    Accords bound (many first) (many second) :=
  ⟨fun tokens => (accords_atMost tokens.length).below tokens⟩

instance accords_separated [Accords bound first second] :
    Accords bound (separated first) (separated second) := by
  unfold separated
  infer_instance

theorem expectMark_takes {mark : Mark} {tokens rest : List Token} {value : Unit}
    (ended : expectMark mark tokens = .ok (value, rest)) : rest.length + 1 ≤ tokens.length := by
  cases tokens with
  | nil => cases ended
  | cons token behind =>
    by_cases same : token = .mark mark
    · rw [same, expectMark_same] at ended
      cases ended
      exact Nat.le_refl _
    · rw [expectMark, bind_ok (acceptMark_none (by simpa using same))] at ended
      cases ended

/-- What stands in brackets is shorter than the whole. -/
instance accords_parenthesized [Accords (bound - 1) first second] :
    Accords bound (parenthesized first) (parenthesized second) :=
  accords_step 1 (accords_expectMark .leftParen) (fun _ _ _ _ => expectMark_takes) fun _ => inferInstance

end Reader

open Reader

/-! ## The grammar -/

namespace Grammar

set_option synthInstance.maxSize 2000

variable {bound : Nat} {one two : Inner}

instance accords_identifier : Accords bound identifier identifier := by
  refine accords_same fun tokens => ?_
  unfold identifier
  split
  · simp
  · exact moves (unexpected _) tokens

instance accords_columnRef : Accords bound columnRef columnRef :=
  @accords_bind _ _ _ _ _ _ _ _ fun _ => accords_found inferInstance fun _ => inferInstance

instance accords_alias : Accords bound alias? alias? := by
  refine @accords_bind _ _ _ _ _ _ _ _ fun _ => @accords_ite _ _ _ _ _ _ _ _ inferInstance ?_
  refine accords_same fun tokens => ?_
  cases tokens with
  | nil => exact List.suffix_refl _
  | cons token behind =>
    cases token with
    | word name quote =>
      show left ((if quote.isSome || !isReserved name then (do
        set behind
        return some ⟨name, quote⟩ : Reader (Option Identifier)) else return none)
          (.word name quote :: behind)) <:+ _
      split
      · exact List.suffix_cons _ _
      · exact List.suffix_refl _
    | _ => exact List.suffix_refl _

instance accords_version : Accords bound version version := by
  refine accords_same fun tokens => ?_
  unfold version
  split
  · split <;> simp
  · exact List.suffix_append [_, _] _
  · simp

instance accords_tableWord : Accords bound tableWord tableWord := by
  refine accords_same fun tokens => ?_
  unfold tableWord
  split
  · simp
  · split <;> simp
  · simp

instance accords_tableName : Accords bound tableName tableName := by
  unfold tableName
  infer_instance

instance accords_castTarget : Accords bound castTarget castTarget := by
  refine accords_same fun tokens => ?_
  unfold castTarget
  split
  · split <;> simp
  · split <;> simp
  · simp
  · simp

instance accords_parameter : Accords bound parameter parameter := by
  refine accords_same fun tokens => ?_
  unfold parameter
  split <;> simp [List.tail_suffix]

instance accords_sign : Accords bound sign sign := by
  refine accords_same fun tokens => ?_
  unfold sign
  split <;> simp

instance accords_sumOperator : Accords bound sumOperator sumOperator := by
  refine accords_same fun tokens => ?_
  unfold sumOperator
  split <;> simp

instance accords_productOperator : Accords bound productOperator productOperator := by
  refine accords_same fun tokens => ?_
  unfold productOperator
  split
  iterate 3 simp
  exact moves _ tokens

instance accords_comparison : Accords bound comparison comparison := by
  refine accords_same fun tokens => ?_
  unfold comparison
  split <;> simp

instance accords_acceptNot : Accords bound acceptNot acceptNot := by
  refine accords_same fun tokens => ?_
  simp only [acceptNot]
  split <;> simp [List.tail_suffix]

instance accords_isTest (tested : Expr) : Accords bound (isTest tested) (isTest tested) := by
  unfold isTest
  infer_instance

instance accords_joinKind : Accords bound joinKind joinKind := by
  unfold joinKind
  infer_instance

instance accords_distinct : Accords bound distinct distinct := by
  unfold distinct
  infer_instance

instance accords_unionAll : Accords bound unionAll unionAll := by
  unfold unionAll
  infer_instance

/-- The readers inside brackets accord. -/
class AccordsInside (bound : Nat) (one two : Inner) : Prop where
  expr : Accords bound one.expr two.expr
  query : Accords bound one.query two.query

attribute [instance] AccordsInside.expr AccordsInside.query

instance accordsInside_fewer [inside : AccordsInside bound one two] : AccordsInside (bound - 1) one two :=
  ⟨⟨fun tokens short => inside.expr.below tokens (Nat.lt_of_lt_pred short)⟩,
    ⟨fun tokens short => inside.query.below tokens (Nat.lt_of_lt_pred short)⟩⟩

instance accords_link {operator : Reader (Option BinaryOperator)} {first second : Reader Expr}
    [Accords bound operator operator] [Accords bound first second] :
    Accords bound (link operator first) (link operator second) :=
  accords_found inferInstance fun _ => inferInstance

instance accords_chain {operator : Reader (Option BinaryOperator)} {first second : Reader Expr}
    [Accords bound operator operator] [Accords bound first second] :
    Accords bound (chain operator first) (chain operator second) :=
  have links : Accords bound (many (link operator first)) (many (link operator second)) := inferInstance
  @accords_bind _ _ _ _ _ _ _ _ fun _ => @accords_bind _ _ _ _ _ _ _ links fun _ => accords_pure _

section

variable [AccordsInside bound one two]

instance accords_cast : Accords bound (cast one) (cast two) := by
  unfold cast
  infer_instance

instance accords_whenBranch : Accords bound (whenBranch one) (whenBranch two) := by
  unfold whenBranch
  infer_instance

instance accords_caseWhen : Accords bound (caseWhen one) (caseWhen two) := by
  dsimp only [caseWhen]
  infer_instance

instance accords_arguments (name : String) : Accords bound (arguments one name) (arguments two name) := by
  unfold arguments
  infer_instance

instance accords_special (opening : Opening) : Accords bound (special one opening) (special two opening) := by
  cases opening <;> dsimp only [special] <;> infer_instance

end

/-- A token in front of what two readers read. -/
theorem accords_front {α : Type} {first second : Reader α} [own : Accords (bound - 1) first second]
    {token : Token} {rest : List Token} (short : (token :: rest).length < bound) :
    first rest = second rest ∧ left (second rest) <:+ token :: rest := by
  obtain ⟨same, suffix⟩ := own.below rest (Nat.lt_pred_of_succ_lt short)
  exact ⟨same, suffix.trans (List.suffix_cons _ _)⟩

section

variable [AccordsInside (bound - 1) one two]

theorem accords_wordExpr {word : String} {rest : List Token}
    (short : (Token.word word none :: rest).length < bound) :
    wordExpr one word rest = wordExpr two word rest ∧
      left (wordExpr two word rest) <:+ .word word none :: rest := by
  unfold wordExpr
  split
  · exact accords_map.below _ short
  · exact (accords_unexpected "expression").below _ short
  · exact accords_front short

/-- An expression without operators has a token in front of what is nested in it. -/
instance accords_primary : Accords bound (primary one) (primary two) := by
  refine ⟨fun tokens short => ?_⟩
  unfold primary
  split
  · simp
  · exact ⟨rfl, List.suffix_append [_, _] _⟩
  · simp
  · exact accords_front short
  · exact accords_front short
  · exact accords_wordExpr short
  · exact accords_map.below _ short
  · exact (accords_unexpected "expression").below _ short

instance accords_signed : Accords bound (signed one) (signed two) := by
  unfold signed
  infer_instance

instance accords_product : Accords bound (product one) (product two) := accords_chain

instance accords_sum : Accords bound (sum one) (sum two) := accords_chain

instance accords_membership (tested : Expr) (negated : Bool) :
    Accords bound (membership one tested negated) (membership two tested negated) := by
  unfold membership
  infer_instance

instance accords_predicate : Accords bound (predicate one) (predicate two) :=
  @accords_bind _ _ _ _ _ _ _ _ fun _ => accords_found inferInstance fun _ => inferInstance

instance accords_negation : Accords bound (negation one) (negation two) := by
  unfold negation
  infer_instance

instance accords_conjunction : Accords bound (conjunction one) (conjunction two) := accords_chain

instance accords_expr : Accords bound (expr one) (expr two) := accords_chain

instance accords_selectItem : Accords bound (selectItem one) (selectItem two) := by
  unfold selectItem
  infer_instance

instance accords_projection : Accords bound (projection one) (projection two) := by
  unfold projection
  infer_instance

instance accords_joined : Accords bound (joined one) (joined two) :=
  accords_found inferInstance fun _ => inferInstance

instance accords_source : Accords bound (source one) (source two) := by
  unfold source
  infer_instance

instance accords_sortKey : Accords bound (sortKey one) (sortKey two) := by
  unfold sortKey
  infer_instance

instance accords_page : Accords bound (page one) (page two) := by
  unfold page
  infer_instance

instance accords_select : Accords bound (select one) (select two) := by
  unfold select
  infer_instance

instance accords_unionBranch : Accords bound (unionBranch one) (unionBranch two) := by
  unfold unionBranch
  infer_instance

instance accords_commonTable : Accords bound (commonTable one) (commonTable two) := by
  unfold commonTable
  infer_instance

instance accords_query : Accords bound (query one) (query two) := by
  unfold query
  infer_instance

end

instance accords_complete {α : Type} {first second : Reader α} [Accords bound first second] :
    Accords bound (complete first) (complete second) := by
  unfold complete
  infer_instance

/-! ## Depth -/

/-- The readers for a depth of nesting, over given readers for what is nested deeper. -/
def nestedOver (deeper : Inner) : Nat → Inner
  | 0 => deeper
  | depth + 1 => ⟨expr (nestedOver deeper depth), query (nestedOver deeper depth)⟩

/-- Fewer tokens than the depth do not get to what is nested deeper. -/
theorem accords_nestedOver {deeper : Inner} {depth least : Nat} (enough : bound ≤ depth)
    (sufficient : bound ≤ least) :
    AccordsInside bound (nestedOver deeper depth) (nested least) := by
  induction bound generalizing depth least with
  | zero =>
    have nothing {α : Type} {first second : Reader α} : Accords 0 first second :=
      ⟨fun _ short => absurd short (Nat.not_lt_zero _)⟩
    exact ⟨nothing, nothing⟩
  | succ bound ih =>
    cases depth with
    | zero => cases enough
    | succ depth =>
      cases least with
      | zero => cases sufficient
      | succ least =>
        have inside := ih (Nat.le_of_succ_le_succ enough) (Nat.le_of_succ_le_succ sufficient)
        exact ⟨@accords_expr (bound + 1) _ _ inside, @accords_query (bound + 1) _ _ inside⟩

instance accords_nested (depth : Nat) : AccordsInside bound (nested depth) (nested depth) := by
  induction depth generalizing bound with
  | zero => exact ⟨accords_unexpected _, accords_unexpected _⟩
  | succ depth ih => exact ⟨accords_expr, accords_query⟩

end Grammar

end TabularSql
