import TabularSql.Proofs.Accord
import TabularSql.Proofs.Costs

/-!
# What reading builds

A reader of the grammar leaves a suffix of its tokens. The tree that it gives has the shape that the grammar
builds, at every depth: tokens come from scanning, so their spelling is known, and what a reader leaves is
spelled well too. And the tokens that it takes pay for the tree, which costs no more than they are worth.
The proof follows the readers from the combinators up, and then the depth of nesting.
-/

namespace TabularSql

set_option autoImplicit false

/-! ## Readers and what they give -/

namespace Reader

def AllSpelled (tokens : List Token) : Prop := ∀ token ∈ tokens, token.Spelled

theorem AllSpelled.suffix {tokens rest : List Token} (spelled : AllSpelled tokens)
    (suffix : rest <:+ tokens) : AllSpelled rest :=
  fun token member => spelled token (suffix.subset member)

/-- At least so many tokens were taken in front of the rest. Together with the purse they pay the price,
and the fact holds if they are spelled well. -/
structure Taken (least purse : Nat) (tokens rest : List Token) (price : Nat) (fact : Prop) : Prop where
  suffix : rest <:+ tokens
  progress : rest.length + least ≤ tokens.length
  paid : price + Token.weights rest ≤ Token.weights tokens + purse
  known : AllSpelled tokens → fact

namespace Taken

variable {least purse price : Nat} {token : Token} {tokens rest : List Token} {fact conclusion : Prop}

theorem nothing (enough : price ≤ purse) (holds : fact) : Taken 0 purse tokens tokens price fact :=
  ⟨List.suffix_refl _, Nat.le_refl _, by omega, fun _ => holds⟩

theorem one (paid : price ≤ token.weight + purse) (holds : AllSpelled (token :: rest) → fact) :
    Taken 1 purse (token :: rest) rest price fact :=
  ⟨List.suffix_cons _ _, Nat.le_refl _, by rw [Token.weights_cons]; omega, holds⟩

theorem mono {more poor : Nat} (own : Taken more poor tokens rest price fact) (fewer : least ≤ more)
    (richer : poor ≤ purse) (holds : fact → conclusion) :
    Taken least purse tokens rest price conclusion := by
  obtain ⟨suffix, progress, paid, known⟩ := own
  exact ⟨suffix, by omega, by omega, fun spelled => holds (known spelled)⟩

theorem optional (own : Taken least purse tokens rest price fact) :
    Taken 0 purse tokens rest price fact :=
  own.mono (Nat.zero_le _) (Nat.le_refl _) id

theorem front (own : Taken least token.weight tokens rest price (token.Spelled → fact)) :
    Taken 1 0 (token :: tokens) rest price fact := by
  obtain ⟨suffix, progress, paid, known⟩ := own
  refine ⟨suffix.trans (List.suffix_cons _ _), ?_, ?_, fun spelled => ?_⟩
  · rw [List.length_cons]
    omega
  · rw [Token.weights_cons]
    omega
  · exact known (spelled.suffix (List.suffix_cons _ _)) (spelled token (by simp))

theorem trans {ahead behind spent saved cost : Nat} {between : List Token}
    (first : Taken ahead spent tokens between price fact)
    (second : Taken behind (saved + price) between rest cost (fact → conclusion)) :
    Taken (ahead + behind) (spent + saved) tokens rest cost conclusion := by
  obtain ⟨suffix, progress, paid, known⟩ := first
  obtain ⟨others, further, enough, final⟩ := second
  exact ⟨others.trans suffix, by omega, by omega, fun spelled =>
    final (spelled.suffix suffix) (known spelled)⟩

end Taken

variable {α β : Type} {least any purse : Nat} {read : Reader α} {next : α → Reader β}
  {price : α → Nat} {cost : β → Nat} {between : α → Prop} {post : β → Prop}

variable {first second : Reader β} {take : Reader Bool} {expected : String}

/-- The reader takes at least so many tokens. They pay for the value, together with the purse, and the value
has the property if they are spelled well. -/
def Yields (least purse : Nat) (read : Reader α) (cost : α → Nat) (post : α → Prop) : Prop :=
  ∀ tokens value rest, read tokens = .ok (value, rest) →
    Taken least purse tokens rest (cost value) (post value)

/-- The same for a value that costs nothing. -/
abbrev Passes (least : Nat) (read : Reader α) : Prop := Yields least 0 read (fun _ => 0) fun _ => True

theorem Yields.mono {weaker : α → Prop} (own : Yields any 0 read price between)
    (holds : ∀ value, between value → weaker value) : Yields 0 purse read price weaker :=
  fun tokens value rest given =>
    (own tokens value rest given).mono (Nat.zero_le _) (Nat.zero_le _) (holds value)

theorem Yields.imp {weaker : α → Prop} (own : Yields least purse read price between)
    (holds : ∀ value, between value → weaker value) : Yields least purse read price weaker :=
  fun tokens value rest given =>
    (own tokens value rest given).mono (Nat.le_refl _) (Nat.le_refl _) (holds value)

theorem Yields.optional (own : Yields least purse read price between) : Yields 0 purse read price between :=
  fun tokens value rest given => (own tokens value rest given).optional

theorem Yields.passes (own : Yields least 0 read price between) : Passes least read := by
  intro tokens value rest given
  obtain ⟨suffix, progress, paid, _⟩ := own tokens value rest given
  exact ⟨suffix, progress, Nat.le_trans (Nat.add_le_add_right (Nat.zero_le _) _) paid, fun _ => trivial⟩

theorem of_bind {tokens left : List Token} {result : β}
    (given : (read >>= next) tokens = .ok (result, left)) :
    ∃ value rest, read tokens = .ok (value, rest) ∧ next value rest = .ok (result, left) := by
  have unfolded : (read tokens >>= fun pair => next pair.1 pair.2) = .ok (result, left) := given
  obtain ⟨⟨value, rest⟩, taken, behind⟩ := Except.of_bind unfolded
  exact ⟨value, rest, taken, behind⟩

theorem yields_pure {value : β} (enough : cost value ≤ purse) (holds : post value) :
    Yields 0 purse (pure value) cost post := by
  intro tokens _ _ same
  cases same
  exact .nothing enough holds

/-- What is known of the first value is a premise of what holds of the second one. -/
theorem yields_bind (first : Yields any 0 read price between)
    (second : ∀ value, Yields least (purse + price value) (next value) cost
      fun result => between value → post result) :
    Yields least purse (read >>= next) cost post := by
  intro tokens result left given
  obtain ⟨value, rest, taken, behind⟩ := of_bind given
  exact ((first tokens value rest taken).trans (second value rest result left behind)).mono (by omega)
    (by omega) id

/-- The same when the first reader makes the progress. -/
theorem yields_first (first : Yields least 0 read price between)
    (second : ∀ value, Yields 0 (purse + price value) (next value) cost
      fun result => between value → post result) :
    Yields least purse (read >>= next) cost post := by
  intro tokens result left given
  obtain ⟨value, rest, taken, behind⟩ := of_bind given
  exact ((first tokens value rest taken).trans (second value rest result left behind)).mono
    (Nat.le_refl _) (by omega) id

/-- The same when all of the purse goes into the first value. -/
theorem yields_then (first : Yields least purse read price between)
    (second : ∀ value, Yields 0 (price value) (next value) cost
      fun result => between value → post result) :
    Yields least purse (read >>= next) cost post := by
  intro tokens result left given
  obtain ⟨value, rest, taken, behind⟩ := of_bind given
  have last := (second value rest result left behind).mono (Nat.le_refl 0)
    (Nat.le_of_eq (Nat.zero_add _).symm) id
  exact (first tokens value rest taken).trans last

theorem yields_past (first : Passes any read)
    (second : ∀ value, Yields least purse (next value) cost post) :
    Yields least purse (read >>= next) cost post :=
  yields_bind first fun value => (second value).imp fun _ holds _ => holds

/-- The same when what is passed makes the progress. -/
theorem yields_behind (first : Passes least read)
    (second : ∀ value, Yields 0 purse (next value) cost post) :
    Yields least purse (read >>= next) cost post := by
  intro tokens result left given
  obtain ⟨value, rest, taken, behind⟩ := of_bind given
  have last := (second value rest result left behind).mono (Nat.le_refl 0) (Nat.le_refl _)
    fun holds (_ : True) => holds
  exact ((first tokens value rest taken).trans last).mono (Nat.le_refl _) (by omega) id

theorem yields_ite {test : Prop} [Decidable test] (then_ : Yields least purse first cost post)
    (else_ : Yields least purse second cost post) :
    Yields least purse (if test then first else second) cost post := by
  split
  · exact then_
  · exact else_

theorem yields_choice (passes : Passes any take) (then_ : Yields least purse first cost post)
    (else_ : Yields least purse second cost post) :
    Yields least purse (do if ← take then first else second) cost post :=
  yields_past passes fun _ => yields_ite then_ else_

theorem unexpected_fails {tokens rest : List Token} {value : α} :
    unexpected expected tokens ≠ .ok (value, rest) := by
  cases tokens <;> exact nofun

theorem yields_unexpected : Yields least purse (unexpected expected) cost post :=
  fun _ _ _ given => (unexpected_fails given).elim

theorem yields_abandoned : Yields least purse (unexpected expected >>= next) cost post := by
  intro tokens result left given
  obtain ⟨_, _, taken, _⟩ := of_bind given
  exact (unexpected_fails taken).elim

def Takes (take : Reader Bool) : Prop :=
  ∀ tokens found rest, take tokens = .ok (found, rest) → Taken found.toNat 0 tokens rest 0 True

theorem takes_accept (keyword : String) : Takes (accept keyword) := by
  intro tokens found rest given
  unfold accept at given
  split at given
  · cases given
    exact .nothing (Nat.le_refl 0) trivial
  · split at given <;> cases given
    · exact .one (Nat.zero_le _) fun _ => trivial
    · exact .nothing (Nat.le_refl 0) trivial

theorem takes_acceptMark (mark : Mark) : Takes (acceptMark mark) := by
  intro tokens found rest given
  unfold acceptMark at given
  split at given
  · cases given
    exact .nothing (Nat.le_refl 0) trivial
  · split at given <;> cases given
    · exact .one (Nat.zero_le _) fun _ => trivial
    · exact .nothing (Nat.le_refl 0) trivial

theorem Takes.passes (takes : Takes take) : Passes 0 take :=
  fun tokens found rest given => (takes tokens found rest given).optional

theorem Takes.choice (takes : Takes take) (then_ : Yields 0 purse first cost post)
    (else_ : Yields 1 purse second cost post) :
    Yields 1 purse (do if ← take then first else second) cost post := by
  intro tokens value left given
  obtain ⟨found, rest, taken, behind⟩ := of_bind given
  have own := takes tokens found rest taken
  cases found with
  | true =>
    have last := (then_ rest value left behind).mono (Nat.le_refl 0) (Nat.le_refl _)
      fun holds (_ : True) => holds
    exact (own.trans last).mono (Nat.le_refl 1) (by omega) id
  | false =>
    have last := (else_ rest value left behind).mono (Nat.le_refl 1) (Nat.le_refl _)
      fun holds (_ : True) => holds
    exact (own.trans last).mono (by simp) (by omega) id

theorem Takes.required (takes : Takes take) (expected : String) :
    Passes 1 (do unless ← take do unexpected expected) := by
  intro tokens value rest given
  obtain ⟨found, behind, taken, last⟩ := of_bind given
  cases found with
  | true =>
    cases last
    exact takes tokens true rest taken
  | false => exact (unexpected_fails last).elim

theorem passes_accept (keyword : String) : Passes 0 (accept keyword) := (takes_accept keyword).passes

theorem passes_acceptMark (mark : Mark) : Passes 0 (acceptMark mark) := (takes_acceptMark mark).passes

theorem passes_expect (keyword : String) : Passes 1 (expect keyword) :=
  (takes_accept keyword).required keyword

theorem passes_expectMark (mark : Mark) : Passes 1 (expectMark mark) :=
  (takes_acceptMark mark).required mark.text

theorem weights_of_suffix {rest tokens : List Token} (suffix : rest <:+ tokens) :
    Token.weights rest ≤ Token.weights tokens := by
  obtain ⟨front, rfl⟩ := suffix
  rw [Token.weights_append]
  omega

theorem passes_of_moves (moves : Moves read) : Passes 0 read :=
  fun _ _ _ given =>
    have suffix := moves.suffix given
    ⟨suffix, suffix.length_le, by simpa using weights_of_suffix suffix, fun _ => trivial⟩

theorem passes_acceptAll (keywords : List String) : Passes 0 (acceptAll keywords) :=
  passes_of_moves (moves _)

theorem passes_isNext (keyword : String) : Passes 0 (isNext keyword) :=
  passes_of_moves (moves _)

variable {cost : α → Nat} {post : α → Prop}

theorem yields_when (passes : Passes 0 take) (own : Yields any 0 read cost post) :
    Yields 0 0 (do if ← take then return some (← read) else return none) (optional cost)
      fun found => ∀ value ∈ found, post value :=
  yields_choice passes (yields_bind own fun _ => yields_pure (by simp) fun holds => by simpa using holds)
    (yields_pure (Nat.zero_le _) (by simp))

theorem yields_after (keyword : String) (own : Yields any 0 read cost post) :
    Yields 0 0 (after keyword read) (optional cost) fun found => ∀ value ∈ found, post value :=
  yields_when (passes_accept keyword) own

theorem yields_afterAll (keywords : List String) (own : Yields any 0 read cost post) :
    Yields 0 0 (afterAll keywords read) (optional cost) fun found => ∀ value ∈ found, post value :=
  yields_when (passes_acceptAll keywords) own

theorem yields_afterMark (mark : Mark) (own : Yields any 0 read cost post) :
    Yields 0 0 (afterMark mark read) (optional cost) fun found => ∀ value ∈ found, post value :=
  yields_when (passes_acceptMark mark) own

theorem yields_atMost {read : Reader (Option α)}
    (own : Yields 0 0 read (optional cost) fun found => ∀ value ∈ found, post value) (bound : Nat) :
    Yields 0 0 (atMost read bound) (total cost) fun items => ∀ item ∈ items, post item := by
  induction bound with
  | zero => exact yields_pure (Nat.zero_le _) (by simp)
  | succ bound ih =>
    refine yields_bind own fun found => ?_
    cases found with
    | none => exact yields_pure (Nat.zero_le _) (by simp)
    | some item =>
      refine yields_bind ih fun items => yields_pure (by simp) fun others holds other member => ?_
      rcases List.mem_cons.mp member with rfl | behind
      · exact holds other rfl
      · exact others other behind

theorem yields_many {read : Reader (Option α)}
    (own : Yields 0 0 read (optional cost) fun found => ∀ value ∈ found, post value) :
    Yields 0 0 (many read) (total cost) fun items => ∀ item ∈ items, post item :=
  fun tokens => yields_atMost own tokens.length tokens

theorem yields_separated (own : Yields least 0 read cost post) :
    Yields least 0 (separated read) (total cost) fun items => items ≠ [] ∧ ∀ item ∈ items, post item := by
  refine yields_then own fun first => yields_bind (yields_many (yields_afterMark .comma own)) fun others =>
    yields_pure (by simp) fun behind holds => ⟨List.cons_ne_nil _ _, fun item member => ?_⟩
  rcases List.mem_cons.mp member with rfl | listed
  · exact holds
  · exact behind item listed

theorem yields_parenthesized (own : Yields any purse read cost post) :
    Yields 1 purse (parenthesized read) cost post :=
  yields_behind (passes_expectMark .leftParen) fun _ =>
    yields_then own.optional fun _ => yields_past (passes_expectMark .rightParen) fun _ =>
      yields_pure (Nat.le_refl _) id

end Reader

open Reader Lexeme

/-! ## Names and tables -/

namespace Grammar

theorem yields_identifier : Yields 1 0 identifier Identifier.cost Identifier.Spelled := by
  intro tokens name rest given
  unfold identifier at given
  split at given
  · next name quote rest =>
      cases given
      exact .one (cost_identifier name quote) fun spelled => spelled _ (by simp)
  · exact (unexpected_fails given).elim

theorem yields_columnRef : Yields 1 0 columnRef ColumnRef.cost ColumnRef.Spelled := by
  refine yields_then yields_identifier fun first =>
    yields_bind (yields_afterMark .period yields_identifier) fun second => ?_
  cases second with
  | none =>
    exact yields_pure (by simp [ColumnRef.cost, ColumnRef.lexemes, Identifier.cost]) fun _ own =>
      ⟨by simp, own⟩
  | some second =>
    exact yields_pure (by simp [ColumnRef.cost, ColumnRef.lexemes, Identifier.cost]) fun behind own =>
      ⟨by simpa using own, behind second rfl⟩

theorem head_of_columnRef {name : String} {quote : Option Char} {tokens rest : List Token}
    {reference : ColumnRef} (given : columnRef (.word name quote :: tokens) = .ok (reference, rest)) :
    reference.head = ⟨name, quote⟩ := by
  obtain ⟨first, behind, taken, given⟩ := of_bind given
  cases taken
  obtain ⟨second, _, _, given⟩ := of_bind given
  cases second <;> cases given <;> rfl

theorem yields_alias :
    Yields 0 0 alias? (optional Identifier.cost) fun found => ∀ name ∈ found, name.Spelled := by
  refine yields_choice (passes_accept "AS")
    (yields_bind yields_identifier fun name => yields_pure (by simp) fun holds => by simpa using holds) ?_
  intro tokens found rest given
  cases tokens with
  | nil =>
    cases given
    exact .nothing (Nat.le_refl 0) (by simp)
  | cons token behind =>
    cases token with
    | word name quote =>
      change (if quote.isSome || !isReserved name then (do
        set behind
        return some ⟨name, quote⟩ : Reader (Option Identifier)) else return none)
          (.word name quote :: behind) = .ok (found, rest) at given
      split at given <;> cases given
      · refine (Taken.one (cost_identifier name quote) fun spelled own same => ?_).optional
        cases same
        exact spelled (.word name quote) (by simp)
      · exact .nothing (Nat.le_refl 0) (by simp)
    | _ =>
      cases given
      exact .nothing (Nat.le_refl 0) (by simp)

theorem yields_version : Yields 0 0 version (fun found => Text.signs found.toList + Token.gap found)
    fun found => ∀ first ∈ found.toList.head?, first = '.' := by
  intro tokens found rest given
  unfold version at given
  split at given
  · split at given <;> cases given
    · next point =>
        exact (Taken.one (by simp [Token.weight]) fun _ => by simp [point]).optional
    · exact .nothing (by simp [Token.gap]) (by simp)
  · have blank : Text.isBlank '.' = false := by decide
    cases given
    exact (Taken.front (.one (by simp [Token.weight, Token.signs, Text.isSign, Token.gap, blank])
      fun _ _ => by simp)).optional
  · cases given
    exact .nothing (by simp [Token.gap]) (by simp)

theorem yields_tableWord : Yields 1 0 tableWord (fun found => Text.signs found.toList + Token.fee found)
    fun found => Token.WordShape found.toList ∧ isReserved found = false := by
  intro tokens found rest given
  unfold tableWord at given
  split at given
  · cases given
  · split at given <;> cases given
    next free =>
      exact .one (by simp [Token.weight]) fun spelled =>
        ⟨spelled (.word found none) (by simp), by simpa using free⟩
  · cases given

theorem yields_tableName : Yields 1 0 tableName TableName.cost TableName.Grammatical := by
  refine yields_then yields_tableWord fun word => yields_bind yields_version fun version =>
    yields_bind yields_alias fun name => yields_pure ?_ fun named point holds =>
      ⟨⟨word.toList, version.toList, by simp, holds.1, by simpa using holds.2, point⟩, named⟩
  have own := cost_tableName word version
  cases name with
  | none =>
    simp only [TableName.cost, TableName.lexemes, Option.map_none, Option.getD_none, costs_cons,
      costs_nil, optional_none]
    omega
  | some name =>
    simp only [TableName.cost, TableName.lexemes, Option.map_some, Option.getD_some, costs_cons,
      costs_nil, cost_space, optional_some, Identifier.cost]
    omega

end Grammar

/-! ## Expressions -/

namespace Expr

/-- The expression has the shape that the grammar builds, at every depth, and binds at least this
tightly. -/
def Built (level : Nat) (whole : Expr) : Prop :=
  Fragment.Everywhere Fragment.Grammatical (.expr whole) ∧ whole.level ≤ level

theorem built_of {whole : Expr} {level : Nat} (grammatical : whole.Grammatical)
    (inside : ∀ part ∈ whole.inside, Fragment.Everywhere Fragment.Grammatical part)
    (fits : whole.level ≤ level) : Built level whole :=
  ⟨Fragment.everywhere_iff.mpr ⟨grammatical, inside⟩, fits⟩

theorem Built.mono {whole : Expr} {level looser : Nat} (built : Built level whole)
    (le : level ≤ looser) : Built looser whole :=
  ⟨built.1, Nat.le_trans built.2 le⟩

/-- An expression without operators that a sign in front of it leaves as it is. -/
def Operand (whole : Expr) : Prop := Built 0 whole ∧ whole.isUnsignedNumber = false

theorem every_listed {list : List Expr} {level : Nat} (built : ∀ expr ∈ list, Built level expr) :
    ∀ part ∈ list.map Fragment.expr, Fragment.Everywhere Fragment.Grammatical part :=
  List.forall_mem_map.mpr fun expr listed => (built expr listed).1

theorem every_behind {tested : Expr} {list : List Expr} {own level : Nat} (first : Built own tested)
    (built : ∀ expr ∈ list, Built level expr) : ∀ part ∈ .expr tested :: list.map Fragment.expr,
      Fragment.Everywhere Fragment.Grammatical part := by
  intro part member
  rcases List.mem_cons.mp member with rfl | listed
  · exact first.1
  · exact every_listed built part listed

theorem every_optional {clause : Option Expr} {level : Nat}
    (built : ∀ expr ∈ clause, Built level expr) :
    ∀ part ∈ clause.toList.map Fragment.expr, Fragment.Everywhere Fragment.Grammatical part :=
  every_listed fun expr member => built expr (Option.mem_toList.mp member)

end Expr

namespace Grammar

open TabularSql.Expr (Built Operand built_of every_listed every_behind every_optional)

/-- What the readers inside brackets give is built and paid for. -/
class YieldsInside (inner : Inner) : Prop where
  expr : Yields 1 0 inner.expr Expr.cost (Built 7)
  query : Yields 1 0 inner.query Query.cost fun whole =>
    Fragment.Everywhere Fragment.Grammatical (.query whole)

variable {inner : Inner}

theorem yields_currentUser : Yields 0 0 (special inner .currentUser) Expr.cost Operand := by
  have free : Expr.currentUser.cost ≤ 0 := by
    simp (disch := decide) [Expr.cost, Expr.lexemes, cost_keyword]
  have user : Operand .currentUser :=
    ⟨built_of trivial (by simp) (Nat.le_refl 0), rfl⟩
  exact yields_choice (passes_acceptMark .leftParen)
    (yields_past (passes_expectMark .rightParen) fun _ => yields_pure free user) (yields_pure free user)

variable [inside : YieldsInside inner]

theorem yields_castTarget :
    Yields 1 0 castTarget (fun target => target.lexeme.cost) CastTarget.Grammatical := by
  intro tokens target rest given
  unfold castTarget at given
  split at given
  · split at given <;> cases given
    exact .one (by simp [CastTarget.lexeme, cost_decimal]) fun _ => trivial
  · next name quote rest =>
      have paid := Token.fee_le_weight name quote
      have upper := Token.fee_upper name
      have signs := Text.signs_upper name.toList
      split at given <;> cases given
      · next type _ =>
          have known : type.name ∈ keywords := by cases type <;> decide
          exact .one (by simp [CastTarget.lexeme, cost_keyword known]) fun _ => trivial
      · next none =>
          refine .one ?_ fun _ => ⟨Text.upper_upper name, ?_⟩
          · simp only [CastTarget.lexeme, cost_word, Text.upper, String.toList_ofList] at upper ⊢
            omega
          · simpa [ColumnType.ofText?, Text.sameWord, Text.upper_upper] using none
  · cases given
  · cases given

theorem yields_cast : Yields 1 0 (cast inner) Expr.cost Operand :=
  yields_parenthesized <| yields_bind inside.expr fun operand => yields_past (passes_expect "AS") fun _ =>
    yields_bind yields_castTarget fun target =>
      yields_pure (by simp (disch := decide) [Expr.cost, Expr.lexemes, cost_keyword]) fun formed built =>
        ⟨built_of ⟨built.2, formed⟩ (by simpa using built.1) (Nat.le_refl 0), rfl⟩

theorem yields_whenBranch : Yields 1 0 (whenBranch inner) (fun branch => branch.1.cost + branch.2.cost)
      fun branch => Built 7 branch.1 ∧ Built 7 branch.2 :=
  yields_then inside.expr fun _ => yields_past (passes_expect "THEN") fun _ =>
    yields_bind inside.expr fun _ => yields_pure (Nat.le_refl _) fun result condition => ⟨condition, result⟩

theorem yields_caseWhen : Yields 1 0 (caseWhen inner) Expr.cost Operand := by
  have behind (operand : Option Expr) : Yields 1 (0 + optional Expr.cost operand) (do
      let branches ← many (after "WHEN" (whenBranch inner))
      if branches.isEmpty then unexpected "WHEN"
      let otherwise ← after "ELSE" inner.expr
      expect "END"
      return Expr.caseWhen operand branches otherwise) Expr.cost
        fun found => (∀ expr ∈ operand, Built 7 expr) → Operand found := by
    refine yields_bind (yields_many (yields_after "WHEN" yields_whenBranch)) fun branches => ?_
    split
    · exact yields_abandoned
    next some =>
      refine yields_bind (yields_after "ELSE" inside.expr) fun otherwise =>
        yields_behind (passes_expect "END") fun _ => yields_pure ?_ fun last built first => ?_
      · simp (disch := decide) [Expr.cost, Expr.lexemes, cost_keyword, costs_behind, costs_after,
          costs_branches, Nat.add_assoc]
      refine ⟨built_of ⟨fun expr given => (first expr given).2, by simpa using some,
        fun branch member => ⟨(built branch member).1.2, (built branch member).2.2⟩,
        fun expr given => (last expr given).2⟩ ?_ (Nat.le_refl 0), rfl⟩
      intro part member
      simp only [Expr.inside, List.mem_append] at member
      rcases member with (inOperand | inBranch) | inOtherwise
      · exact every_optional first part inOperand
      · obtain ⟨branch, listed, own⟩ := List.mem_flatMap.mp inBranch
        simp only [List.mem_cons, List.not_mem_nil, or_false] at own
        rcases own with rfl | rfl
        · exact (built branch listed).1.1
        · exact (built branch listed).2.1
      · exact every_optional last part inOtherwise
  have absent : Yields 0 0 (pure none) (optional Expr.cost) fun operand =>
      ∀ expr ∈ operand, Built 7 expr :=
    yields_pure (Nat.le_refl 0) (by simp)
  have present : Yields 0 0 (some <$> inner.expr) (optional Expr.cost) fun operand =>
      ∀ expr ∈ operand, Built 7 expr := by
    rw [map_eq_pure_bind]
    exact yields_bind inside.expr fun expr => yields_pure (by simp) fun built => by simpa using built
  exact yields_choice (passes_isNext "WHEN") (yields_bind absent behind) (yields_bind present behind)

theorem yields_arguments (name : String) :
    Yields 0 (word name).cost (arguments inner name) Expr.cost fun found =>
      Token.IsPlainWord name → opening name true = .call name → Operand found := by
  have star : Expr.wildcard.cost = 0 := rfl
  have starred : Fragment.Everywhere Fragment.Grammatical (.expr .wildcard) :=
    Fragment.everywhere_iff.mpr ⟨trivial, by simp [Fragment.inside]⟩
  refine yields_choice (passes_acceptMark .rightParen) (yields_pure (by simp [cost_call])
    fun plain opens => ⟨built_of ⟨plain, opens, .inr ⟨by simp, by simp⟩⟩ (by simp)
      (Nat.le_refl 0), rfl⟩) ?_
  refine yields_choice (passes_acceptMark .star) (yields_past (passes_expectMark .rightParen) fun _ =>
    yields_pure (by simp [cost_call, star]) fun plain opens => ⟨built_of ⟨plain, opens, .inl ⟨rfl, rfl⟩⟩
      (by simpa using starred) (Nat.le_refl 0), rfl⟩) ?_
  refine yields_past (passes_accept "DISTINCT") fun distinct =>
    yields_bind (yields_separated inside.expr) fun list => yields_past (passes_expectMark .rightParen)
    fun _ => yields_pure (by simp [cost_call]) fun listed plain opens => ?_
  exact ⟨built_of ⟨plain, opens, .inr ⟨fun expr member => (listed.2 expr member).2,
    fun _ => listed.1⟩⟩ (every_listed listed.2) (Nat.le_refl 0), rfl⟩

/-- What is known of a word and whether it is called, from what it stands for. -/
def Opening.Fits (word : String) (called : Bool) : Opening → Prop
  | .literal value => Operand (.literal value) ∧ (Expr.literal value).cost = 0
  | .call name => called = true ∧ name = Text.upper word
  | .column => called = false
  | _ => True

theorem opening_fits (word : String) (called : Bool) :
    (opening word called).Fits word called := by
  have skip {test : Prop} [Decidable test] {special other : Opening}
      (first : special.Fits word called) (second : other.Fits word called) :
      (if test then special else other).Fits word called := by
    split
    · exact first
    · exact second
  have plain {value : Literal} {name : String} (grammatical : (Expr.literal value).Grammatical)
      (sign : (Expr.literal value).isUnsignedNumber = false) (same : value.lexeme = Lexeme.word name)
      (known : name ∈ keywords) : (Opening.literal value).Fits word called :=
    ⟨⟨built_of grammatical (by simp) (Nat.le_refl 0), sign⟩,
      by simp [Expr.cost, Expr.lexemes, same, cost_keyword known]⟩
  unfold opening
  refine skip (plain trivial rfl (show _ = Lexeme.word "NULL" from rfl) (by decide)) ?_
  refine skip (plain trivial rfl (show _ = Lexeme.word "TRUE" from rfl) (by decide)) ?_
  refine skip (plain trivial rfl (show _ = Lexeme.word "FALSE" from rfl) (by decide)) ?_
  iterate 9 refine skip trivial ?_
  cases called with
  | true => exact ⟨rfl, rfl⟩
  | false => exact rfl

theorem opening_upper (word : String) (called : Bool) :
    opening (Text.upper word) called = opening word called := by
  have reserved : isReserved (Text.upper word) = isReserved word := by
    simp only [isReserved, Text.listed, Text.sameWord, Text.upper_upper]
  unfold opening
  rw [Text.upper_upper, reserved]

theorem yields_matchAgainst : Yields 0 0 (special inner .matchAgainst) Expr.cost Operand :=
  yields_past (passes_of_moves (moves (discard (parenthesized identifier)))) fun _ =>
    yields_past (passes_expect "AGAINST") fun _ =>
    yields_bind (yields_parenthesized inside.expr) fun text =>
      yields_pure (by simp (disch := decide) [Expr.cost, Expr.lexemes, cost_keyword]) fun built =>
        ⟨built_of built.2 (by simpa using built.1) (Nat.le_refl 0), rfl⟩

/-- The word that opens an expression pays for the name of a call. -/
theorem yields_special (word : String) (called : Bool) :
    Yields 0 (Token.word word none).weight (special inner (opening word called)) Expr.cost
      fun found => (Token.word word none).Spelled → Operand found := by
  have fits := opening_fits word called
  cases opened : opening word called with
  | literal value =>
    rw [opened] at fits
    exact yields_pure (Nat.le_trans (Nat.le_of_eq fits.2) (Nat.zero_le _)) fun _ => fits.1
  | caseWhen => exact yields_caseWhen.mono fun _ own _ => own
  | currentUser => exact yields_currentUser.mono fun _ own _ => own
  | cast => exact yields_cast.mono fun _ own _ => own
  | doubleTest test =>
    have known : test.text ∈ keywords := by cases test <;> decide
    exact yields_bind (yields_parenthesized yields_columnRef) fun reference =>
      yields_pure (by simp [Expr.cost, Expr.lexemes, cost_keyword known, ColumnRef.cost])
        fun spelled _ => ⟨built_of spelled (by simp) (Nat.le_refl 0), rfl⟩
  | unnest =>
    exact yields_bind (yields_parenthesized yields_columnRef) fun reference =>
      yields_pure (by simp (disch := decide) [Expr.cost, Expr.lexemes, cost_keyword, ColumnRef.cost])
        fun spelled _ => ⟨built_of spelled (by simp) (Nat.le_refl 0), rfl⟩
  | textMatches =>
    exact yields_bind (yields_parenthesized inside.expr) fun text =>
      yields_pure (by simp (disch := decide) [Expr.cost, Expr.lexemes, cost_keyword])
        fun built _ =>
          ⟨built_of built.2 (by simpa using built.1) (Nat.le_refl 0), rfl⟩
  | matchAgainst => exact yields_matchAgainst.mono fun _ own _ => own
  | call name =>
    rw [opened] at fits
    obtain ⟨rfl, rfl⟩ := fits
    have again : opening (Text.upper word) true = .call (Text.upper word) := by
      rw [opening_upper, opened]
    have upper : (Lexeme.word (Text.upper word)).cost ≤ (Token.word word none).weight := by
      have fees := Token.fee_upper word
      have signs := Text.signs_upper word.toList
      simp only [cost_word, Token.weight, Text.upper, String.toList_ofList] at fees ⊢
      omega
    refine yields_past (passes_expectMark .leftParen) fun _ tokens value rest given => ?_
    exact (yields_arguments (Text.upper word) tokens value rest given).mono (Nat.le_refl 0) upper
      fun own plain => own (Token.isPlainWord_iff.mpr (Token.upper_word plain)) again
  | reserved => exact yields_unexpected
  | column => exact yields_unexpected

theorem taken_column {name : String} {quote : Option Char} {tokens rest : List Token} {found : Expr}
    (opens : quote = none → opening name false = .column)
    (given : (Expr.column <$> columnRef) (.word name quote :: tokens) = .ok (found, rest)) :
    Taken 1 0 (.word name quote :: tokens) rest found.cost (Operand found) := by
  rw [map_eq_pure_bind] at given
  obtain ⟨reference, _, taken, same⟩ := of_bind given
  cases same
  have head := head_of_columnRef taken
  have own := yields_columnRef _ reference rest taken
  have cost : (Expr.column reference).cost = reference.cost := by
    simp [Expr.cost, Expr.lexemes, ColumnRef.cost]
  rw [cost]
  exact own.mono (Nat.le_refl 1) (Nat.le_refl 0) fun spelled =>
    ⟨built_of ⟨spelled, by simpa only [head] using opens⟩ (by simp) (Nat.le_refl 0), rfl⟩

theorem taken_wordExpr {word : String} {tokens rest : List Token} {found : Expr}
    (given : wordExpr inner word tokens = .ok (found, rest)) :
    Taken 1 0 (.word word none :: tokens) rest found.cost (Operand found) := by
  have fits := opening_fits word (tokens.head? = some (.mark .leftParen))
  have behind := @yields_special inner inside word (tokens.head? = some (.mark .leftParen)) tokens found rest
  simp only [wordExpr] at given
  split at given
  · next opened =>
      rw [opened] at fits
      refine taken_column (fun _ => ?_) given
      rw [← opened, fits]
  · exact (unexpected_fails given).elim
  · exact (behind given).front

/-- Only a number token gives a number without a sign. -/
theorem taken_primary {tokens rest : List Token} {found : Expr}
    (given : primary inner tokens = .ok (found, rest)) :
    Taken 1 0 tokens rest found.cost (Built 0 found ∧
      (found.isUnsignedNumber = true → tokens.head?.any Token.isNumber = true)) := by
  have literal {value : Literal} (grammatical : value.Grammatical) : Built 0 (.literal value) :=
    built_of grammatical (by simp) (Nat.le_refl 0)
  have cost (value : Literal) : (Expr.literal value).cost = value.lexeme.cost := by
    simp [Expr.cost, Expr.lexemes]
  have operand {found : Expr} (own : Operand found) : Built 0 found ∧
      (found.isUnsignedNumber = true → tokens.head?.any Token.isNumber = true) :=
    ⟨own.1, by simp [own.2]⟩
  unfold primary at given
  split at given
  · next digits long behind =>
      cases given
      refine .one (by simp [cost, Literal.lexeme, cost_number, Token.weight]) fun spelled => ?_
      have shape : Token.NumeralShape digits.toList := spelled (.number digits long) (by simp)
      exact ⟨literal (.inl shape), fun _ => rfl⟩
  · next digits long behind =>
      cases given
      refine .front (.one ?_ fun spelled _ => ⟨literal (.inr ⟨digits.toList, by simp, ?_⟩), ?_⟩)
      · simp [cost, Literal.lexeme, cost_number, Token.weight, Token.signs, Text.isSign, Mark.text]
      · exact spelled (.number digits long) (by simp)
      · simp [Expr.isUnsignedNumber]
  · cases given
    exact .one (by simp [cost, Literal.lexeme, cost_string, Token.weight, Token.signs])
      fun _ => operand ⟨literal trivial, rfl⟩
  · unfold parameter at given
    split at given <;> cases given
    next name quote =>
      have paid := Token.fee_le_weight name quote
      refine .front (.one ?_ fun _ _ =>
        operand ⟨built_of trivial (by simp) (Nat.le_refl 0), rfl⟩)
      simp [Expr.cost, Expr.lexemes, cost_placeholder]
      omega
  · next behind =>
      have bracketed : Yields 0 0 (do
          let expr ← inner.expr
          expectMark .rightParen
          return Expr.nested expr) Expr.cost Operand :=
        yields_bind inside.expr fun expr => yields_past (passes_expectMark .rightParen) fun _ =>
          yields_pure (by simp [Expr.cost, Expr.lexemes]) fun built =>
            ⟨built_of built.2 (by simpa using built.1) (Nat.le_refl 0), rfl⟩
      exact .front ((bracketed behind found rest given).mono (Nat.le_refl 0) (Nat.zero_le _)
        fun own _ => operand own)
  · exact (taken_wordExpr given).mono (Nat.le_refl 1) (Nat.le_refl 0) operand
  · exact (taken_column (fun plain => by cases plain) given).mono (Nat.le_refl 1) (Nat.le_refl 0) operand
  · exact (unexpected_fails given).elim

/-- A minus directly in front of a number is no sign. -/
theorem apart_of_sign {tokens rest : List Token} {found : Option UnaryOperator}
    (given : sign tokens = .ok (found, rest)) : (found = none → rest = tokens) ∧
      (found = some .negate → rest.head?.any Token.isNumber = false) := by
  unfold sign at given
  split at given <;> cases given
  · exact ⟨fun _ => rfl, by simp⟩
  · next notNumber =>
      refine ⟨by simp, fun _ => ?_⟩
      cases rest with
      | nil => rfl
      | cons token rest =>
        cases token with
        | number digits long => exact (notNumber digits long rest rfl).elim
        | _ => rfl
  · exact ⟨by simp, by simp⟩
  · exact ⟨fun _ => rfl, by simp⟩

theorem apart_of_signs (bound : Nat) {tokens left : List Token} {signs : List UnaryOperator}
    (given : atMost sign bound tokens = .ok (signs, left)) : (signs = [] → left = tokens) ∧
      (signs.getLast? = some .negate → left.head?.any Token.isNumber = false) := by
  induction bound generalizing tokens signs with
  | zero =>
    cases given
    exact ⟨fun _ => rfl, nofun⟩
  | succ bound ih =>
    obtain ⟨found, rest, taken, behind⟩ := of_bind given
    obtain ⟨unchanged, apart⟩ := apart_of_sign taken
    cases found with
    | none =>
      cases behind
      exact ⟨fun _ => unchanged rfl, nofun⟩
    | some first =>
      obtain ⟨others, _, read, same⟩ := of_bind behind
      cases same
      obtain ⟨last, negated⟩ := ih read
      refine ⟨nofun, fun negate => ?_⟩
      cases others with
      | nil =>
        rw [last rfl]
        exact apart (by simpa using negate)
      | cons second others => exact negated (by simpa using negate)

theorem yields_sign :
    Yields 0 0 sign (optional UnaryOperator.cost) fun found => ∀ operator ∈ found, operator ≠ .not := by
  intro tokens found rest given
  unfold sign at given
  split at given <;> cases given
  · exact .nothing (Nat.le_refl 0) (by simp)
  · exact (Taken.one (by simp [UnaryOperator.cost, UnaryOperator.lexemes, Token.weight, Token.signs,
      Text.isSign, Mark.text]) (by simp)).optional
  · exact (Taken.one (by simp [UnaryOperator.cost, UnaryOperator.lexemes]) (by simp)).optional
  · exact .nothing (Nat.le_refl 0) (by simp)

theorem built_signs {operand : Expr} (built : Built 0 operand) (signs : List UnaryOperator)
    (known : ∀ sign ∈ signs, sign ≠ .not)
    (last : signs.getLast? = some .negate → operand.isUnsignedNumber = false) :
    Built 1 (signs.foldr Expr.unary operand) := by
  induction signs with
  | nil => exact built.mono (Nat.zero_le 1)
  | cons sign signs ih =>
    have behind : Built 1 (signs.foldr Expr.unary operand) := by
      refine ih (fun other member => known other (by simp [member])) fun negate => last ?_
      cases signs with
      | nil => cases negate
      | cons => simpa using negate
    have unsigned : sign = .negate →
        (signs.foldr Expr.unary operand).isUnsignedNumber = false := by
      rintro rfl
      cases signs with
      | nil => exact last rfl
      | cons => rfl
    cases sign with
    | not => exact absurd rfl (known .not (by simp))
    | negate =>
      exact built_of ⟨behind.2, unsigned rfl⟩ (by simpa using behind.1)
        (Nat.le_refl 1)
    | plus => exact built_of behind.2 (by simpa using behind.1) (Nat.le_refl 1)

theorem yields_signed : Yields 1 0 (signed inner) Expr.cost (Built 1) := by
  intro tokens found left given
  obtain ⟨signs, rest, taken, behind⟩ := of_bind given
  obtain ⟨operand, _, read, same⟩ := of_bind behind
  cases same
  obtain ⟨_, apart⟩ := apart_of_signs tokens.length taken
  obtain ⟨suffix, shorter, paid, known⟩ := yields_many yields_sign tokens signs rest taken
  obtain ⟨last, progress, enough, built⟩ := taken_primary read
  refine ⟨last.trans suffix, by omega, ?_, fun spelled => ?_⟩
  · rw [cost_signs]
    omega
  · obtain ⟨own, unsigned⟩ := built (spelled.suffix suffix)
    refine built_signs own signs (known spelled) fun negate => Bool.eq_false_iff.mpr fun plain => ?_
    have head := unsigned plain
    rw [apart negate] at head
    cases head

/-- The operator joins the operands of a chain at this level. -/
def Joins (level : Nat) (operator : BinaryOperator) : Prop :=
  operator.level = level ∧ operator.isComparison = false

instance decidableJoins (level : Nat) (operator : BinaryOperator) : Decidable (Joins level operator) :=
  inferInstanceAs (Decidable (_ ∧ _))

theorem built_chain {level : Nat} {first : Expr} (start : Built (level + 1) first)
    (links : List (BinaryOperator × Expr))
    (each : ∀ link ∈ links, Joins (level + 1) link.1 ∧ Built level link.2) :
    Built (level + 1)
      (links.foldl (fun left (operator, right) => .binary operator left right) first) := by
  induction links generalizing first with
  | nil => exact start
  | cons link links ih =>
    obtain ⟨⟨own, apart⟩, right⟩ := each link (by simp)
    refine ih ?_ fun other member => each other (by simp [member])
    refine built_of ⟨?_, ?_⟩ ?_ (Nat.le_of_eq own)
    · simpa [BinaryOperator.leftLevel, apart, own] using start.2
    · rw [own]
      exact Nat.lt_succ_of_le right.2
    · simpa using ⟨start.1, right.1⟩

theorem yields_chain {operator : Reader (Option BinaryOperator)} {operand : Reader Expr} {level : Nat}
    (binds : Yields 0 0 operator (optional BinaryOperator.cost)
      fun found => ∀ own ∈ found, Joins (level + 1) own)
    (own : Yields 1 0 operand Expr.cost (Built level)) :
    Yields 1 0 (chain operator operand) Expr.cost (Built (level + 1)) := by
  refine yields_then own fun first => yields_bind (yields_many (show Yields 0 0 _
    (optional fun link : BinaryOperator × Expr => link.1.cost + link.2.cost)
    (fun found => ∀ link ∈ found, Joins (level + 1) link.1 ∧ Built level link.2) from ?_)) fun links =>
      yields_pure (by simp [cost_links]) fun each built =>
        built_chain (built.mono (Nat.le_succ level)) links each
  refine yields_bind binds fun found => ?_
  cases found with
  | none => exact yields_pure (Nat.zero_le _) (by simp)
  | some mark =>
    exact yields_bind own fun right => yields_pure (by simp) fun built known => by
      simpa using ⟨known mark rfl, built⟩

theorem yields_productOperator : Yields 0 0 productOperator (optional BinaryOperator.cost)
    fun found => ∀ own ∈ found, Joins 2 own := by
  intro tokens found rest given
  unfold productOperator at given
  split at given
  iterate 3
    cases given
    exact (Taken.one (by simp [cost_operator]) fun _ => by decide).optional
  have words : Yields 0 0 (do
      if ← accept "DIV" then return some BinaryOperator.wholeDivide
      if ← accept "MOD" then return some BinaryOperator.remainder
      return none) (optional BinaryOperator.cost) fun found => ∀ own ∈ found, Joins 2 own :=
    yields_choice (passes_accept "DIV") (yields_pure (by simp [cost_operator]) (by decide)) <|
    yields_choice (passes_accept "MOD") (yields_pure (by simp [cost_operator]) (by decide))
      (yields_pure (Nat.le_refl 0) (by simp))
  exact words tokens found rest given

theorem yields_sumOperator : Yields 0 0 sumOperator (optional BinaryOperator.cost)
    fun found => ∀ own ∈ found, Joins 3 own := by
  intro tokens found rest given
  unfold sumOperator at given
  split at given <;> cases given
  · exact (Taken.one (by simp [cost_operator]) fun _ => by decide).optional
  · exact (Taken.one (by simp [cost_operator, Token.weight, Token.signs, Text.isSign, Mark.text])
      fun _ => by decide).optional
  · exact .nothing (Nat.le_refl 0) (by simp)

theorem yields_product : Yields 1 0 (product inner) Expr.cost (Built 2) :=
  yields_chain yields_productOperator yields_signed

theorem yields_sum : Yields 1 0 (sum inner) Expr.cost (Built 3) :=
  yields_chain yields_sumOperator yields_product

theorem yields_comparison : Yields 0 0 comparison (optional BinaryOperator.cost)
    fun found => ∀ own ∈ found, own.isComparison = true := by
  intro tokens found rest given
  unfold comparison at given
  split at given <;> cases given
  iterate 7
    exact (Taken.one (by simp [cost_operator]) (by simp [BinaryOperator.isComparison])).optional
  exact .nothing (Nat.le_refl 0) (by simp)

/-- The reader continues behind a sum: it gives a test of the sum, or the sum itself. -/
abbrev Tests (tested : Expr) (read : Reader Expr) : Prop :=
  Yields 0 tested.cost read Expr.cost fun found => Built 3 tested → Built 4 found

theorem yields_isTest (tested : Expr) : Tests tested (isTest tested) := by
  have isNull (negated : Bool) : (Expr.isNull tested negated).cost ≤ tested.cost := by
    cases negated <;> simp (disch := decide) [Expr.cost, Expr.lexemes, notWords]
  have isTruth (truth negated : Bool) : (Expr.isTruth tested truth negated).cost ≤ tested.cost := by
    cases truth <;> cases negated <;> simp (disch := decide) [Expr.cost, Expr.lexemes, notWords]
  have null (negated : Bool) (built : Built 3 tested) : Built 4 (.isNull tested negated) :=
    built_of built.2 (by simpa using built.1) (Nat.le_refl 4)
  have truth (truth negated : Bool) (built : Built 3 tested) : Built 4 (.isTruth tested truth negated) :=
    built_of built.2 (by simpa using built.1) (Nat.le_refl 4)
  exact yields_past (passes_accept "NOT") fun negated =>
    yields_choice (passes_accept "NULL") (yields_pure (isNull negated) (null negated)) <|
    yields_choice (passes_accept "TRUE") (yields_pure (isTruth true negated) (truth true negated)) <|
    yields_choice (passes_accept "FALSE") (yields_pure (isTruth false negated) (truth false negated))
      yields_unexpected

theorem yields_membership (tested : Expr) (negated : Bool) :
    Yields 1 tested.cost (membership inner tested negated) Expr.cost
      fun found => Built 3 tested → Built 4 found := by
  have words : costs (phrase (notWords negated ++ ["IN"])) = 0 :=
    costs_phrase (notWords_known (by decide))
  have queried : Tests tested (do return Expr.inQuery tested (← inner.query) negated) :=
    yields_bind inside.query fun candidates =>
      yields_pure (by simp [Expr.cost, Expr.lexemes, words, Query.cost]) fun own built =>
        built_of built.2 (by simpa using ⟨built.1, own⟩) (Nat.le_refl 4)
  have listed : Tests tested (do return Expr.inList tested (← separated inner.expr) negated) :=
    yields_bind (yields_separated inside.expr) fun candidates =>
      yields_pure (by simp [Expr.cost, Expr.lexemes, words, @costs_list comma rfl]) fun own built =>
        built_of ⟨built.2, own.1, fun candidate member => (own.2 candidate member).2⟩
          (every_behind built own.2) (Nat.le_refl 4)
  exact yields_parenthesized (yields_past (passes_isNext "SELECT") fun _ =>
    yields_past (passes_isNext "WITH") fun _ => yields_ite queried listed)

theorem yields_has (tested : Expr) (pattern negated : Bool) : Tests tested (do
    return Expr.has tested (← parenthesized (separated inner.expr)) pattern negated) := by
  have words : costs (phrase (notWords negated ++ [if pattern then "HAS_LIKE" else "HAS"])) = 0 :=
    costs_phrase (notWords_known (by cases pattern <;> decide))
  exact yields_bind (yields_parenthesized (yields_separated inside.expr)) fun values =>
    yields_pure (by simp [Expr.cost, Expr.lexemes, words, @costs_list comma rfl]) fun own built =>
      built_of ⟨built.2, own.1, fun value member => (own.2 value member).2⟩ (every_behind built own.2)
        (Nat.le_refl 4)

theorem yields_like (tested : Expr) (negated : Bool) : Tests tested (do
    let pattern ← sum inner
    return Expr.like tested pattern (← after "ESCAPE" (sum inner)) negated) := by
  have words : costs (phrase (notWords negated ++ ["LIKE"])) = 0 :=
    costs_phrase (notWords_known (by decide))
  refine yields_bind yields_sum fun pattern =>
    yields_bind (yields_after "ESCAPE" yields_sum) fun escape => yields_pure
      (by simp (disch := decide) [Expr.cost, Expr.lexemes, words, costs_after, Nat.add_assoc])
      fun last own built => ?_
  refine built_of ⟨built.2, own.2, fun expr given => (last expr given).2⟩ ?_ (Nat.le_refl 4)
  intro part member
  rcases List.mem_cons.mp member with rfl | behind
  · exact built.1
  · exact every_behind own (fun expr given => last expr (Option.mem_toList.mp given)) part behind

theorem yields_between (tested : Expr) (negated : Bool) : Tests tested (do
    let low ← sum inner
    expect "AND"
    return Expr.between tested low (← sum inner) negated) := by
  have words : costs (phrase (notWords negated ++ ["BETWEEN"])) = 0 :=
    costs_phrase (notWords_known (by decide))
  exact yields_bind yields_sum fun low => yields_past (passes_expect "AND") fun _ =>
    yields_bind yields_sum fun high => yields_pure
      (by simp (disch := decide) [Expr.cost, Expr.lexemes, words, Nat.add_assoc])
      fun second first built => built_of ⟨built.2, first.2, second.2⟩
        (by simpa using ⟨built.1, first.1, second.1⟩) (Nat.le_refl 4)

theorem built_comparison {operator : BinaryOperator} {left right : Expr}
    (compares : operator.isComparison = true) (first : Built 3 left) (second : Built 3 right) :
    Built 4 (.binary operator left right) := by
  have level : operator.level = 4 := by
    cases operator <;> first | rfl | cases compares
  refine built_of ⟨?_, ?_⟩ (by simpa using ⟨first.1, second.1⟩) (Nat.le_of_eq level)
  · simpa [BinaryOperator.leftLevel, compares] using first.2
  · rw [level]
    exact Nat.lt_succ_of_le second.2

theorem yields_predicate : Yields 1 0 (predicate inner) Expr.cost (Built 4) := by
  refine yields_then yields_sum fun tested => yields_bind yields_comparison fun operator => ?_
  cases operator with
  | some operator =>
    exact yields_bind yields_sum fun right =>
      yields_pure (by simp [Expr.cost, Expr.lexemes, BinaryOperator.cost, Nat.add_assoc])
        fun other compares built => built_comparison (compares operator rfl) built other
  | none =>
    refine Yields.imp ?_ fun _ own _ => own
    refine yields_choice (passes_accept "IS") (yields_isTest tested) ?_
    exact yields_past (passes_of_moves (moves acceptNot)) fun negated =>
      yields_choice (passes_accept "BETWEEN") (yields_between tested negated) <|
      yields_choice (passes_accept "IN") (yields_membership tested negated).optional <|
      yields_choice (passes_accept "LIKE") (yields_like tested negated) <|
      yields_choice (passes_accept "HAS") (yields_has tested false negated) <|
      yields_choice (passes_accept "HAS_LIKE") (yields_has tested true negated)
        (yields_pure (Nat.le_refl _) fun built => built.mono (Nat.le_succ 3))

theorem yields_negation : Yields 1 0 (negation inner) Expr.cost (Built 5) := by
  have nothing : Passes 0 (pure ()) := yields_pure (Nat.le_refl 0) trivial
  refine yields_past (yields_many (yields_after "NOT" nothing)).passes fun negations =>
    yields_then yields_predicate fun operand => yields_pure ?_ fun built => ?_
  · induction negations with
    | nil => exact Nat.le_refl _
    | cons _ negations ih =>
      simp (disch := decide) [Expr.cost, Expr.lexemes, Expr.negation, UnaryOperator.lexemes,
        cost_keyword] at ih ⊢
      exact ih
  · induction negations with
    | nil => exact built.mono (Nat.le_succ 4)
    | cons _ negations ih =>
      exact built_of ih.2 (by simpa [Expr.negation] using ih.1) (Nat.le_refl 5)

theorem yields_conjunction : Yields 1 0 (conjunction inner) Expr.cost (Built 6) := by
  have conjoined : Yields 0 0 (pure BinaryOperator.and) BinaryOperator.cost (Joins 6) :=
    yields_pure (Nat.le_of_eq (cost_operator .and)) ⟨rfl, rfl⟩
  exact yields_chain (yields_after "AND" conjoined) yields_negation

theorem yields_expr : Yields 1 0 (expr inner) Expr.cost (Built 7) := by
  have disjoined : Yields 0 0 (pure BinaryOperator.or) BinaryOperator.cost (Joins 7) :=
    yields_pure (Nat.le_of_eq (cost_operator .or)) ⟨rfl, rfl⟩
  exact yields_chain (yields_after "OR" disjoined) yields_conjunction

/-! ## Selects and queries -/

theorem yields_selectItem : Yields 1 0 (selectItem inner) SelectItem.cost fun item =>
      Built 7 item.expr ∧ ∀ name ∈ item.alias?, name.Spelled := by
  refine yields_then yields_expr fun expr => yields_bind yields_alias fun name =>
    yields_pure ?_ fun named built => ⟨built, named⟩
  cases name with
  | none => simp [SelectItem.cost, SelectItem.lexemes, Expr.cost]
  | some name =>
    simp (disch := decide) [SelectItem.cost, SelectItem.lexemes, Expr.cost, Identifier.cost]

theorem yields_projection :
    Yields 1 0 (projection inner) (fun projection => costs projection.lexemes) fun projection =>
      projection.Grammatical ∧ ∀ item ∈ projection.itemList, Built 7 item.expr := by
  refine (takes_acceptMark .star).choice
    (yields_pure (by simp [Projection.lexemes]) ⟨trivial, by simp [Projection.itemList]⟩)
    (yields_then (yields_separated yields_selectItem) fun items => yields_pure ?_ fun listed =>
      ⟨⟨listed.1, fun item member => (listed.2 item member).2⟩,
        fun item member => (listed.2 item member).1⟩)
  rw [Projection.lexemes, SelectItem.lexeme_lists_eq_map, costs_join rfl, total_map]
  exact Nat.le_refl _

theorem yields_joined : Yields 0 0 (joined inner) (optional joinedCost) fun found =>
      ∀ join ∈ found, join.2.1.Grammatical ∧ Built 7 join.2.2 := by
  refine yields_past (passes_of_moves (moves joinKind)) fun kind => ?_
  cases kind with
  | none => exact yields_pure (Nat.zero_le _) (by simp)
  | some kind =>
    exact yields_bind yields_tableName fun right => yields_past (passes_expect "ON") fun _ =>
      yields_bind yields_expr fun condition => yields_pure (by simp [joinedCost])
        fun own table => by simpa using ⟨table, own⟩

theorem yields_source : Yields 1 0 (source inner) Source.cost fun source =>
    (∀ table ∈ source.tables, table.Grammatical) ∧
      ∀ condition ∈ source.conditions, Built 7 condition := by
  refine yields_then yields_tableName fun first => yields_bind (yields_many yields_joined)
    fun joins => yields_pure ?_ fun each named => ?_
  · rw [cost_joins]
    simp [Source.cost, Source.lexemes, TableName.cost]
  have start : (∀ table ∈ (Source.table first).tables, table.Grammatical) ∧
      ∀ condition ∈ (Source.table first).conditions, Built 7 condition :=
    ⟨by simpa [Source.tables] using named, by simp [Source.conditions]⟩
  -- The source grows to the right, so the induction is over any source read so far.
  generalize Source.table first = left at start
  induction joins generalizing left with
  | nil => exact start
  | cons join joins ih =>
    obtain ⟨table, condition⟩ := each join (by simp)
    refine ih (fun other member => each other (by simp [member])) _ ⟨?_, ?_⟩
    · intro own member
      simp only [Source.tables, List.mem_append, List.mem_singleton] at member
      rcases member with before | rfl
      · exact start.1 own before
      · exact table
    · intro own member
      simp only [Source.conditions, List.mem_append, List.mem_singleton] at member
      rcases member with before | rfl
      · exact start.2 own before
      · exact condition

theorem yields_sortKey : Yields 1 0 (sortKey inner) SortKey.cost fun key => Built 7 key.expr := by
  have keyed (expr : Expr) (direction : Option SortDirection) :
      SortKey.cost ⟨expr, direction⟩ ≤ expr.cost := by
    cases direction with
    | none => simp [SortKey.cost, SortKey.lexemes, Expr.cost]
    | some direction =>
      have known : direction.text ∈ keywords := by cases direction <;> decide
      have free : costs (phrase [direction.text]) = 0 := costs_phrase (by simpa using known)
      simp [SortKey.cost, SortKey.lexemes, Expr.cost, free]
  exact yields_then yields_expr fun expr =>
    yields_choice (passes_accept "ASC") (yields_pure (keyed expr _) id) <|
    yields_choice (passes_accept "DESC") (yields_pure (keyed expr _) id) (yields_pure (keyed expr _) id)

theorem yields_page : Yields 1 0 (page inner) (fun page => costs (Page.lexemesAfter (some page)))
      fun page => ∀ expr ∈ page.exprs, Built 3 expr := by
  refine yields_then yields_sum fun limit =>
    yields_bind (yields_after "OFFSET" yields_sum) fun offset => yields_pure
      (by simp (disch := decide) [Page.lexemesAfter, costs_after, Expr.cost])
      fun behind first expr member => ?_
  rcases List.mem_cons.mp member with rfl | listed
  · exact first
  · exact behind expr (Option.mem_toList.mp listed)

theorem built_select {select : Select} (projection : select.projection.Grammatical)
    (tables : ∀ table ∈ select.source.tables, table.Grammatical)
    (exprs : ∀ expr ∈ select.exprs, Built 7 expr)
    (window : ∀ page ∈ select.page, ∀ expr ∈ page.exprs, Built 3 expr) :
    Fragment.Everywhere Fragment.Grammatical (.select select) := by
  refine Fragment.everywhere_select.mpr ⟨⟨projection, tables, ?_, ?_⟩, ?_⟩
  · exact fun expr member => (exprs expr member).2
  · exact fun page given expr member => (window page given expr member).2
  · exact fun expr member => (exprs expr member).1

theorem yields_select : Yields 1 0 (select inner) Select.cost fun select =>
    Fragment.Everywhere Fragment.Grammatical (.select select) := by
  refine yields_behind (passes_expect "SELECT") fun _ =>
    yields_past (passes_of_moves (moves Grammar.distinct)) fun distinct =>
    yields_bind yields_projection fun projection => yields_past (passes_expect "FROM") fun _ =>
    yields_bind yields_source fun source => ?_
  refine yields_bind (yields_after "DEFINING_WHERE" yields_expr) fun definingFilter =>
    yields_bind (yields_after "WHERE" yields_expr) fun filter =>
    yields_bind (yields_afterAll ["GROUP", "BY"] (yields_separated yields_expr)) fun groupBy =>
    yields_bind (yields_afterAll ["ORDER", "BY"] (yields_separated yields_sortKey)) fun orderBy =>
    yields_bind (yields_after "LIMIT" yields_page) fun page => yields_pure ?_
      fun window keys groups filters defines joins items => ?_
  · have groups := costs_clause (show ∀ name ∈ ["GROUP", "BY"], name ∈ keywords by decide)
      Expr.lexemes Expr.cost (fun _ => rfl) groupBy
    have keys := costs_clause (show ∀ name ∈ ["ORDER", "BY"], name ∈ keywords by decide)
      SortKey.lexemes SortKey.cost (fun _ => rfl) orderBy
    have window : costs (Page.lexemesAfter page) =
        optional (fun page => costs (Page.lexemesAfter (some page))) page := by
      cases page <;> rfl
    have marker : costs (if distinct = true then [word "DISTINCT", space] else []) = 0 := by
      cases distinct <;> simp (disch := decide) [cost_keyword]
    simp (disch := decide) only [Select.cost, Select.lexemes, costs_append, Expr.lexeme_lists_eq_map,
      SortKey.lexeme_lists_eq_map, groups, keys, window, marker, costs_after, costs_phrase, costs_cons,
      cost_keyword, cost_space, costs_nil]
    simp [Source.cost, Nat.add_assoc]
  refine built_select items.1 joins.1 ?_ window
  intro expr member
  rcases Select.mem_exprs.mp member with ⟨item, listed, rfl⟩ | condition | defining | own | group |
    ⟨key, listed, rfl⟩ | ⟨window_, given, paged⟩
  · exact items.2 item listed
  · exact joins.2 expr condition
  · exact defines expr defining
  · exact filters expr own
  · cases groupBy with
    | none => simp at group
    | some list => exact (groups list rfl).2 expr group
  · cases orderBy with
    | none => simp at listed
    | some list => exact (keys list rfl).2 key listed
  · exact (window window_ given expr paged).mono (by decide)

theorem yields_unionBranch : Yields 1 0 (unionBranch inner) (fun branch => branch.select.cost) fun branch =>
      Fragment.Everywhere Fragment.Grammatical (.select branch.select) :=
  yields_past (passes_of_moves (moves unionAll)) fun _ => yields_then yields_select fun _ =>
    yields_pure (Nat.le_refl _) id

theorem yields_commonTable : Yields 1 0 (commonTable inner) CommonTable.cost fun element =>
      (element.name.Spelled ∧ ∀ column ∈ element.columns, column.Spelled) ∧
        Fragment.Everywhere Fragment.Grammatical (.query element.query) := by
  have listing : Yields 0 0 (do
      let columns ← separated identifier
      expectMark .rightParen
      return columns) (total Identifier.cost) fun columns => ∀ column ∈ columns, column.Spelled :=
    yields_bind (yields_separated yields_identifier) fun _ =>
      yields_past (passes_expectMark .rightParen) fun _ => yields_pure (by simp) fun listed => listed.2
  refine yields_then yields_identifier fun name => yields_bind (yields_afterMark .leftParen listing)
    fun columns => yields_past (passes_expect "AS") fun _ =>
    yields_bind (yields_parenthesized inside.query) fun query => yields_pure ?_
      fun built each named => ⟨⟨named, ?_⟩, built⟩
  · have listed : costs (CommonTable.columnLexemes (columns.getD [])) =
        optional (total Identifier.cost) columns := by
      cases columns with
      | none => rfl
      | some list =>
        cases list with
        | nil => rfl
        | cons first rest =>
          rw [Option.getD_some, CommonTable.columnLexemes, if_neg (by simp), costs_cons, costs_tight,
            costs_join (show costs comma = 0 from rfl), total_map]
          exact Nat.zero_add _
    simp (disch := decide) [CommonTable.cost, CommonTable.lexemes, listed, Identifier.cost, Query.cost,
      Nat.add_assoc]
  · cases columns with
    | none => simp
    | some list => exact each list rfl

theorem yields_query : Yields 1 0 (query inner) Query.cost fun query =>
    Fragment.Everywhere Fragment.Grammatical (.query query) := by
  refine yields_bind (yields_after "WITH" (yields_separated yields_commonTable))
    fun commonTables => yields_first yields_select fun first =>
    yields_bind (yields_many (yields_after "UNION" yields_unionBranch)) fun unions =>
      yields_pure ?_ fun branches built elements => ?_
  · have clause : costs (CommonTable.clauseLexemes commonTables) =
        optional (total CommonTable.cost) commonTables := by
      cases commonTables with
      | none => rfl
      | some elements =>
        simp (disch := decide) only [CommonTable.clauseLexemes, CommonTable.lexeme_lists_eq_map,
          costs_append, costs_cons, cost_keyword, cost_space, costs_nil, @costs_join comma rfl, total_map]
        exact Nat.zero_add _
    simp [Query.cost, Query.lexemes, clause, costs_unions, Select.cost, Nat.add_assoc]
  have each : ∀ element ∈ commonTables.getD [],
      (element.name.Spelled ∧ ∀ column ∈ element.columns, column.Spelled) ∧
        Fragment.Everywhere Fragment.Grammatical (.query element.query) := by
    cases commonTables with
    | none => simp
    | some list => exact (elements list rfl).2
  refine Fragment.everywhere_query.mpr ⟨⟨?_, fun element member => (each element member).1⟩, ?_, ?_⟩
  · rintro rfl
    exact (elements [] rfl).1 rfl
  · exact fun element member => (each element member).2
  · exact List.forall_mem_cons.mpr ⟨built, List.forall_mem_map.mpr branches⟩

instance yields_nested (depth : Nat) : YieldsInside (nested depth) := by
  induction depth with
  | zero => exact ⟨yields_unexpected, yields_unexpected⟩
  | succ depth ih => exact ⟨yields_expr, yields_query⟩

variable {α : Type} {read : Reader α} {cost : α → Nat} {post : α → Prop}

theorem yields_complete (own : Yields 1 0 read cost post) : Yields 1 0 (complete read) cost post :=
  yields_then own fun _ => yields_past (passes_of_moves (moves (discard (acceptMark .semicolon)))) fun _ =>
    yields_past (passes_of_moves (moves get)) fun _ =>
      yields_ite (yields_pure (Nat.le_refl _) id) yields_abandoned

/-- What a reader gives on the tokens of a text. -/
theorem given_of_run (own : Yields 1 0 read cost post) {text : String} {tokens : List Token}
    (scanned : Token.ofText text = .ok tokens) {value : α} (given : read.run' tokens = .ok value) :
    Token.scan text.toList = .ok tokens ∧ cost value ≤ Token.weights tokens ∧ post value := by
  have scan : Token.scan text.toList = .ok tokens := by
    unfold Token.ofText at scanned
    split at scanned
    · cases scanned
    · split at scanned <;> cases scanned
      next same => exact same
  unfold Reader.run' at given
  split at given <;> cases given
  next rest taken =>
  obtain ⟨_, _, paid, known⟩ := own tokens value rest taken
  exact ⟨scan, Nat.le_trans (Nat.le_add_right _ _) paid, known (Token.scan_spelled scan)⟩

end Grammar

/-! ## Texts -/

theorem Query.given_of_parse {text : String} {query : Query} (parsed : parse text = .ok query) :
    ∃ tokens, Token.scan text.toList = .ok tokens ∧ query.cost ≤ Token.weights tokens ∧
      Fragment.Everywhere Fragment.Grammatical (.query query) := by
  obtain ⟨tokens, scanned, parsed⟩ := Except.of_bind parsed
  exact ⟨tokens, Grammar.given_of_run (Grammar.yields_complete
    Grammar.yields_query) scanned parsed⟩

/-- Reading a query gives a tree of the shape that the grammar builds. -/
theorem Query.grammatical_of_parse {text : String} {query : Query} (parsed : parse text = .ok query) :
    Fragment.Everywhere Fragment.Grammatical (.query query) := by
  obtain ⟨_, _, _, built⟩ := given_of_parse parsed
  exact built

/-- A query that was read costs no more than the signs of its text. -/
theorem Query.cost_le_of_parse {text : String} {query : Query} (parsed : parse text = .ok query) :
    ∃ tokens, Token.scan text.toList = .ok tokens ∧ query.cost ≤ Token.weights tokens := by
  obtain ⟨tokens, scanned, paid, _⟩ := given_of_parse parsed
  exact ⟨tokens, scanned, paid⟩

/-- Reading an expression gives a tree of the shape that the grammar builds. -/
theorem Expr.built_of_parse {text : String} {expr : Expr} (parsed : parse text = .ok expr) :
    Built 7 expr := by
  obtain ⟨tokens, scanned, parsed⟩ := Except.of_bind parsed
  obtain ⟨_, _, built⟩ := Grammar.given_of_run (Grammar.yields_complete
    Grammar.yields_expr) scanned parsed
  exact built

end TabularSql
