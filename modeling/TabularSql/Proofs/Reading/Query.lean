import TabularSql.Proofs.Reading.Predicate

/-!
# Reading selects and queries back

The clauses of a select come in a fixed order, each opened by its keyword, so each is read back if what
follows starts with the keyword of a later clause.
-/

namespace TabularSql

set_option autoImplicit false

open Reader Grammar Lexeme

/-! ## Names and tables -/

theorem Token.rank_of_free {name : String} (free : isReserved name = false) :
    (Token.word name none).rank ≤ 8 := by
  have table : ∀ entry ∈ keywordRanks, isReserved entry.1 = true ∨ entry.2 ≤ 8 := by decide
  have upperFree : isReserved (Text.upper name) = false := by
    simpa [isReserved, Text.listed, Text.sameWord, Text.upper_upper] using free
  show wordRank (Text.upper name) ≤ 8
  unfold wordRank
  split
  · next entry found =>
      have same : entry.1 = Text.upper name := by simpa using List.find?_some found
      rcases table entry (List.mem_of_find?_eq_some found) with reserved | low
      · rw [same, upperFree] at reserved
        cases reserved
      · exact low
  · rw [upperFree]
    exact Nat.le_refl 8

namespace Grammar

variable {inner : Inner}

variable {rest : List Token}

theorem alias_none (stops : Stops 8 rest) : alias? rest = .ok (none, rest) := by
  rw [alias?, ite_skipped (accept_stops stops (by decide))]
  show (get >>= _ : Reader (Option Identifier)) rest = _
  have got : (get : Reader (List Token)) rest = .ok (rest, rest) := rfl
  rw [bind_ok got]
  split
  · next name quote behind =>
      have ranked := stops _ rfl
      cases quote with
      | some delimiter => exact absurd ranked (Nat.lt_irrefl 8)
      | none =>
        have reserved : isReserved name = true := by
          by_contra free
          have low := Token.rank_of_free (Bool.eq_false_iff.mpr free)
          omega
        rw [if_neg (by simp [reserved])]
        rfl
  · rfl

theorem alias_as (name : Identifier) (rest : List Token) :
    alias? (.word "AS" none :: .word name.name name.quote :: rest) = .ok (some name, rest) := by
  rw [alias?, ite_taken (accept_keyword (by decide)), bind_ok (identifier_ok name rest)]
  rfl

theorem alias_word {name : Identifier} (free : name.quote = none → isReserved name.name = false)
    (rest : List Token) :
    alias? (.word name.name name.quote :: rest) = .ok (some name, rest) := by
  have notAs : (Token.word name.name name.quote).isKeyword "AS" = false := by
    cases quote : name.quote with
    | some delimiter => rfl
    | none =>
      refine Bool.eq_false_iff.mpr fun same => ?_
      have reserved : isReserved name.name = isReserved "AS" := by
        simp only [Token.isKeyword, Text.sameWord, beq_iff_eq] at same
        simp [isReserved, Text.listed, Text.sameWord, same]
      rw [free quote] at reserved
      exact absurd reserved (by decide)
  have got : (get : Reader (List Token)) (.word name.name name.quote :: rest) =
      .ok (.word name.name name.quote :: rest, .word name.name name.quote :: rest) := rfl
  have given : (name.quote.isSome || !isReserved name.name) = true := by
    cases quote : name.quote with
    | some delimiter => rfl
    | none => simp [free quote]
  rw [alias?, ite_skipped (accept_other notAs), bind_ok got]
  show (if _ then _ else _ : Reader (Option Identifier)) _ = _
  rw [if_pos given]
  rfl

theorem version_none (noNumber : ∀ token ∈ rest.head?, token.isNumber = false)
    (noPeriod : ∀ token ∈ rest.head?, token ≠ .mark .period) : version rest = .ok ("", rest) := by
  unfold version
  split
  · next digits long behind => exact absurd (noNumber _ rfl) (by simp [Token.isNumber])
  · exact absurd rfl (noPeriod _ rfl)
  · rfl

def aliasTokens (given : Option Identifier) : List Token :=
  (given.map fun name => [.word name.name name.quote]).getD []

theorem alias_ok {given : Option Identifier}
    (free : ∀ name ∈ given, name.quote = none → isReserved name.name = false) (stops : Stops 8 rest) :
    alias? (aliasTokens given ++ rest) = .ok (given, rest) := by
  cases given with
  | none => exact alias_none stops
  | some name => exact alias_word (free name rfl) rest

theorem version_ok {number : List Char} {given : Option Identifier} (shape : VersionShape number)
    (stops : Stops 8 rest) :
    version ((if number.isEmpty then [] else [.number (String.ofList number) false]) ++
      (aliasTokens given ++ rest)) = .ok (String.ofList number, aliasTokens given ++ rest) := by
  rcases shape with rfl | ⟨digits, some, all, rfl⟩
  · refine version_none (fun token head => ?_) fun token head same => ?_
    · cases given with
      | none =>
        cases token with
        | number digits long => exact absurd (stops _ head) (Nat.lt_irrefl 8)
        | _ => rfl
      | some name =>
        cases head
        rfl
    · subst same
      cases given with
      | none => exact absurd (stops _ head) (by decide)
      | some name => cases head
  · show version (.number (String.ofList ('.' :: digits)) false :: _) = _
    rw [version, if_pos (by simp)]
    rfl

theorem tableName_ok {table : TableName} (grammatical : table.Grammatical) (restorable : table.Restorable)
    (stops : Stops 8 rest) :
    tableName (tokensOf table.lexemes ++ rest) = .ok (table, rest) := by
  obtain ⟨word, number, same, shape, behind, free⟩ :=
    TableName.word_and_version grammatical restorable
  have named : String.ofList word ++ String.ofList number = table.name :=
    String.toList_inj.mp (by simp [same])
  have tokens : tokensOf table.lexemes ++ rest = .word (String.ofList word) none ::
      ((if number.isEmpty then [] else [.number (String.ofList number) false]) ++
        (aliasTokens table.alias? ++ rest)) := by
    have aliased : tokensOf ((table.alias?.map fun name => [space, name.lexeme]).getD []) =
        aliasTokens table.alias? := by
      cases table.alias? with
      | none => rfl
      | some name =>
        show [] ++ (name.lexeme.tokens ++ []) = _
        rw [Identifier.lexeme_tokens]
        rfl
    rw [TableName.lexemes, tokensOf_cons, tokens_of_table shape behind same, aliased]
    simp
  have first : tableWord (.word (String.ofList word) none :: ((if number.isEmpty then [] else
      [.number (String.ofList number) false]) ++ (aliasTokens table.alias? ++ rest))) =
        .ok (String.ofList word, _) := if_neg (by simp [free])
  rw [tokens, tableName, bind_ok first, bind_ok (version_ok behind stops),
    bind_ok (alias_ok restorable.2 stops), named]
  rfl

/-! ## Sources -/

theorem joinKind_ok (kind : JoinKind) (rest : List Token) :
    joinKind (wordTokens kind.words ++ rest) = .ok (some kind, rest) := by
  cases kind <;> rfl

theorem acceptAll_stops {keyword : String} {keywords : List String} {level : Nat} (stops : Stops level rest)
    (ranked : Token.wordRank (Text.upper keyword) ≤ level) :
    acceptAll (keyword :: keywords) rest = .ok (false, rest) := by
  have none : startsWith (keyword :: keywords) rest = false := by
    cases rest with
    | nil => rfl
    | cons token rest =>
      have other : token.isKeyword keyword = false := by
        refine Bool.eq_false_iff.mpr fun same => ?_
        have above := stops token rfl
        rw [Token.rank_of_isKeyword same] at above
        omega
      simp [startsWith, other]
  rw [acceptAll, none]
  rfl

theorem joinKind_stops (stops : Stops 10 rest) :
    joinKind rest = .ok (none, rest) := by
  rw [joinKind, ite_skipped (accept_stops stops (by decide))]
  iterate 5 rw [ite_skipped (acceptAll_stops stops (by decide))]
  rfl

end Grammar

namespace Source

def first : Source → TableName
  | table only => only
  | join left _ _ _ => left.first

def joins : Source → List (JoinKind × TableName × Expr)
  | table _ => []
  | join left kind right condition => left.joins ++ [(kind, right, condition)]

def joinTokens (joined : JoinKind × TableName × Expr) : List Token :=
  wordTokens joined.1.words ++ (tokensOf joined.2.1.lexemes ++
    (.word "ON" none :: joined.2.2.tokens))

theorem rebuild : ∀ source : Source,
    source.joins.foldl (fun left (kind, right, condition) => .join left kind right condition)
      (.table source.first) = source
  | .table only => rfl
  | .join left kind right condition => by
      rw [joins, first, List.foldl_append, rebuild left]
      rfl

theorem tokens_eq : ∀ source : Source, tokensOf source.lexemes =
    tokensOf source.first.lexemes ++ source.joins.flatMap joinTokens
  | .table only => by simp [Source.lexemes, first, joins]
  | .join left kind right condition => by
      simp [Source.lexemes, first, joins, tokens_eq left, joinTokens, tokensOf_words, wordTokens,
        Lexeme.tokens, Expr.tokens]

theorem first_mem : ∀ source : Source, source.first ∈ source.tables
  | .table only => by simp [tables, first]
  | .join left kind right condition => by simp [tables, first, first_mem left]

theorem joins_mem : ∀ (source : Source) (joined : JoinKind × TableName × Expr),
    joined ∈ source.joins → joined.2.1 ∈ source.tables ∧ joined.2.2 ∈ source.conditions
  | .table only, joined, member => by simp [joins] at member
  | .join left kind right condition, joined, member => by
      simp only [joins, List.mem_append, List.mem_singleton] at member
      rcases member with inLeft | rfl
      · obtain ⟨inTables, inConditions⟩ := joins_mem left joined inLeft
        exact ⟨by simp [tables, inTables], by simp [conditions, inConditions]⟩
      · exact ⟨by simp [tables], by simp [conditions]⟩

end Source

/-! ## Clauses -/

namespace Grammar

variable {inner : Inner}

variable {rest : List Token} {level : Nat}

def ReadsExpr (inner : Inner) (whole : Expr) : Prop :=
  ∀ rest, Stops 7 rest → expr inner (whole.tokens ++ rest) = .ok (whole, rest)

theorem source_ok {whole : Source} (tables : ∀ table ∈ whole.tables, table.Grammatical ∧ table.Restorable)
    (conditions : ∀ condition ∈ whole.conditions, ReadsExpr inner condition) (stops : Stops 10 rest) :
    source inner (tokensOf whole.lexemes ++ rest) = .ok (whole, rest) := by
  have joined : many (joined inner) (whole.joins.flatMap Source.joinTokens ++ rest) =
      .ok (whole.joins, rest) := by
    refine @many_ok _ _ (Stops 9) _ _ _ (fun join listed => ?_) (stops.mono (by decide)) (by
      rw [Grammar.joined, bind_ok (joinKind_stops stops)]
      rfl)
    obtain ⟨kind, right, condition⟩ := join
    obtain ⟨inTables, inConditions⟩ := Source.joins_mem whole _ listed
    obtain ⟨grammatical, restorable⟩ := tables right inTables
    have leads (behind : List Token) :
        Stops 9 (Source.joinTokens (kind, right, condition) ++ behind) := by
      cases kind <;> exact Stops.cons (by decide)
    refine ⟨by cases kind <;> simp [Source.joinTokens, wordTokens, JoinKind.words], leads,
      fun behind follows => ?_⟩
    show Grammar.joined inner ((wordTokens kind.words ++ (tokensOf right.lexemes ++
      (.word "ON" none :: condition.tokens))) ++ behind) = _
    rw [List.append_assoc, List.append_assoc, List.cons_append, Grammar.joined,
      bind_ok (joinKind_ok kind _)]
    show (tableName >>= _) _ = _
    rw [bind_ok (tableName_ok grammatical restorable (Stops.cons (by decide))),
      bind_ok (expect_keyword (by decide)),
      bind_ok (conditions condition inConditions behind (follows.mono (by decide)))]
    rfl
  obtain ⟨grammatical, restorable⟩ := tables whole.first (Source.first_mem whole)
  have behind : Stops 8 (whole.joins.flatMap Source.joinTokens ++ rest) := by
    cases whole.joins with
    | nil => exact stops.mono (by decide)
    | cons join joins =>
      obtain ⟨kind, right, condition⟩ := join
      cases kind <;> exact Stops.cons (by decide)
  rw [Source.tokens_eq, List.append_assoc, source,
    bind_ok (tableName_ok grammatical restorable behind), bind_ok joined]
  show Except.ok (List.foldl _ _ _, rest) = _
  rw [Source.rebuild]

theorem selectItem_ok {item : SelectItem} (own : ReadsExpr inner item.expr) (stops : Stops 8 rest) :
    selectItem inner (tokensOf item.lexemes ++ rest) = .ok (item, rest) := by
  obtain ⟨expr, name⟩ := item
  cases name with
  | none =>
    have tokens : tokensOf (SelectItem.lexemes ⟨expr, none⟩) ++ rest = expr.tokens ++ rest := by
      simp [SelectItem.lexemes, Expr.tokens]
    rw [tokens, selectItem, bind_ok (own rest (stops.mono (by decide))), bind_ok (alias_none stops)]
    rfl
  | some name =>
    have tokens : tokensOf (SelectItem.lexemes ⟨expr, some name⟩) ++ rest =
        expr.tokens ++ (.word "AS" none :: .word name.name name.quote :: rest) := by
      have identifier := name.lexeme_tokens
      simp [SelectItem.lexemes, Expr.tokens, phrase, identifier]
      rfl
    rw [tokens, selectItem, bind_ok (own _ (Stops.cons (by decide))), bind_ok (alias_as name rest)]
    rfl

theorem sortKey_ok {key : SortKey} (own : ReadsExpr inner key.expr) (stops : Stops 8 rest) : sortKey inner
    (tokensOf key.lexemes ++ rest) = .ok (key, rest) := by
  obtain ⟨expr, direction⟩ := key
  cases direction with
  | none =>
    have tokens : tokensOf (SortKey.lexemes ⟨expr, none⟩) ++ rest = expr.tokens ++ rest := by
      simp [SortKey.lexemes, Expr.tokens]
    rw [tokens, sortKey, bind_ok (own rest (stops.mono (by decide))),
      ite_skipped (accept_stops stops (by decide)), ite_skipped (accept_stops stops (by decide))]
    rfl
  | some direction =>
    have tokens : tokensOf (SortKey.lexemes ⟨expr, some direction⟩) ++ rest =
        expr.tokens ++ .word direction.text none :: rest := by
      simp [SortKey.lexemes, Expr.tokens, phrase, Lexeme.tokens]
    rw [tokens, sortKey, bind_ok (own _ (Stops.cons (by cases direction <;> decide)))]
    cases direction with
    | ascending =>
      rw [ite_taken (accept_keyword (by decide))]
      rfl
    | descending =>
      rw [ite_skipped (accept_other (by decide)), ite_taken (accept_keyword (by decide))]
      rfl

def clauseTokens (keyword : String) (clause : Option Expr) : List Token :=
  (clause.map fun own => .word keyword none :: own.tokens).getD []

theorem tokensOf_clause (keyword : String) (clause : Option Expr) :
    tokensOf (Expr.lexemesAfter (phrase [keyword] ++ [space]) clause) =
      clauseTokens keyword clause := by
  cases clause with
  | none => rfl
  | some own =>
    simp [Expr.lexemesAfter, phrase, clauseTokens, Lexeme.tokens, Expr.tokens]

theorem clause_stops {keyword : String} {clause : Option Expr}
    (ranked : level < Token.wordRank (Text.upper keyword)) (stops : Stops level rest) :
    Stops level (clauseTokens keyword clause ++ rest) := by
  cases clause with
  | none => exact stops
  | some own => exact Stops.cons ranked

theorem clause_ok {keyword : String} {clause : Option Expr} {read : Reader Expr} {bound : Nat}
    (own : ∀ expr ∈ clause, ∀ behind, Stops bound behind → read (expr.tokens ++ behind) = .ok (expr, behind))
    (stops : Stops level rest) (ranked : Token.wordRank (Text.upper keyword) ≤ level)
    (loose : bound ≤ level) :
    after keyword read (clauseTokens keyword clause ++ rest) = .ok (clause, rest) := by
  cases clause with
  | none => exact after_stops stops ranked
  | some expr =>
    exact after_keyword (by simp [Token.isKeyword, Text.sameWord]) (own expr rfl rest
      (stops.mono loose))

/-- The tokens of a list behind two keywords, left out when the list is empty. -/
def listTokens (first second : String) (lists : List (List Token)) : List Token :=
  if lists.isEmpty then [] else .word first none :: .word second none :: commaSeparated lists

theorem tokensOf_listClause (first second : String) (lists : List (List Lexeme)) :
    tokensOf (if lists.isEmpty then [] else
      phrase [first, second] ++ [space] ++ join comma lists) =
        listTokens first second (lists.map tokensOf) := by
  cases lists with
  | nil => rfl
  | cons own lists =>
    simp [listTokens, phrase, Lexeme.tokens, tokensOf_join (.inl rfl)]

theorem list_stops {first second : String} {lists : List (List Token)}
    (ranked : level < Token.wordRank (Text.upper first)) (stops : Stops level rest) : Stops level
    (listTokens first second lists ++ rest) := by
  cases lists with
  | nil => exact stops
  | cons own lists => exact Stops.cons ranked

theorem list_ok {α : Type} {first second : String} {read : Reader α} {tokens : α → List Token}
    {items : List α} {level : Nat} {rest : List Token}
    (own : ∀ item ∈ items, ∀ behind, Stops 8 behind →
      read (tokens item ++ behind) = .ok (item, behind))
    (stops : Stops level rest) (ranked : Token.wordRank (Text.upper first) ≤ level)
    (loose : 9 ≤ level) :
    ∃ found, afterAll [first, second] (separated read)
      (listTokens first second (items.map tokens) ++ rest) = .ok (found, rest) ∧
        found.getD [] = items := by
  by_cases empty : items = []
  · subst empty
    refine ⟨none, ?_, rfl⟩
    show afterAll [first, second] (separated read) rest = _
    rw [afterAll, bind_ok (acceptAll_stops stops ranked)]
    rfl
  · refine ⟨some items, ?_, rfl⟩
    have listed := separated_ok empty own (stops.mono loose)
    have some : (items.map tokens).isEmpty = false := by simpa using empty
    have keywords : acceptAll [first, second] (.word first none :: .word second none ::
        (commaSeparated (items.map tokens) ++ rest)) =
          .ok (true, commaSeparated (items.map tokens) ++ rest) := by
      have starts : startsWith [first, second] (.word first none :: .word second none ::
          (commaSeparated (items.map tokens) ++ rest)) = true := by
        simp [startsWith, Token.isKeyword, Text.sameWord]
      rw [acceptAll, starts]
      rfl
    rw [listTokens, some, if_neg (by decide), List.cons_append, List.cons_append, afterAll,
      bind_ok keywords, if_pos rfl, bind_ok listed]
    rfl

def pageTokens (window : Option Page) : List Token :=
  (window.map fun own => .word "LIMIT" none :: (own.limit.tokens ++
    clauseTokens "OFFSET" own.offset)).getD []

theorem tokensOf_page (window : Option Page) :
    tokensOf (Page.lexemesAfter window) = pageTokens window := by
  cases window with
  | none => rfl
  | some own =>
    obtain ⟨limit, offset⟩ := own
    have behind := tokensOf_clause "OFFSET" offset
    simp only [Page.lexemesAfter, tokensOf_append, behind, tokensOf_words]
    simp [pageTokens, wordTokens, Lexeme.tokens, Expr.tokens]

theorem page_ok {window : Option Page} (own : ∀ page ∈ window, ∀ expr ∈ page.exprs, ReadsAt inner 3 expr)
    (stops : Stops 16 rest) :
    after "LIMIT" (page inner) (pageTokens window ++ rest) = .ok (window, rest) := by
  cases window with
  | none => exact after_stops stops (by decide)
  | some page =>
    obtain ⟨limit, offset⟩ := page
    have first : sum inner (limit.tokens ++ (clauseTokens "OFFSET" offset ++ rest)) = _ :=
      own _ rfl limit (by simp [Page.exprs]) _
        (clause_stops (by decide) (stops.mono (by decide)))
    have second : after "OFFSET" (sum inner) (clauseTokens "OFFSET" offset ++ rest) =
        .ok (offset, rest) :=
      clause_ok (fun expr given => own _ rfl expr (by simp [Page.exprs, Option.mem_def.mp given]))
        stops (by decide) (by decide)
    refine after_keyword (by decide) ?_
    show Grammar.page inner ((limit.tokens ++ clauseTokens "OFFSET" offset) ++ rest) = _
    rw [List.append_assoc, Grammar.page, bind_ok first, bind_ok second]
    rfl

/-! ## Selects -/

theorem tokensOf_items (list : List SelectItem) :
    tokensOf (Projection.items list).lexemes =
      commaSeparated (list.map fun item => tokensOf item.lexemes) := by
  rw [Projection.lexemes, SelectItem.lexeme_lists_eq_map, tokensOf_join (.inl rfl), List.map_map]
  rfl

theorem projection_starts {whole : Projection} (grammatical : whole.Grammatical)
    (starts : ∀ item ∈ whole.itemList, ∃ token behind, item.expr.StartsWith token behind) :
    ∃ token behind, tokensOf whole.lexemes = token :: behind ∧
      (whole = .all ∧ token = .mark .star ∨ token.starts = true) := by
  cases whole with
  | all => exact ⟨.mark .star, [], rfl, .inl ⟨rfl, rfl⟩⟩
  | items list =>
    obtain ⟨first, others, rfl⟩ := List.exists_cons_of_ne_nil grammatical.1
    obtain ⟨token, behind, start⟩ := starts first (by simp [Projection.itemList])
    have own : ∃ more, tokensOf first.lexemes = token :: more := by
      have tokens : tokensOf first.expr.lexemes = token :: behind := start.tokens
      rw [SelectItem.lexemes, tokensOf_append, tokens]
      exact ⟨_, rfl⟩
    obtain ⟨more, tokens⟩ := own
    rw [tokensOf_items, List.map_cons, commaSeparated, tokens]
    exact ⟨token, _, rfl, .inr start.starts⟩

theorem projection_ok {whole : Projection} {rest : List Token} (grammatical : whole.Grammatical)
    (starts : ∀ item ∈ whole.itemList, ∃ token behind, item.expr.StartsWith token behind)
    (own : ∀ item ∈ whole.itemList, ReadsExpr inner item.expr) (stops : Stops 9 rest) :
    projection inner (tokensOf whole.lexemes ++ rest) = .ok (whole, rest) := by
  obtain ⟨token, behind, tokens, kind⟩ := projection_starts grammatical starts
  cases whole with
  | all =>
    show projection inner (.mark .star :: rest) = _
    rw [projection, bind_ok acceptMark_same]
    rfl
  | items list =>
    have start : token.starts = true := by
      rcases kind with ⟨impossible, _⟩ | start
      · cases impossible
      · exact start
    have noStar : acceptMark .star (tokensOf (Projection.items list).lexemes ++ rest) =
        .ok (false, tokensOf (Projection.items list).lexemes ++ rest) := by
      refine acceptMark_none fun first head => ?_
      rw [tokens] at head
      cases head
      exact starts_not_mark start (by decide)
    have listed := @separated_ok _ (selectItem inner) (fun item => tokensOf item.lexemes) list rest
      grammatical.1 (fun item member behind follows => selectItem_ok (own item member) follows) stops
    rw [projection, bind_ok noStar, if_neg (by decide), tokensOf_items, bind_ok listed]
    rfl

theorem distinct_ok {wanted : Bool} {tokens : List Token}
    (noDistinct : ∀ token ∈ tokens.head?, token.isKeyword "DISTINCT" = false)
    (noAll : ∀ token ∈ tokens.head?, token.isKeyword "ALL" = false) :
    distinct ((if wanted then [.word "DISTINCT" none] else []) ++ tokens) = .ok (wanted, tokens) := by
  cases wanted with
  | true =>
    show distinct (.word "DISTINCT" none :: tokens) = _
    rw [distinct, bind_ok (accept_keyword (by decide))]
    rfl
  | false =>
    show distinct tokens = _
    rw [distinct, ite_skipped (accept_none noDistinct)]
    show ((accept "ALL" >>= fun _ => pure ()) >>= _) _ = _
    rw [bind_assoc, bind_ok (accept_none noAll)]
    rfl

theorem select_tokens (whole : Select) : tokensOf whole.lexemes = .word "SELECT" none ::
    ((if whole.distinct then [.word "DISTINCT" none] else []) ++
      (tokensOf whole.projection.lexemes ++ .word "FROM" none ::
        (tokensOf whole.source.lexemes ++ (clauseTokens "DEFINING_WHERE" whole.definingFilter ++
          (clauseTokens "WHERE" whole.filter ++
            (listTokens "GROUP" "BY" (whole.groupBy.map Expr.tokens) ++
              (listTokens "ORDER" "BY" (whole.orderBy.map fun key => tokensOf key.lexemes) ++
                pageTokens whole.page))))))) := by
  obtain ⟨distinct, projection, source, definingFilter, filter, groupBy, orderBy, page⟩ := whole
  have defining := tokensOf_clause "DEFINING_WHERE" definingFilter
  have filtered := tokensOf_clause "WHERE" filter
  have window := tokensOf_page page
  have grouped := tokensOf_listClause "GROUP" "BY" (groupBy.map Expr.lexemes)
  have ordered := tokensOf_listClause "ORDER" "BY" (orderBy.map SortKey.lexemes)
  rw [List.isEmpty_map, List.map_map] at grouped ordered
  rw [Select.lexemes, Expr.lexeme_lists_eq_map, SortKey.lexeme_lists_eq_map]
  simp only [tokensOf_append, defining, filtered, grouped, ordered, window, tokensOf_words]
  cases distinct <;> simp [wordTokens, Lexeme.tokens, Function.comp_def] <;> rfl

theorem select_ok {whole : Select} (grammatical : whole.Grammatical)
    (restorable : ∀ table ∈ whole.source.tables, table.Restorable)
    (own : ∀ expr ∈ whole.exprs, Reads inner expr) (stops : Stops 16 rest) :
    select inner (tokensOf whole.lexemes ++ rest) = .ok (whole, rest) := by
  obtain ⟨projected, tables, levels, window⟩ := grammatical
  have expr_ (part : Expr) (member : part ∈ whole.exprs) : ReadsExpr inner part :=
    (own part member).reads 7 (levels part member) (by decide)
  obtain ⟨token, behind, first, kind⟩ := projection_starts projected fun item member =>
    (own item.expr (Select.item_mem member)).starts
  have keyword (name : String) (reserved : isReserved name = true)
      (other : Text.upper name ≠ "CASE" ∧ Text.upper name ≠ "NOT") :
      token.isKeyword name = false := by
    rcases kind with ⟨_, rfl⟩ | start
    · rfl
    · exact Token.starts_not_keyword start reserved other
  -- What follows each clause, from the last one to the first.
  let afterOrder := pageTokens whole.page ++ rest
  let afterGroup := listTokens "ORDER" "BY" (whole.orderBy.map fun key => tokensOf key.lexemes) ++
    afterOrder
  let afterFilter := listTokens "GROUP" "BY" (whole.groupBy.map Expr.tokens) ++ afterGroup
  let afterDefining := clauseTokens "WHERE" whole.filter ++ afterFilter
  let afterSource := clauseTokens "DEFINING_WHERE" whole.definingFilter ++ afterDefining
  have stopsOrder : Stops 14 afterOrder := by
    cases given : whole.page with
    | none => simpa [afterOrder, pageTokens, given] using stops.mono (by decide)
    | some page => simpa [afterOrder, pageTokens, given] using Stops.cons (by decide)
  have stopsGroup : Stops 13 afterGroup := list_stops (by decide) (stopsOrder.mono (by decide))
  have stopsFilter : Stops 12 afterFilter := list_stops (by decide) (stopsGroup.mono (by decide))
  have stopsDefining : Stops 11 afterDefining :=
    clause_stops (by decide) (stopsFilter.mono (by decide))
  have stopsSource : Stops 10 afterSource :=
    clause_stops (by decide) (stopsDefining.mono (by decide))
  have readItems := @projection_ok inner whole.projection
    (.word "FROM" none :: (tokensOf whole.source.lexemes ++ afterSource)) projected
    (fun item member => (own item.expr (Select.item_mem member)).starts)
    (fun item member => expr_ item.expr (Select.item_mem member)) (Stops.cons (by decide))
  have readSource := source_ok (fun table member => ⟨tables table member, restorable table member⟩)
    (fun condition member => expr_ condition (Select.condition_mem member)) stopsSource
  have readDefining : after "DEFINING_WHERE" (expr inner) afterSource = _ :=
    clause_ok (fun part given => expr_ part (Select.defining_mem given)) stopsDefining
    (by decide) (by decide)
  have readFilter : after "WHERE" (expr inner) afterDefining = _ :=
    clause_ok (fun part given => expr_ part (Select.filter_mem given)) stopsFilter
    (by decide) (by decide)
  obtain ⟨groups, readGroups, groups_eq⟩ := @list_ok _ "GROUP" "BY" (expr inner) Expr.tokens
    whole.groupBy 13 afterGroup (fun part member behind follows =>
      expr_ part (Select.group_mem member) behind (follows.mono (by decide))) stopsGroup (by decide)
    (by decide)
  obtain ⟨keys, readKeys, keys_eq⟩ := @list_ok _ "ORDER" "BY" (sortKey inner)
    (fun key => tokensOf key.lexemes) whole.orderBy 14 afterOrder (fun key member behind follows =>
      sortKey_ok (expr_ key.expr (Select.key_mem member)) follows) stopsOrder (by decide) (by decide)
  have readPage : after "LIMIT" (page inner) afterOrder = .ok (whole.page, rest) :=
    page_ok (fun page given part member => (own part (Select.window_mem given member)).reads 3
      (window page given part member) (by decide)) stops
  have head : ∀ next ∈ (tokensOf whole.projection.lexemes ++ .word "FROM" none ::
      (tokensOf whole.source.lexemes ++ afterSource)).head?, next = token := by
    intro next given
    rw [first] at given
    cases given
    rfl
  rw [select_tokens, List.cons_append]
  simp only [List.append_assoc, List.cons_append]
  rw [select, bind_ok (expect_keyword (by decide)), bind_ok (distinct_ok
      (fun next given => head next given ▸ keyword "DISTINCT" (by decide) (by decide))
      fun next given => head next given ▸ keyword "ALL" (by decide) (by decide)),
    bind_ok readItems, bind_ok (expect_keyword (by decide)), bind_ok readSource, bind_ok readDefining,
    bind_ok readFilter, bind_ok readGroups, bind_ok readKeys, bind_ok readPage, groups_eq, keys_eq]
  cases whole
  rfl

/-! ## Queries -/

def ReadsSelect (inner : Inner) (whole : Select) : Prop :=
  ∀ rest, Stops 16 rest → select inner (tokensOf whole.lexemes ++ rest) = .ok (whole, rest)

theorem unionAll_ok {all : Bool} {tokens : List Token} (whole : Select) :
    unionAll ((if all then [.word "ALL" none] else []) ++ (tokensOf whole.lexemes ++ tokens)) =
      .ok (all, tokensOf whole.lexemes ++ tokens) := by
  obtain ⟨behind, starts⟩ := select_starts whole
  rw [starts, List.cons_append]
  cases all with
  | true =>
    show unionAll (.word "ALL" none :: _) = _
    rw [unionAll, bind_ok (accept_keyword (by decide))]
    rfl
  | false =>
    show unionAll (.word "SELECT" none :: _) = _
    rw [unionAll, ite_skipped (accept_other (by decide))]
    show ((accept "DISTINCT" >>= fun _ => pure ()) >>= _) _ = _
    rw [bind_assoc, bind_ok (accept_other (by decide))]
    rfl

def branchSelectTokens (branch : UnionBranch) : List Token :=
  .word "UNION" none :: ((if branch.all then [.word "ALL" none] else []) ++
    tokensOf branch.select.lexemes)

theorem tokensOf_unions (branches : List UnionBranch) :
    tokensOf (UnionBranch.lexemes branches) = branches.flatMap branchSelectTokens := by
  induction branches with
  | nil => rfl
  | cons branch branches ih =>
    obtain ⟨all, select⟩ := branch
    cases all <;> simp [UnionBranch.lexemes, branchSelectTokens, phrase, Lexeme.tokens, ih]

theorem unions_ok {branches : List UnionBranch} (own : ∀ branch ∈ branches, ReadsSelect inner branch.select)
    (stops : Stops 17 rest) :
    many (after "UNION" (unionBranch inner)) (branches.flatMap branchSelectTokens ++ rest) =
      .ok (branches, rest) := by
  refine @many_ok _ _ (Stops 16) _ _ _ (fun branch listed => ?_) (stops.mono (by decide))
    (after_stops stops (by decide))
  refine ⟨by simp [branchSelectTokens], fun behind => Stops.cons (by decide),
    fun behind follows => ?_⟩
  obtain ⟨all, whole⟩ := branch
  rw [branchSelectTokens, List.cons_append, List.append_assoc]
  refine after_keyword (by decide) ?_
  rw [unionBranch, bind_ok (unionAll_ok whole), bind_ok (own _ listed behind follows)]
  rfl

theorem tokensOf_columns (columns : List Identifier) :
    tokensOf (join comma (columns.map fun column => [column.lexeme])) =
      commaSeparated (columns.map fun column => [.word column.name column.quote]) := by
  rw [tokensOf_join (.inl rfl), List.map_map]
  congr 1
  refine List.map_congr_left fun column _ => ?_
  show column.lexeme.tokens ++ [] = _
  rw [Identifier.lexeme_tokens]
  rfl

def columnTokens (columns : List Identifier) : List Token :=
  if columns.isEmpty then []
  else .mark .leftParen ::
    (commaSeparated (columns.map fun column => [.word column.name column.quote]) ++
      [.mark .rightParen])

theorem columns_ok (columns : List Identifier) {rest : List Token} (name : String) :
    ∃ found, afterMark .leftParen (do
      let columns ← separated identifier
      expectMark .rightParen
      return columns) (columnTokens columns ++ .word name none :: rest) =
        .ok (found, .word name none :: rest) ∧ found.getD [] = columns := by
  by_cases empty : columns = []
  · subst empty
    exact ⟨none, afterMark_none (by simp [columnTokens]), rfl⟩
  · have listed := @separated_ok _ identifier (fun column => [.word column.name column.quote])
      columns (.mark .rightParen :: .word name none :: rest) empty
      (fun column _ behind _ => identifier_ok column behind) (Stops.cons (by decide))
    refine ⟨some columns, ?_, rfl⟩
    have some : columns.isEmpty = false := by simpa using empty
    rw [columnTokens, some, if_neg (by decide), List.cons_append, List.append_assoc]
    refine afterMark_same ?_
    rw [List.singleton_append, bind_ok listed, bind_ok expectMark_same]
    rfl

theorem commonTable_ok {element : CommonTable} (own : ReadsQueryInside inner element.query) :
    commonTable inner (tokensOf element.lexemes ++ rest) = .ok (element, rest) := by
  obtain ⟨name, columns, query⟩ := element
  obtain ⟨found, listed, found_eq⟩ := @columns_ok columns
    (.mark .leftParen :: (query.tokens ++ .mark .rightParen :: rest)) "AS"
  have tokens : tokensOf (CommonTable.lexemes ⟨name, columns, query⟩) ++ rest =
      .word name.name name.quote :: (columnTokens columns ++ .word "AS" none ::
        (.mark .leftParen :: (query.tokens ++ .mark .rightParen :: rest))) := by
    have columns_eq : tokensOf (CommonTable.columnLexemes columns) = columnTokens columns := by
      rw [CommonTable.columnLexemes, columnTokens]
      cases columns with
      | nil => rfl
      | cons first others =>
        have list := tokensOf_columns (first :: others)
        rw [if_neg (by simp), if_neg (by simp), tokensOf_cons, tight, tokensOf_append,
          tokensOf_append, list]
        rfl
    have named := name.lexeme_tokens
    simp only [CommonTable.lexemes, tokensOf_cons, tokensOf_append, columns_eq, named,
      tokensOf_words, tight]
    simp [wordTokens, Lexeme.tokens, Query.tokens]
  have inside : parenthesized inner.query
      (.mark .leftParen :: (query.tokens ++ .mark .rightParen :: rest)) = .ok (query, rest) :=
    parenthesized_ok (own _ (Stops.cons (by decide)))
  rw [tokens, commonTable, bind_ok (identifier_ok name _), bind_ok listed,
    bind_ok (expect_keyword (by decide)), bind_ok inside, found_eq]
  rfl

theorem tokensOf_elements (elements : List CommonTable) :
    tokensOf (CommonTable.clauseLexemes (some elements)) = .word "WITH" none ::
      commaSeparated (elements.map fun element => tokensOf element.lexemes) := by
  simp only [CommonTable.clauseLexemes, CommonTable.lexeme_lists_eq_map, tokensOf_append,
    tokensOf_join (.inl rfl), List.map_map]
  simp [Lexeme.tokens, Function.comp_def]

theorem query_ok {whole : Query} (grammatical : whole.Grammatical)
    (elements : ∀ element ∈ whole.elements, ReadsQueryInside inner element.query)
    (parts : ∀ select ∈ whole.parts, ReadsSelect inner select) (stops : Stops 17 rest) :
    query inner (whole.tokens ++ rest) = .ok (whole, rest) := by
  obtain ⟨commonTables, first, unions⟩ := whole
  let afterFirst := unions.flatMap branchSelectTokens ++ rest
  have stopsFirst : Stops 16 afterFirst := by
    cases unions with
    | nil => exact stops.mono (by decide)
    | cons branch unions => exact Stops.cons (by decide)
  have readFirst : select inner (tokensOf first.lexemes ++ afterFirst) = .ok (first, afterFirst) :=
    parts first (by simp [Query.parts]) afterFirst stopsFirst
  have readUnions : many (after "UNION" (unionBranch inner)) afterFirst = .ok (unions, rest) :=
    unions_ok (fun branch member => parts branch.select (by
      simp only [Query.parts, List.mem_cons, List.mem_map]
      exact .inr ⟨branch, member, rfl⟩)) stops
  obtain ⟨behind, starts⟩ := select_starts first
  have readElements : after "WITH" (separated (commonTable inner))
      (tokensOf (CommonTable.clauseLexemes commonTables) ++ (tokensOf first.lexemes ++ afterFirst)) =
        .ok (commonTables, tokensOf first.lexemes ++ afterFirst) := by
    cases commonTables with
    | none =>
      show after "WITH" (separated (commonTable inner)) (tokensOf first.lexemes ++ afterFirst) = _
      have noWith : accept "WITH" (tokensOf first.lexemes ++ afterFirst) =
          .ok (false, tokensOf first.lexemes ++ afterFirst) := by
        refine accept_none fun token head => ?_
        rw [starts] at head
        cases head
        decide
      rw [after, bind_ok noWith]
      rfl
    | some list =>
      have listed := @separated_ok _ (commonTable inner) (fun element => tokensOf element.lexemes)
        list (tokensOf first.lexemes ++ afterFirst) (fun empty => grammatical.1 (by rw [empty]))
        (fun element member behind _ => commonTable_ok (elements element member))
        (by rw [starts]; exact Stops.cons (by decide))
      rw [tokensOf_elements, List.cons_append]
      exact after_keyword (by decide) listed
  have tokens : Query.tokens ⟨commonTables, first, unions⟩ ++ rest =
      tokensOf (CommonTable.clauseLexemes commonTables) ++ (tokensOf first.lexemes ++ afterFirst) := by
    simp [Query.tokens, Query.lexemes, tokensOf_unions, afterFirst]
  rw [tokens, query, bind_ok readElements, bind_ok readFirst, bind_ok readUnions]
  rfl

end Grammar

end TabularSql
