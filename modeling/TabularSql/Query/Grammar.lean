import TabularSql.Error
import TabularSql.Token.Scan

/-!
# The grammar of queries

Readers take tokens from the front of a list. Operators bind, from loose to tight: OR, AND, NOT,
predicates, sums, products, signs. Only what stands in brackets, or between CASE and END, is read by
the grammar again, so the recursion is on the depth of nesting; a text cannot nest deeper than it has
tokens.
-/

namespace TabularSql

set_option autoImplicit false

/-- Why a reader failed, and the tokens that were left when it did. -/
structure Reader.Failure where
  error : ParseError
  left : List Token

/-- A reader takes tokens from the front of a list, or fails. -/
abbrev Reader := StateT (List Token) (Except Reader.Failure)

/-- Words that cannot be a table name, a column name or an alias without AS. -/
def reservedWords : List String :=
  ["ALL", "AND", "AS", "ASC", "BETWEEN", "BY", "CASE", "DEFINING_WHERE", "DESC", "DISTINCT", "ELSE",
   "END", "ESCAPE", "FROM", "GROUP", "HAS", "HAS_LIKE", "HAVING", "IN", "INNER", "IS", "JOIN", "LEFT",
   "LIKE", "LIMIT", "NOT", "OFFSET", "ON", "OR", "ORDER", "OUTER", "RIGHT", "SELECT", "THEN", "UNION",
   "WHEN", "WHERE", "WITH"]

def isReserved (word : String) : Bool :=
  Text.listed reservedWords word

namespace Token

def isKeyword (keyword : String) : Token → Bool
  | word name none => Text.sameWord name keyword
  | _ => false

end Token

namespace Reader

variable {α : Type}

def unexpected (expected : String) : Reader α
  | [] => .error ⟨.unexpectedEnd expected, []⟩
  | token :: rest => .error ⟨.unexpectedToken expected token.text, token :: rest⟩

/-- The value that a reader gives, whatever it leaves of the tokens. -/
def run' (read : Reader α) (tokens : List Token) : Except ParseError α :=
  match read tokens with
  | .ok (value, _) => .ok value
  | .error failure => .error failure.error

def isNext (keyword : String) : Reader Bool
  | tokens => .ok (tokens.head?.any (Token.isKeyword keyword), tokens)

def accept (keyword : String) : Reader Bool
  | [] => .ok (false, [])
  | token :: rest =>
      if token.isKeyword keyword then .ok (true, rest) else .ok (false, token :: rest)

def startsWith : List String → List Token → Bool
  | [], _ => true
  | _ :: _, [] => false
  | keyword :: keywords, token :: rest => token.isKeyword keyword && startsWith keywords rest

/-- Takes all of the keywords or none. -/
def acceptAll (keywords : List String) : Reader Bool
  | tokens =>
      if startsWith keywords tokens then .ok (true, tokens.drop keywords.length)
      else .ok (false, tokens)

def acceptMark (mark : Mark) : Reader Bool
  | [] => .ok (false, [])
  | token :: rest => if token = .mark mark then .ok (true, rest) else .ok (false, token :: rest)

def expect (keyword : String) : Reader Unit := do
  unless ← accept keyword do unexpected keyword

def expectMark (mark : Mark) : Reader Unit := do
  unless ← acceptMark mark do unexpected mark.text

def after (keyword : String) (read : Reader α) : Reader (Option α) := do
  if ← accept keyword then return some (← read) else return none

def afterAll (keywords : List String) (read : Reader α) : Reader (Option α) := do
  if ← acceptAll keywords then return some (← read) else return none

def afterMark (mark : Mark) (read : Reader α) : Reader (Option α) := do
  if ← acceptMark mark then return some (← read) else return none

/-- Repeats `read` until it finds nothing, at most `bound` times. -/
def atMost (read : Reader (Option α)) : Nat → Reader (List α)
  | 0 => return []
  | bound + 1 => do
      match ← read with
      | none => return []
      | some item => return item :: (← atMost read bound)

/-- Repeats `read` until it finds nothing. Every item takes a token, so there are no more items than
tokens. -/
def many (read : Reader (Option α)) : Reader (List α)
  | tokens => atMost read tokens.length tokens

def separated (read : Reader α) : Reader (List α) := do
  let first ← read
  return first :: (← many (afterMark .comma read))

def parenthesized (read : Reader α) : Reader α := do
  expectMark .leftParen
  let inner ← read
  expectMark .rightParen
  return inner

end Reader

namespace Grammar

open Reader

/-- Readers for what stands inside brackets. -/
structure Inner where
  expr : Reader Expr
  query : Reader Query

/-! ## Names -/

def identifier : Reader Identifier
  | .word name quote :: rest => .ok (⟨name, quote⟩, rest)
  | tokens => unexpected "identifier" tokens

def columnRef : Reader ColumnRef := do
  let first ← identifier
  match ← afterMark .period identifier with
  | some name => return ⟨some first, name⟩
  | none => return ⟨none, first⟩

/-- An alias behind AS, or a word that is not reserved. -/
def alias? : Reader (Option Identifier) := do
  if ← accept "AS" then return some (← identifier)
  match ← get with
  | .word name quote :: rest =>
      if quote.isSome || !isReserved name then
        set rest
        return some ⟨name, quote⟩
      else return none
  | _ => return none

/-- The version of a table, which comes as a number with a leading point or as a point and a number. -/
def version : Reader String
  | .number digits long :: rest =>
      if digits.toList.head? = some '.' then .ok (digits, rest)
      else .ok ("", .number digits long :: rest)
  | .mark .period :: .number digits _ :: rest => .ok ("." ++ digits, rest)
  | tokens => .ok ("", tokens)

def tableWord : Reader String
  | [] => .error ⟨.unexpectedEnd "table name", []⟩
  | .word name none :: rest =>
      if isReserved name then .error ⟨.invalidTableName name, rest⟩ else .ok (name, rest)
  | token :: rest => .error ⟨.invalidTableName token.text, rest⟩

def tableName : Reader TableName := do
  let name ← tableWord
  let version ← version
  return ⟨name ++ version, ← alias?⟩

/-! ## Expressions -/

/-- What a word without quotes stands for at the start of an expression. -/
inductive Opening where
  | literal (value : Literal)
  | caseWhen
  | currentUser
  | cast
  | doubleTest (test : DoubleTest)
  | textMatches
  | unnest
  | matchAgainst
  | reserved
  | call (name : String)
  | column
  deriving DecidableEq, Repr

/-- Some words are special only when they are called. -/
def opening (word : String) (called : Bool) : Opening :=
  let name := Text.upper word
  if name = "NULL" then .literal .null
  else if name = "TRUE" then .literal (.boolean true)
  else if name = "FALSE" then .literal (.boolean false)
  else if name = "CASE" then .caseWhen
  else if name = "CURRENT_USER" then .currentUser
  else if called && name = "CAST" then .cast
  else if called && name = "ISNAN" then .doubleTest .isNaN
  else if called && name = "ISINFINITY" then .doubleTest .isInfinity
  else if called && name = "TEXT_MATCHES" then .textMatches
  else if called && name = "UNNEST" then .unnest
  else if called && name = "MATCH" then .matchAgainst
  else if isReserved word then .reserved
  else if called then .call name
  else .column

def castTarget : Reader CastTarget
  | .number digits _ :: rest =>
      match Number.readUnsigned digits with
      | some id => .ok (.column id, rest)
      | none => .error ⟨.invalidColumnId digits, rest⟩
  | .word name _ :: rest =>
      match ColumnType.ofText? name with
      | some type => .ok (.type type, rest)
      | none => .ok (.physical (Text.upper name), rest)
  | [] => .error ⟨.unexpectedEnd "type name or column id", []⟩
  | token :: rest => .error ⟨.unexpectedToken "type name or column id" token.text, rest⟩

def cast (inner : Inner) : Reader Expr :=
  parenthesized do
    let operand ← inner.expr
    expect "AS"
    return .cast operand (← castTarget)

def whenBranch (inner : Inner) : Reader (Expr × Expr) := do
  let condition ← inner.expr
  expect "THEN"
  return (condition, ← inner.expr)

def caseWhen (inner : Inner) : Reader Expr := do
  let operand ← if ← isNext "WHEN" then pure none else some <$> inner.expr
  let branches ← many (after "WHEN" (whenBranch inner))
  if branches.isEmpty then unexpected "WHEN"
  let otherwise ← after "ELSE" inner.expr
  expect "END"
  return .caseWhen operand branches otherwise

def arguments (inner : Inner) (name : String) : Reader Expr := do
  if ← acceptMark .rightParen then return .call name false []
  if ← acceptMark .star then
    expectMark .rightParen
    return .call name false [.wildcard]
  let distinct ← accept "DISTINCT"
  let arguments ← separated inner.expr
  expectMark .rightParen
  return .call name distinct arguments

/-- The rest of an expression behind the word that opens it. -/
def special (inner : Inner) : Opening → Reader Expr
  | .literal value => return .literal value
  | .caseWhen => caseWhen inner
  | .currentUser => do
      if ← acceptMark .leftParen then expectMark .rightParen
      return .currentUser
  | .cast => cast inner
  | .doubleTest test => return .doubleTest test (← parenthesized columnRef)
  | .textMatches => return .textMatches (← parenthesized inner.expr)
  | .unnest => return .unnest (← parenthesized columnRef)
  | .matchAgainst => do
      discard (parenthesized identifier)
      expect "AGAINST"
      return .matchAgainst (← parenthesized inner.expr)
  | .call name => do
      expectMark .leftParen
      arguments inner name
  | .reserved | .column => unexpected "expression"

def wordExpr (inner : Inner) (word : String) (rest : List Token) :
    Except Failure (Expr × List Token) :=
  match opening word (rest.head? = some (.mark .leftParen)) with
  | .column => (Expr.column <$> columnRef) (.word word none :: rest)
  | .reserved => unexpected "expression" (.word word none :: rest)
  | other => special inner other rest

def parameter : Reader Expr
  | .word name _ :: rest => .ok (.parameter name, rest)
  | tokens => .error ⟨.missingParameterName, tokens.tail⟩

/-- An expression without operators. A minus directly in front of a number belongs to the number. -/
def primary (inner : Inner) : Reader Expr
  | .number digits _ :: rest => .ok (.literal (.number digits), rest)
  | .mark .minus :: .number digits _ :: rest => .ok (.literal (.number ("-" ++ digits)), rest)
  | .string value :: rest => .ok (.literal (.string value), rest)
  | .mark .colon :: rest => parameter rest
  | .mark .leftParen :: rest =>
      (do
        let expr ← inner.expr
        expectMark .rightParen
        return Expr.nested expr) rest
  | .word name none :: rest => wordExpr inner name rest
  | .word name (some quote) :: rest => (Expr.column <$> columnRef) (.word name (some quote) :: rest)
  | tokens => unexpected "expression" tokens

def sign : Reader (Option UnaryOperator)
  | .mark .minus :: .number digits long :: rest =>
      .ok (none, .mark .minus :: .number digits long :: rest)
  | .mark .minus :: rest => .ok (some .negate, rest)
  | .mark .plus :: rest => .ok (some .plus, rest)
  | tokens => .ok (none, tokens)

def signed (inner : Inner) : Reader Expr := do
  let signs ← many sign
  let operand ← primary inner
  return signs.foldr Expr.unary operand

/-- Operands with operators between them, grouped from the left. -/
def chain (operator : Reader (Option BinaryOperator)) (operand : Reader Expr) : Reader Expr := do
  let first ← operand
  let rest ← many do
    match ← operator with
    | none => return none
    | some operator => return some (operator, ← operand)
  return rest.foldl (fun left (operator, right) => .binary operator left right) first

def productOperator : Reader (Option BinaryOperator)
  | .mark .star :: rest => .ok (some .multiply, rest)
  | .mark .slash :: rest => .ok (some .divide, rest)
  | .mark .percent :: rest => .ok (some .modulo, rest)
  | tokens =>
      (do
        if ← accept "DIV" then return some .wholeDivide
        if ← accept "MOD" then return some .remainder
        return none : Reader (Option BinaryOperator)) tokens

def product (inner : Inner) : Reader Expr := chain productOperator (signed inner)

def sumOperator : Reader (Option BinaryOperator)
  | .mark .plus :: rest => .ok (some .add, rest)
  | .mark .minus :: rest => .ok (some .subtract, rest)
  | tokens => .ok (none, tokens)

def sum (inner : Inner) : Reader Expr := chain sumOperator (product inner)

def comparison : Reader (Option BinaryOperator)
  | .mark .equal :: rest | .mark .doubleEqual :: rest => .ok (some .equal, rest)
  | .mark .notEqual :: rest => .ok (some .notEqual, rest)
  | .mark .less :: rest => .ok (some .less, rest)
  | .mark .lessEqual :: rest => .ok (some .lessEqual, rest)
  | .mark .greater :: rest => .ok (some .greater, rest)
  | .mark .greaterEqual :: rest => .ok (some .greaterEqual, rest)
  | tokens => .ok (none, tokens)

def isTest (tested : Expr) : Reader Expr := do
  let negated ← accept "NOT"
  if ← accept "NULL" then return .isNull tested negated
  if ← accept "TRUE" then return .isTruth tested true negated
  if ← accept "FALSE" then return .isTruth tested false negated
  unexpected "NULL, TRUE or FALSE"

/-- The keywords that can stand behind NOT inside a predicate. -/
def predicateWords : List String := ["BETWEEN", "IN", "LIKE", "HAS", "HAS_LIKE"]

/-- Takes a NOT that belongs to the predicate behind it. -/
def acceptNot : Reader Bool
  | tokens =>
      if predicateWords.any fun word => startsWith ["NOT", word] tokens then .ok (true, tokens.drop 1)
      else .ok (false, tokens)

def membership (inner : Inner) (tested : Expr) (negated : Bool) : Reader Expr :=
  parenthesized do
    if (← isNext "SELECT") || (← isNext "WITH") then
      return .inQuery tested (← inner.query) negated
    return .inList tested (← separated inner.expr) negated

def predicate (inner : Inner) : Reader Expr := do
  let tested ← sum inner
  if let some operator ← comparison then return .binary operator tested (← sum inner)
  if ← accept "IS" then return ← isTest tested
  let negated ← acceptNot
  if ← accept "BETWEEN" then
    let low ← sum inner
    expect "AND"
    return .between tested low (← sum inner) negated
  if ← accept "IN" then return ← membership inner tested negated
  if ← accept "LIKE" then
    let pattern ← sum inner
    return .like tested pattern (← after "ESCAPE" (sum inner)) negated
  if ← accept "HAS" then
    return .has tested (← parenthesized (separated inner.expr)) false negated
  if ← accept "HAS_LIKE" then
    return .has tested (← parenthesized (separated inner.expr)) true negated
  return tested

def negation (inner : Inner) : Reader Expr := do
  let negations ← many (after "NOT" (pure ()))
  let operand ← predicate inner
  return negations.foldr (fun _ => Expr.negation) operand

def conjunction (inner : Inner) : Reader Expr :=
  chain (after "AND" (pure .and)) (negation inner)

def expr (inner : Inner) : Reader Expr :=
  chain (after "OR" (pure .or)) (conjunction inner)

/-! ## Selects and queries -/

def selectItem (inner : Inner) : Reader SelectItem := do
  let expr ← expr inner
  return ⟨expr, ← alias?⟩

def projection (inner : Inner) : Reader Projection := do
  if ← acceptMark .star then return .all
  return .items (← separated (selectItem inner))

def joinKind : Reader (Option JoinKind) := do
  if ← accept "JOIN" then return some .join
  if ← acceptAll ["INNER", "JOIN"] then return some .inner
  if ← acceptAll ["LEFT", "OUTER", "JOIN"] then return some .leftOuter
  if ← acceptAll ["LEFT", "JOIN"] then return some .left
  if ← acceptAll ["RIGHT", "OUTER", "JOIN"] then return some .rightOuter
  if ← acceptAll ["RIGHT", "JOIN"] then return some .right
  return none

def joined (inner : Inner) : Reader (Option (JoinKind × TableName × Expr)) := do
  match ← joinKind with
  | none => return none
  | some kind =>
      let right ← tableName
      expect "ON"
      return some (kind, right, ← expr inner)

def source (inner : Inner) : Reader Source := do
  let first ← tableName
  let joins ← many (joined inner)
  return joins.foldl (fun left (kind, right, condition) => .join left kind right condition)
    (.table first)

def sortKey (inner : Inner) : Reader SortKey := do
  let expr ← expr inner
  if ← accept "ASC" then return ⟨expr, some .ascending⟩
  if ← accept "DESC" then return ⟨expr, some .descending⟩
  return ⟨expr, none⟩

def page (inner : Inner) : Reader Page := do
  let limit ← sum inner
  return ⟨limit, ← after "OFFSET" (sum inner)⟩

/-- Whether DISTINCT is next; ALL is the default and is skipped. -/
def distinct : Reader Bool := do
  if ← accept "DISTINCT" then return true
  discard (accept "ALL")
  return false

def select (inner : Inner) : Reader Select := do
  expect "SELECT"
  let distinct ← distinct
  let projection ← projection inner
  expect "FROM"
  let source ← source inner
  let definingFilter ← after "DEFINING_WHERE" (expr inner)
  let filter ← after "WHERE" (expr inner)
  let groupBy ← afterAll ["GROUP", "BY"] (separated (expr inner))
  let orderBy ← afterAll ["ORDER", "BY"] (separated (sortKey inner))
  let page ← after "LIMIT" (page inner)
  return ⟨distinct, projection, source, definingFilter, filter, groupBy.getD [], orderBy.getD [], page⟩

/-- Whether ALL is next; DISTINCT is the default and is skipped. -/
def unionAll : Reader Bool := do
  if ← accept "ALL" then return true
  discard (accept "DISTINCT")
  return false

def unionBranch (inner : Inner) : Reader UnionBranch := do
  let all ← unionAll
  return ⟨all, ← select inner⟩

def commonTable (inner : Inner) : Reader CommonTable := do
  let name ← identifier
  let columns ← afterMark .leftParen do
    let columns ← separated identifier
    expectMark .rightParen
    return columns
  expect "AS"
  return ⟨name, columns.getD [], ← parenthesized inner.query⟩

def query (inner : Inner) : Reader Query := do
  let commonTables ← after "WITH" (separated (commonTable inner))
  let first ← select inner
  return ⟨commonTables, first, ← many (after "UNION" (unionBranch inner))⟩

/-- The readers for a given depth of nesting. At depth zero nothing is left to read. -/
def nested : Nat → Inner
  | 0 => ⟨unexpected "expression", unexpected "SELECT"⟩
  | depth + 1 => ⟨expr (nested depth), query (nested depth)⟩

/-- Reads a whole list of tokens, which a semicolon may end. -/
def complete {α : Type} (read : Reader α) : Reader α := do
  let result ← read
  discard (acceptMark .semicolon)
  unless (← get).isEmpty do unexpected "end of query"
  return result

end Grammar

/-- The tokens of a text that is not blank. -/
def Token.ofText (text : String) : Except ParseError (List Token) :=
  if text.toList.all Text.isBlank then .error .emptyQuery
  else
    match Token.scan text.toList with
    | .ok tokens => .ok tokens
    | .error fault => .error (.lexical fault.problem (fault.place text.toList))

def Query.parse (text : String) : Except ParseError Query := do
  let tokens ← Token.ofText text
  (Grammar.complete (Grammar.query (Grammar.nested tokens.length))).run' tokens

def Expr.parse (text : String) : Except ParseError Expr := do
  let tokens ← Token.ofText text
  (Grammar.complete (Grammar.expr (Grammar.nested tokens.length))).run' tokens

end TabularSql
