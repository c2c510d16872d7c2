import TabularSql.Proofs.Fragment
import TabularSql.Query.Grammar

/-!
# Lexemes

Canonical text is written as a sequence of lexemes: words, quoted names, numbers, strings, marks,
placeholders, table names and the spaces between them. The sequence keeps what the characters alone do
not show, namely where one element ends and which characters stand for a bound value. Spelled out, the
lexemes of a query are its canonical text.
-/

namespace TabularSql

set_option autoImplicit false

inductive Lexeme where
  | space
  | mark (known : Mark)
  | word (name : String)
  | quoted (quote : Char) (name : String)
  | number (digits : String)
  | string (value : String)
  | placeholder (name : String)
  | table (name : String)
  deriving DecidableEq, Repr

namespace Lexeme

def chars : Lexeme → List Char
  | space => [' ']
  | mark known => known.text.toList
  | word name => name.toList
  | quoted quote name => (Text.enclosed quote name).toList
  | number digits => digits.toList
  | string value => (Text.enclosed '\'' value).toList
  | placeholder name => ':' :: name.toList
  | table name => name.toList

def spelling (lexemes : List Lexeme) : List Char := lexemes.flatMap chars

def placeholder? : Lexeme → Option String
  | placeholder name => some name
  | _ => none

def placeholders (lexemes : List Lexeme) : List String := lexemes.filterMap placeholder?

/-- Words with a space in front of each. -/
def phrase (words : List String) : List Lexeme := words.flatMap fun name => [space, word name]

def join (separator : List Lexeme) : List (List Lexeme) → List Lexeme
  | [] => []
  | [only] => only
  | first :: rest => first ++ separator ++ join separator rest

/-- What separates the items of a list. -/
def comma : List Lexeme := [mark .comma, space]

/-- A list or an expression in parentheses with spaces inside. -/
def spaced (lexemes : List Lexeme) : List Lexeme :=
  [mark .leftParen, space] ++ lexemes ++ [space, mark .rightParen]

def tight (lexemes : List Lexeme) : List Lexeme :=
  [mark .leftParen] ++ lexemes ++ [mark .rightParen]

end Lexeme

open Lexeme

namespace Identifier

def lexeme (identifier : Identifier) : Lexeme :=
  match identifier.quote with
  | none => word identifier.name
  | some quote => quoted quote identifier.name

end Identifier

namespace ColumnRef

def lexemes (column : ColumnRef) : List Lexeme :=
  match column.qualifier with
  | none => [column.name.lexeme]
  | some qualifier => [qualifier.lexeme, mark .period, column.name.lexeme]

end ColumnRef

namespace Literal

def lexeme : Literal → Lexeme
  | null => word "NULL"
  | boolean true => word "TRUE"
  | boolean false => word "FALSE"
  | number digits => .number digits
  | string value => .string value

end Literal

namespace BinaryOperator

def lexeme : BinaryOperator → Lexeme
  | add => mark .plus
  | subtract => mark .minus
  | multiply => mark .star
  | divide => mark .slash
  | modulo => mark .percent
  | wholeDivide => word "DIV"
  | remainder => word "MOD"
  | equal => mark .equal
  | notEqual => mark .notEqual
  | less => mark .less
  | lessEqual => mark .lessEqual
  | greater => mark .greater
  | greaterEqual => mark .greaterEqual
  | and => word "AND"
  | or => word "OR"

def lexemes (operator : BinaryOperator) : List Lexeme :=
  if operator.isSign then [operator.lexeme] else [space, operator.lexeme, space]

end BinaryOperator

namespace UnaryOperator

def lexemes : UnaryOperator → List Lexeme
  | not => [word "NOT", space]
  | negate => [mark .minus]
  | plus => [mark .plus]

end UnaryOperator

namespace CastTarget

def lexeme : CastTarget → Lexeme
  | type logical => word logical.name
  | column id => number (Number.decimal id.toNat)
  | physical name => word name

end CastTarget

namespace JoinKind

def words : JoinKind → List String
  | join => ["JOIN"]
  | inner => ["INNER", "JOIN"]
  | left => ["LEFT", "JOIN"]
  | leftOuter => ["LEFT", "OUTER", "JOIN"]
  | right => ["RIGHT", "JOIN"]
  | rightOuter => ["RIGHT", "OUTER", "JOIN"]

end JoinKind

namespace TableName

def lexemes (named : TableName) : List Lexeme :=
  table named.name :: (named.alias?.map fun name => [space, name.lexeme]).getD []

end TableName

def notWords (negated : Bool) : List String :=
  if negated then ["NOT"] else []

mutual

def Expr.lexemes : Expr → List Lexeme
  | .literal value => [value.lexeme]
  | .column reference => reference.lexemes
  | .parameter name => [placeholder name]
  | .currentUser => word "CURRENT_USER" :: tight []
  | .wildcard => [mark .star]
  | .call name distinct arguments =>
    word name :: tight ((if distinct then [word "DISTINCT", space] else []) ++
      join (if isSetFunctionName name then comma else [mark .comma])
        (Expr.lexemeLists arguments))
  | .cast operand target =>
    word "CAST" :: tight (operand.lexemes ++ phrase ["AS"] ++ [space, target.lexeme])
  | .caseWhen operand branches otherwise =>
    word "CASE" :: (Expr.lexemesAfter [space] operand ++ Expr.branchLexemes branches ++
      Expr.lexemesAfter (phrase ["ELSE"] ++ [space]) otherwise ++ phrase ["END"])
  | .binary operator left right => left.lexemes ++ operator.lexemes ++ right.lexemes
  | .unary operator operand => operator.lexemes ++ operand.lexemes
  | .nested inner => spaced inner.lexemes
  | .isNull tested negated => tested.lexemes ++ phrase (["IS"] ++ notWords negated ++ ["NULL"])
  | .isTruth tested value negated =>
    tested.lexemes ++ phrase (["IS"] ++ notWords negated ++ [if value then "TRUE" else "FALSE"])
  | .between tested low high negated =>
    tested.lexemes ++ phrase (notWords negated ++ ["BETWEEN"]) ++ [space] ++ low.lexemes ++
      phrase ["AND"] ++ [space] ++ high.lexemes
  | .inList tested candidates negated =>
    tested.lexemes ++ phrase (notWords negated ++ ["IN"]) ++ [space] ++
      spaced (join comma (Expr.lexemeLists candidates))
  | .inQuery tested candidates negated =>
    tested.lexemes ++ phrase (notWords negated ++ ["IN"]) ++ [space] ++ spaced candidates.lexemes
  | .like tested pattern escape negated =>
    tested.lexemes ++ phrase (notWords negated ++ ["LIKE"]) ++ [space] ++ pattern.lexemes ++
      Expr.lexemesAfter (phrase ["ESCAPE"] ++ [space]) escape
  | .has tested values pattern negated =>
    tested.lexemes ++ phrase (notWords negated ++ [if pattern then "HAS_LIKE" else "HAS"]) ++
      [space] ++ spaced (join comma (Expr.lexemeLists values))
  | .doubleTest test column => word test.text :: tight column.lexemes
  | .textMatches text => word "TEXT_MATCHES" :: tight text.lexemes
  | .matchAgainst text =>
    word "MATCH" :: (tight [word "ROW_SEARCH_CONTENT"] ++ phrase ["AGAINST"] ++ tight text.lexemes)
  | .unnest column => word "UNNEST" :: tight column.lexemes

def Expr.lexemeLists : List Expr → List (List Lexeme)
  | [] => []
  | expr :: rest => expr.lexemes :: Expr.lexemeLists rest

def Expr.lexemesAfter (before : List Lexeme) : Option Expr → List Lexeme
  | none => []
  | some expr => before ++ expr.lexemes

def Expr.branchLexemes : List (Expr × Expr) → List Lexeme
  | [] => []
  | (condition, result) :: rest =>
    phrase ["WHEN"] ++ [space] ++ condition.lexemes ++ phrase ["THEN"] ++ [space] ++
      result.lexemes ++ Expr.branchLexemes rest

def Source.lexemes : Source → List Lexeme
  | .table only => only.lexemes
  | .join left kind right condition =>
    left.lexemes ++ phrase kind.words ++ [space] ++ right.lexemes ++ phrase ["ON"] ++ [space] ++
      condition.lexemes

def SelectItem.lexemeLists : List SelectItem → List (List Lexeme)
  | [] => []
  | ⟨expr, name⟩ :: rest =>
    (expr.lexemes ++ (name.map fun name => phrase ["AS"] ++ [space, name.lexeme]).getD []) ::
      SelectItem.lexemeLists rest

def Projection.lexemes : Projection → List Lexeme
  | .all => [mark .star]
  | .items list => join comma (SelectItem.lexemeLists list)

def SortKey.lexemeLists : List SortKey → List (List Lexeme)
  | [] => []
  | ⟨expr, direction⟩ :: rest =>
    (expr.lexemes ++ (direction.map fun direction => phrase [direction.text]).getD []) ::
      SortKey.lexemeLists rest

def Page.lexemesAfter : Option Page → List Lexeme
  | none => []
  | some ⟨limit, offset⟩ =>
    phrase ["LIMIT"] ++ [space] ++ limit.lexemes ++
      Expr.lexemesAfter (phrase ["OFFSET"] ++ [space]) offset

def Select.lexemes : Select → List Lexeme
  | ⟨distinct, projection, source, definingFilter, filter, groupBy, orderBy, page⟩ =>
    [word "SELECT", space] ++ (if distinct then [word "DISTINCT", space] else []) ++
      projection.lexemes ++ phrase ["FROM"] ++ [space] ++ source.lexemes ++
      Expr.lexemesAfter (phrase ["DEFINING_WHERE"] ++ [space]) definingFilter ++
      Expr.lexemesAfter (phrase ["WHERE"] ++ [space]) filter ++
      (if groupBy.isEmpty then []
       else phrase ["GROUP", "BY"] ++ [space] ++ join comma (Expr.lexemeLists groupBy)) ++
      (if orderBy.isEmpty then []
       else phrase ["ORDER", "BY"] ++ [space] ++ join comma (SortKey.lexemeLists orderBy)) ++
      Page.lexemesAfter page

def UnionBranch.lexemes : List UnionBranch → List Lexeme
  | [] => []
  | ⟨all, select⟩ :: rest =>
    phrase ["UNION"] ++ (if all then phrase ["ALL"] else []) ++ [space] ++ select.lexemes ++
      UnionBranch.lexemes rest

def CommonTable.lexemeLists : List CommonTable → List (List Lexeme)
  | [] => []
  | ⟨name, columns, query⟩ :: rest =>
    (name.lexeme :: ((if columns.isEmpty then []
      else space :: tight (join comma (columns.map fun column => [column.lexeme]))) ++
      phrase ["AS"] ++ [space] ++ tight query.lexemes)) :: CommonTable.lexemeLists rest

def CommonTable.clauseLexemes : Option (List CommonTable) → List Lexeme
  | none => []
  | some elements =>
    [word "WITH", space] ++ join comma (CommonTable.lexemeLists elements) ++ [space]

def Query.lexemes : Query → List Lexeme
  | ⟨commonTables, first, unions⟩ =>
    CommonTable.clauseLexemes commonTables ++ first.lexemes ++ UnionBranch.lexemes unions

end

namespace SelectItem

def lexemes (item : SelectItem) : List Lexeme :=
  item.expr.lexemes ++ (item.alias?.map fun name => phrase ["AS"] ++ [space, name.lexeme]).getD []

end SelectItem

namespace SortKey

def lexemes (key : SortKey) : List Lexeme :=
  key.expr.lexemes ++ (key.direction.map fun direction => phrase [direction.text]).getD []

end SortKey

namespace CommonTable

def columnLexemes (columns : List Identifier) : List Lexeme :=
  if columns.isEmpty then []
  else space :: tight (join comma (columns.map fun column => [column.lexeme]))

def lexemes (element : CommonTable) : List Lexeme :=
  element.name.lexeme :: (columnLexemes element.columns ++ phrase ["AS"] ++ [space] ++
    tight element.query.lexemes)

end CommonTable

/-! ## Lists of texts and of lexemes -/

@[simp] theorem Expr.texts_eq_map (list : List Expr) : Expr.texts list = list.map Expr.text := by
  induction list with
  | nil => rfl
  | cons expr rest ih => simp [Expr.texts, ih]

@[simp] theorem Expr.lexeme_lists_eq_map (list : List Expr) :
    Expr.lexemeLists list = list.map Expr.lexemes := by
  induction list with
  | nil => rfl
  | cons expr rest ih => simp [Expr.lexemeLists, ih]

@[simp] theorem SelectItem.texts_eq_map (list : List SelectItem) :
    SelectItem.texts list = list.map SelectItem.text := by
  induction list with
  | nil => rfl
  | cons item rest ih => simp [SelectItem.texts, ih]

@[simp] theorem SelectItem.lexeme_lists_eq_map (list : List SelectItem) :
    SelectItem.lexemeLists list = list.map SelectItem.lexemes := by
  induction list with
  | nil => rfl
  | cons item rest ih =>
    obtain ⟨expr, name⟩ := item
    simp [SelectItem.lexemeLists, SelectItem.lexemes, ih]

@[simp] theorem SortKey.texts_eq_map (list : List SortKey) :
    SortKey.texts list = list.map SortKey.text := by
  induction list with
  | nil => rfl
  | cons key rest ih => simp [SortKey.texts, ih]

@[simp] theorem SortKey.lexeme_lists_eq_map (list : List SortKey) :
    SortKey.lexemeLists list = list.map SortKey.lexemes := by
  induction list with
  | nil => rfl
  | cons key rest ih =>
    obtain ⟨expr, direction⟩ := key
    simp [SortKey.lexemeLists, SortKey.lexemes, ih]

@[simp] theorem CommonTable.texts_eq_map (list : List CommonTable) :
    CommonTable.texts list = list.map CommonTable.text := by
  induction list with
  | nil => rfl
  | cons element rest ih => simp [CommonTable.texts, ih]

@[simp] theorem CommonTable.lexeme_lists_eq_map (list : List CommonTable) :
    CommonTable.lexemeLists list = list.map CommonTable.lexemes := by
  induction list with
  | nil => rfl
  | cons element rest ih =>
    obtain ⟨name, columns, query⟩ := element
    simp [CommonTable.lexemeLists, CommonTable.lexemes, CommonTable.columnLexemes, ih]

/-! ## Canonical text is the spelling of the lexemes -/

namespace Lexeme

@[simp] theorem spelling_nil : spelling [] = [] := rfl

@[simp] theorem spelling_cons (lexeme : Lexeme) (rest : List Lexeme) :
    spelling (lexeme :: rest) = lexeme.chars ++ spelling rest := rfl

@[simp] theorem spelling_append (first second : List Lexeme) :
    spelling (first ++ second) = spelling first ++ spelling second := by
  simp [spelling]

theorem spelling_join {α : Type} (separator : String) (between : List Lexeme)
    (text : α → String) (lexemes : α → List Lexeme) (items : List α)
    (separators : separator.toList = spelling between)
    (spelled : ∀ item ∈ items, (text item).toList = spelling (lexemes item)) :
    (joinTexts separator (items.map text)).toList = spelling (join between (items.map lexemes)) := by
  induction items with
  | nil => rfl
  | cons first rest ih =>
    have own := spelled first (by simp)
    have others := ih fun item member => spelled item (by simp [member])
    cases rest with
    | nil => simpa [joinTexts, join] using own
    | cons second rest =>
      simp only [List.map_cons] at others
      simp only [List.map_cons, joinTexts, join, String.toList_append, spelling_append, own,
        separators, others]

end Lexeme

theorem Identifier.text_spelled (identifier : Identifier) :
    identifier.text.toList = identifier.lexeme.chars := by
  obtain ⟨name, quote⟩ := identifier
  cases quote <;> rfl

theorem ColumnRef.text_spelled (column : ColumnRef) :
    column.text.toList = spelling column.lexemes := by
  obtain ⟨qualifier, name⟩ := column
  cases qualifier with
  | none => simp [ColumnRef.text, ColumnRef.lexemes, name.text_spelled]
  | some qualifier =>
    simp [ColumnRef.text, ColumnRef.lexemes, name.text_spelled, qualifier.text_spelled, chars,
      Mark.text]

theorem Literal.text_spelled (literal : Literal) : literal.text.toList = literal.lexeme.chars := by
  cases literal with
  | null | number | string => rfl
  | boolean value => cases value <;> rfl

theorem BinaryOperator.text_spelled (operator : BinaryOperator) :
    operator.spacedText.toList = spelling operator.lexemes := by
  cases operator <;> rfl

theorem TableName.text_spelled (named : TableName) :
    named.text.toList = spelling named.lexemes := by
  obtain ⟨name, alias?⟩ := named
  cases alias? with
  | none => simp [TableName.text, TableName.lexemes, chars]
  | some other => simp [TableName.text, TableName.lexemes, chars, other.text_spelled]

def Fragment.text : Fragment → String
  | .expr whole => whole.text
  | .select whole => whole.text
  | .query whole => whole.text

def Fragment.lexemes : Fragment → List Lexeme
  | .expr whole => whole.lexemes
  | .select whole => whole.lexemes
  | .query whole => whole.lexemes

/-- The canonical text of what is inside is spelled out by its lexemes. -/
def Fragment.Spelled (fragment : Fragment) : Prop :=
  fragment.text.toList = spelling fragment.lexemes

theorem Expr.text_after_spelled (keyword : String) (before : List Lexeme) (optional : Option Expr)
    (keywords : keyword.toList = spelling before)
    (spelled : ∀ expr ∈ optional, expr.text.toList = spelling expr.lexemes) :
    (Expr.textAfter keyword optional).toList = spelling (Expr.lexemesAfter before optional) := by
  cases optional with
  | none => rfl
  | some expr =>
    simp [Expr.textAfter, Expr.lexemesAfter, keywords, spelled expr rfl]

theorem Expr.branches_spelled (branches : List (Expr × Expr))
    (spelled : ∀ branch ∈ branches, branch.1.text.toList = spelling branch.1.lexemes ∧
      branch.2.text.toList = spelling branch.2.lexemes) :
    (Expr.branchTexts branches).toList = spelling (Expr.branchLexemes branches) := by
  induction branches with
  | nil => rfl
  | cons branch rest ih =>
    obtain ⟨condition, result⟩ := branch
    have own := spelled (condition, result) (by simp)
    have others := ih fun branch member => spelled branch (by simp [member])
    simp [Expr.branchTexts, Expr.branchLexemes, own.1, own.2, others, phrase, chars]

theorem Expr.listed_spelled (separator : String) (between : List Lexeme) (list : List Expr)
    (separators : separator.toList = spelling between)
    (spelled : ∀ part ∈ list.map Fragment.expr, part.Spelled) :
    (joinTexts separator (list.map Expr.text)).toList =
      spelling (join between (list.map Expr.lexemes)) :=
  spelling_join _ _ _ _ _ separators fun expr member =>
    spelled (.expr expr) (List.mem_map_of_mem member)

theorem Expr.text_spelled_of_inside (whole : Expr)
    (inside : ∀ part ∈ whole.inside, part.Spelled) : whole.text.toList = spelling whole.lexemes := by
  have direct (expr : Expr) (member : Fragment.expr expr ∈ whole.inside) :
      expr.text.toList = spelling expr.lexemes := inside _ member
  have optional {clause : Option Expr}
      (member : ∀ part ∈ clause.toList.map Fragment.expr, part ∈ whole.inside) :
      ∀ expr ∈ clause, expr.text.toList = spelling expr.lexemes := by
    intro expr given
    exact direct expr (member _ (by simp [Option.mem_def.mp given]))
  cases whole with
  | literal value =>
    dsimp only [Expr.text, Expr.lexemes]
    simp [value.text_spelled]
  | column reference => exact reference.text_spelled
  | parameter name =>
    dsimp only [Expr.text, Expr.lexemes]
    simp [chars]
  | currentUser | wildcard => rfl
  | call name distinct arguments =>
    have separated := Expr.listed_spelled (if isSetFunctionName name then ", " else ",")
      (if isSetFunctionName name then comma else [mark .comma]) arguments
      (by split <;> rfl) inside
    dsimp only [Expr.text, Expr.lexemes]
    simp only [Expr.texts_eq_map, Expr.lexeme_lists_eq_map, String.toList_append, separated, tight,
      spelling_append, spelling_cons]
    cases distinct <;> simp [chars, Mark.text]
  | cast operand target =>
    have own := direct operand (by simp)
    have spelled : target.text.toList = target.lexeme.chars := by cases target <;> rfl
    dsimp only [Expr.text, Expr.lexemes]
    simp [own, spelled, tight, phrase, chars, Mark.text]
  | caseWhen operand branches otherwise =>
    have first := Expr.text_after_spelled " " [space] operand rfl
      (optional fun part member => by simp [member])
    have last := Expr.text_after_spelled " ELSE " (phrase ["ELSE"] ++ [space]) otherwise rfl
      (optional fun part member => by simp [member])
    have middle := Expr.branches_spelled branches fun branch member =>
      ⟨direct _ (by simp; grind), direct _ (by simp; grind)⟩
    dsimp only [Expr.text, Expr.lexemes]
    simp [first, middle, last, phrase, chars]
  | binary operator left right =>
    have first := direct left (by simp)
    have second := direct right (by simp)
    dsimp only [Expr.text, Expr.lexemes]
    simp [first, second, operator.text_spelled]
  | unary operator operand =>
    have own := direct operand (by simp)
    dsimp only [Expr.text, Expr.lexemes]
    cases operator <;> simp [own, UnaryOperator.text, UnaryOperator.lexemes, chars, Mark.text]
  | nested inner =>
    have own := direct inner (by simp)
    dsimp only [Expr.text, Expr.lexemes]
    simp [own, spaced, chars, Mark.text]
  | isNull tested negated =>
    have own := direct tested (by simp)
    dsimp only [Expr.text, Expr.lexemes]
    cases negated <;> simp [own, notText, notWords, phrase, chars]
  | isTruth tested value negated =>
    have own := direct tested (by simp)
    dsimp only [Expr.text, Expr.lexemes]
    cases negated <;> cases value <;> simp [own, notText, notWords, phrase, chars]
  | between tested low high negated =>
    have own := direct tested (by simp)
    have least := direct low (by simp)
    have most := direct high (by simp)
    dsimp only [Expr.text, Expr.lexemes]
    cases negated <;> simp [own, least, most, notText, notWords, phrase, chars]
  | inList tested candidates negated =>
    have own := direct tested (by simp)
    have separated := Expr.listed_spelled ", " comma candidates rfl
      fun part member => inside part (by simp only [Expr.inside, List.mem_cons, member, or_true])
    dsimp only [Expr.text, Expr.lexemes]
    cases negated <;>
      simp [own, separated, notText, notWords, phrase, spaced, chars, Mark.text]
  | inQuery tested candidates negated =>
    have own := direct tested (by simp)
    have query : candidates.text.toList = spelling candidates.lexemes :=
      inside (.query candidates) (by simp)
    dsimp only [Expr.text, Expr.lexemes]
    cases negated <;> simp [own, query, notText, notWords, phrase, spaced, chars, Mark.text]
  | like tested pattern escape negated =>
    have own := direct tested (by simp)
    have second := direct pattern (by simp)
    have last := Expr.text_after_spelled " ESCAPE " (phrase ["ESCAPE"] ++ [space]) escape rfl
      (optional fun part member => by
        simp only [Expr.inside, List.mem_cons, member, or_true])
    dsimp only [Expr.text, Expr.lexemes]
    cases negated <;> simp [own, second, last, notText, notWords, phrase, chars]
  | has tested values pattern negated =>
    have own := direct tested (by simp)
    have separated := Expr.listed_spelled ", " comma values rfl
      fun part member => inside part (by simp only [Expr.inside, List.mem_cons, member, or_true])
    dsimp only [Expr.text, Expr.lexemes]
    cases negated <;> cases pattern <;>
      simp [own, separated, notText, notWords, phrase, spaced, chars, Mark.text]
  | doubleTest test reference =>
    dsimp only [Expr.text, Expr.lexemes]
    simp [reference.text_spelled, tight, chars, Mark.text]
  | unnest reference =>
    dsimp only [Expr.text, Expr.lexemes]
    simp [reference.text_spelled, tight, chars, Mark.text]
  | textMatches text =>
    have own := direct text (by simp)
    dsimp only [Expr.text, Expr.lexemes]
    simp [own, tight, chars, Mark.text]
  | matchAgainst text =>
    have own := direct text (by simp)
    dsimp only [Expr.text, Expr.lexemes]
    simp [own, tight, phrase, chars, Mark.text]

theorem Source.text_spelled : ∀ source : Source,
    (∀ condition ∈ source.conditions, condition.text.toList = spelling condition.lexemes) →
    source.text.toList = spelling source.lexemes
  | .table only, _ => only.text_spelled
  | .join left kind right condition, inside => by
      have first := Source.text_spelled left fun other member =>
        inside other (by simp [Source.conditions, member])
      have last := inside condition (by simp [Source.conditions])
      dsimp only [Source.text, Source.lexemes]
      cases kind <;>
        simp [first, last, right.text_spelled, JoinKind.text, JoinKind.words, phrase, chars]

theorem SelectItem.text_spelled (item : SelectItem)
    (own : item.expr.text.toList = spelling item.expr.lexemes) :
    item.text.toList = spelling item.lexemes := by
  obtain ⟨expr, name⟩ := item
  cases name with
  | none =>
    dsimp only [SelectItem.text, SelectItem.lexemes]
    simpa using own
  | some name =>
    dsimp only [SelectItem.text, SelectItem.lexemes]
    simp only at own
    simp [own, name.text_spelled, phrase, chars]

theorem SortKey.text_spelled (key : SortKey)
    (own : key.expr.text.toList = spelling key.expr.lexemes) :
    key.text.toList = spelling key.lexemes := by
  obtain ⟨expr, direction⟩ := key
  cases direction with
  | none =>
    dsimp only [SortKey.text, SortKey.lexemes]
    simpa using own
  | some direction =>
    dsimp only [SortKey.text, SortKey.lexemes]
    simp only at own
    simp [own, phrase, chars]

theorem Page.text_after_spelled (page : Option Page)
    (own : ∀ expr ∈ (page.map Page.exprs).getD [], expr.text.toList = spelling expr.lexemes) :
    (Page.textAfter page).toList = spelling (Page.lexemesAfter page) := by
  cases page with
  | none => rfl
  | some page =>
    obtain ⟨limit, offset⟩ := page
    have first := own limit (by simp [Page.exprs])
    have last := Expr.text_after_spelled " OFFSET " (phrase ["OFFSET"] ++ [space]) offset rfl
      fun expr member => own expr (by simp [Page.exprs, Option.mem_def.mp member])
    dsimp only [Page.textAfter, Page.text, Page.lexemesAfter]
    simp [first, last, phrase, chars]

theorem Select.text_spelled_of_inside (select : Select)
    (inside : ∀ expr ∈ select.exprs, expr.text.toList = spelling expr.lexemes) :
    select.text.toList = spelling select.lexemes := by
  obtain ⟨distinct, projection, source, definingFilter, filter, groupBy, orderBy, page⟩ := select
  simp only [Select.exprs, List.mem_append] at inside
  have projected : projection.text.toList = spelling projection.lexemes := by
    cases projection with
    | all => rfl
    | items list =>
      dsimp only [Projection.text, Projection.lexemes]
      rw [SelectItem.texts_eq_map, SelectItem.lexeme_lists_eq_map]
      exact spelling_join _ _ _ _ _ rfl fun item member => item.text_spelled
        (inside item.expr (by simp [Projection.itemList]; grind))
  have from_ := Source.text_spelled source fun condition member => inside condition (by simp [member])
  have defining := Expr.text_after_spelled " DEFINING_WHERE " (phrase ["DEFINING_WHERE"] ++ [space])
    definingFilter rfl fun expr member => inside expr (by simp [Option.mem_def.mp member])
  have where_ := Expr.text_after_spelled " WHERE " (phrase ["WHERE"] ++ [space])
    filter rfl fun expr member => inside expr (by simp [Option.mem_def.mp member])
  have groups := Expr.listed_spelled ", " comma groupBy rfl (by
    intro part member
    obtain ⟨expr, listed, rfl⟩ := List.mem_map.mp member
    exact inside expr (by simp [listed]))
  have keys := spelling_join ", " comma SortKey.text SortKey.lexemes orderBy rfl fun key member =>
    key.text_spelled (inside key.expr (by simp; grind))
  have window := Page.text_after_spelled page fun expr member => inside expr (by simp [member])
  dsimp only [Select.text, Select.lexemes]
  simp only [Expr.texts_eq_map, SortKey.texts_eq_map, Expr.lexeme_lists_eq_map,
    SortKey.lexeme_lists_eq_map, String.toList_append, spelling_append, projected, from_, defining,
    where_, window]
  congr 1
  congr 1
  · congr 1
    · cases distinct <;> simp [phrase, chars]
    · split
      · rfl
      · simp [groups, phrase, chars]
  · split
    · rfl
    · simp [keys, phrase, chars]

theorem UnionBranch.texts_spelled (branches : List UnionBranch)
    (inside : ∀ branch ∈ branches,
      branch.select.text.toList = spelling branch.select.lexemes) :
    (UnionBranch.texts branches).toList = spelling (UnionBranch.lexemes branches) := by
  induction branches with
  | nil => rfl
  | cons branch rest ih =>
    have own := inside branch (by simp)
    have others := ih fun branch member => inside branch (by simp [member])
    obtain ⟨all, select⟩ := branch
    dsimp only [UnionBranch.texts, UnionBranch.lexemes]
    simp only at own
    cases all <;> simp [own, others, phrase, chars]

theorem CommonTable.text_spelled (element : CommonTable)
    (own : element.query.text.toList = spelling element.query.lexemes) :
    element.text.toList = spelling element.lexemes := by
  obtain ⟨name, columns, query⟩ := element
  have listed := spelling_join ", " comma Identifier.text (fun column => [column.lexeme]) columns rfl
    fun column _ => by simp [column.text_spelled]
  dsimp only [CommonTable.text, CommonTable.lexemes, CommonTable.columnLexemes]
  simp only at own
  split <;> simp [own, listed, name.text_spelled, tight, phrase, chars, Mark.text]

theorem Query.text_spelled_of_inside (query : Query)
    (inside : ∀ part ∈ (Fragment.query query).inside, part.Spelled) :
    query.text.toList = spelling query.lexemes := by
  obtain ⟨commonTables, first, unions⟩ := query
  have own : first.text.toList = spelling first.lexemes :=
    inside (.select first) (by simp [Fragment.inside, Query.parts])
  have branches := UnionBranch.texts_spelled unions fun branch member =>
    inside (.select branch.select) (by simp [Fragment.inside, Query.parts]; grind)
  have clause : (CommonTable.clause commonTables).toList =
      spelling (CommonTable.clauseLexemes commonTables) := by
    cases commonTables with
    | none => rfl
    | some elements =>
      have listed := spelling_join ", " comma CommonTable.text CommonTable.lexemes elements rfl
        fun element member => element.text_spelled
          (inside (.query element.query) (by simp [Fragment.inside, Query.elements]; grind))
      dsimp only [CommonTable.clause, CommonTable.clauseLexemes]
      simp [listed, chars]
  dsimp only [Query.text, Query.lexemes]
  simp only [String.toList_append, spelling_append, own, branches, clause]

theorem Fragment.text_spelled (fragment : Fragment) : fragment.Spelled := by
  induction fragment using Fragment.induction with
  | step whole ih =>
    cases whole with
    | expr whole => exact whole.text_spelled_of_inside ih
    | select whole =>
      exact whole.text_spelled_of_inside fun expr member =>
        ih (.expr expr) (List.mem_map_of_mem member)
    | query whole => exact whole.text_spelled_of_inside ih

theorem Expr.text_eq (expr : Expr) : expr.text = String.ofList (spelling expr.lexemes) := by
  rw [← show expr.text.toList = spelling expr.lexemes from Fragment.text_spelled (.expr expr),
    String.ofList_toList]

theorem Query.text_eq (query : Query) : query.text = String.ofList (spelling query.lexemes) := by
  rw [← show query.text.toList = spelling query.lexemes from Fragment.text_spelled (.query query),
    String.ofList_toList]

end TabularSql
