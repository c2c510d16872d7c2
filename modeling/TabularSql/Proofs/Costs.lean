import TabularSql.Proofs.Shape
import TabularSql.Proofs.Weighing

/-!
# The cost of canonical text

A tree costs the signs that its canonical text is written with, and a charge for every name that its text
leaves without the quotes it needs and for every table version with a blank in it.
-/

namespace TabularSql

set_option autoImplicit false

/-! ## Letters in upper case -/

namespace Text

theorem toUpper_cases (char : Char) : char.toUpper = char ∨
    char.toUpper.isAlpha = true := by
  unfold Char.toUpper
  split
  · next lower =>
      have first : 'a'.val = 97 := by decide
      have last : 'z'.val = 122 := by decide
      simp only [first, last, UInt32.le_iff_toNat_le] at lower
      refine .inr ?_
      simp only [Text.isAlpha_eq, Bool.or_eq_true, decide_eq_true_eq]
      refine .inl ?_
      simp only [ge_iff_le, UInt32.le_iff_toNat_le, UInt32.toNat_add]
      simp at lower ⊢
      omega
  · exact .inl rfl

end Text

namespace Token

theorem upper_start {char : Char} (start : isWordStart char = true) :
    isWordStart char.toUpper = true := by
  rcases Text.toUpper_cases char with same | letter
  · rwa [same]
  · simp [isWordStart, Text.isAlphabetic, letter]

theorem upper_part {char : Char} (part : isWordPart char = true) :
    isWordPart char.toUpper = true := by
  rcases Text.toUpper_cases char with same | letter
  · rwa [same]
  · simp [isWordPart, Text.isAlphabetic, letter]

theorem upper_parts {chars : List Char} (parts : AllParts chars) :
    AllParts (chars.map Char.toUpper) := by
  intro char member
  obtain ⟨own, listed, rfl⟩ := List.mem_map.mp member
  exact upper_part (parts own listed)

theorem upper_sigil {sigil : List Char} {next : Char} (opens : Sigil sigil next) :
    Sigil sigil next.toUpper := by
  rcases Text.toUpper_cases next with same | letter
  · rwa [same]
  · have apart {other : Char} (sign : other.isAlpha = false) : next.toUpper ≠ other := by
      rintro rfl
      simp [letter] at sign
    rcases opens with ⟨rfl, _⟩ | ⟨rfl, _⟩ | ⟨rfl, _⟩
    · exact .inl ⟨rfl, by simp [apart]⟩
    · exact .inr (.inl ⟨rfl, by simp [apart]⟩)
    · exact .inr (.inr ⟨rfl, by simp [apart]⟩)

theorem upper_word {name : String} (shape : WordShape name.toList) :
    WordShape (Text.upper name).toList := by
  rw [Text.upper, String.toList_ofList]
  generalize name.toList = chars at shape
  cases shape with
  | letters start parts => exact .letters (upper_start start) (upper_parts parts)
  | @sigil sigil rest next opens parts =>
    have same : sigil.map Char.toUpper = sigil := by
      rcases opens with ⟨rfl, _⟩ | ⟨rfl, _⟩ | ⟨rfl, _⟩ <;> decide
    rw [List.map_append, List.map_cons, same]
    exact .sigil (upper_sigil opens) (upper_parts parts)

end Token

namespace Text

theorem signs_upper (chars : List Char) : signs (chars.map Char.toUpper) = signs chars := by
  have unchanged {char : Char} (sign : isSign char = true) : char.toUpper = char := by
    simp only [isSign, Bool.or_eq_true, decide_eq_true_eq] at sign
    rcases sign with (rfl | rfl) | rfl <;> decide
  have upper (char : Char) : isSign char.toUpper = isSign char := by
    by_cases sign : isSign char = true
    · rw [unchanged sign]
    · rcases toUpper_cases char with same | letter
      · rw [same]
      · rw [Bool.not_eq_true] at sign
        rw [sign]
        refine Bool.eq_false_iff.mpr fun other => ?_
        simp only [isSign, Bool.or_eq_true, decide_eq_true_eq] at other
        rcases other with (same | same) | same <;> simp [same] at letter
  induction chars with
  | nil => rfl
  | cons char rest ih => rw [List.map_cons, signs_cons, signs_cons, upper, ih]

end Text

namespace Token

theorem fee_upper (name : String) : fee (Text.upper name) ≤ fee name := by
  unfold fee
  by_cases plain : IsPlainWord name
  · have upper : IsPlainWord (Text.upper name) :=
      isPlainWord_iff.mpr (upper_word (isPlainWord_iff.mp plain))
    simp [plain, upper]
  · rw [if_neg plain]
    split <;> omega

/-- A name costs no more without its quotes than the word it was read from is worth. -/
theorem fee_le_weight (name : String) (quote : Option Char) :
    Text.signs name.toList + fee name ≤ (word name quote).weight := by
  cases quote with
  | none => exact Nat.le_refl _
  | some quote =>
    have doubled := Text.signs_doubled_ge quote name.toList
    have bound : fee name ≤ 2 := by
      unfold fee
      split <;> omega
    simp only [weight, signs]
    omega

end Token

/-! ## Lexemes -/

theorem Token.part_not_blank {char : Char} (part : isWordPart char = true) :
    Text.isBlank char = false := by
  simp only [isWordPart, Bool.or_eq_true, decide_eq_true_eq] at part
  rcases part with ((((alphabetic | digit) | rfl) | rfl) | rfl) | rfl
  · exact Text.alphabetic_not_blank alphabetic
  · exact digit_not_blank digit
  all_goals decide

namespace TableName

/-- Whether a blank stands behind the first point. -/
def isTorn (name : List Char) : Bool := (name.dropWhile (· ≠ '.')).any Text.isBlank

theorem isTorn_append {word version : List Char} (whole : isTorn word = false)
    (solid : ∀ char ∈ version, Text.isBlank char = false) : isTorn (word ++ version) = false := by
  rw [isTorn, List.any_eq_false] at whole ⊢
  intro char member
  rw [List.dropWhile_append] at member
  split at member
  · simp [solid char (List.dropWhile_subset _ member)]
  · rcases List.mem_append.mp member with inWord | inVersion
    · exact whole char inWord
    · simp [solid char inVersion]

theorem isTorn_word {word : List Char} (shape : Token.WordShape word) : isTorn word = false := by
  have unpointed {rest : List Char} (all : Token.AllParts rest) : rest.dropWhile (· ≠ '.') = [] := by
    have passes : ∀ char ∈ rest, decide (char ≠ '.') = true := by
      intro char member
      rw [decide_eq_true_eq]
      rintro rfl
      exact absurd (all '.' member) (by decide +kernel)
    simpa using @Token.dropWhile_until _ rest [] passes (by simp)
  have behind {next : Char} {rest : List Char} (all : Token.AllParts rest) :
      isTorn (next :: rest) = false := by
    by_cases point : next = '.'
    · have blank : Text.isBlank '.' = false := by decide
      simpa [isTorn, point, blank] using fun char member => Token.part_not_blank (all char member)
    · have dropped := unpointed all
      simp only [ne_eq, decide_not] at dropped
      simp [isTorn, point, dropped]
  cases shape with
  | letters start parts => exact behind parts
  | sigil opens parts =>
    rcases opens with ⟨rfl, _⟩ | ⟨rfl, _⟩ | ⟨rfl, _⟩
    all_goals
      rw [← behind parts]
      rfl

end TableName

namespace Lexeme

/-- The charge for a name without quotes that is no word, and for a version with a blank. -/
def fee : Lexeme → Nat
  | word name | placeholder name => Token.fee name
  | table name => if TableName.isTorn name.toList then 1 else 0
  | _ => 0

def cost (lexeme : Lexeme) : Nat := Text.signs lexeme.chars + lexeme.fee

def costs (lexemes : List Lexeme) : Nat := total cost lexemes

@[simp] theorem costs_nil : costs [] = 0 := rfl

@[simp] theorem costs_cons (first : Lexeme) (rest : List Lexeme) :
    costs (first :: rest) = first.cost + costs rest :=
  rfl

@[simp] theorem costs_append (first second : List Lexeme) :
    costs (first ++ second) = costs first + costs second :=
  total_append cost first second

theorem costs_eq (lexemes : List Lexeme) :
    costs lexemes = Text.signs (spelling lexemes) + total fee lexemes := by
  induction lexemes with
  | nil => rfl
  | cons first rest ih =>
    rw [costs_cons, spelling_cons, Text.signs_append, total_cons, ih, cost]
    omega

@[simp] theorem cost_space : cost space = 0 := rfl

@[simp] theorem cost_mark (known : Mark) : cost (mark known) = if known = .minus then 1 else 0 := by
  cases known <;> rfl

theorem cost_word (name : String) : cost (word name) = Text.signs name.toList + Token.fee name := rfl

theorem cost_placeholder (name : String) :
    cost (placeholder name) = Text.signs name.toList + Token.fee name :=
  rfl

theorem cost_number (digits : String) : cost (number digits) = Text.signs digits.toList := rfl

theorem cost_table (name : String) : cost (table name) =
    Text.signs name.toList + if TableName.isTorn name.toList then 1 else 0 :=
  rfl

theorem cost_string (value : String) : cost (string value) = Text.signs value.toList := by
  have doubled := Text.signs_doubled (show Text.isSign '\'' = false by decide) value.toList
  simp only [cost, chars, fee, Text.enclosed, String.toList_ofList, List.cons_append, Text.signs_cons,
    Text.signs_append, Text.signs_nil, doubled]
  rfl

/-- The words that canonical text puts in. -/
def keywords : List String :=
  ["NULL", "TRUE", "FALSE", "DIV", "MOD", "AND", "OR", "NOT", "CURRENT_USER", "DISTINCT", "CAST", "AS",
   "CASE", "WHEN", "THEN", "ELSE", "END", "IS", "BETWEEN", "IN", "LIKE", "ESCAPE", "HAS", "HAS_LIKE",
   "isNaN", "isInfinity", "TEXT_MATCHES", "MATCH", "ROW_SEARCH_CONTENT", "AGAINST", "UNNEST", "JOIN",
   "INNER", "LEFT", "OUTER", "RIGHT", "ON", "ASC", "DESC", "LIMIT", "OFFSET", "SELECT", "FROM",
   "DEFINING_WHERE", "WHERE", "GROUP", "BY", "ORDER", "UNION", "ALL", "WITH"] ++
  ColumnType.all.map ColumnType.name

theorem cost_keyword {name : String} (known : name ∈ keywords) : cost (word name) = 0 := by
  have words : keywords.all (fun name => isLetters name.toList && Text.signs name.toList == 0) = true := by
    decide +kernel
  have own := List.all_eq_true.mp words name known
  simp only [Bool.and_eq_true, beq_iff_eq] at own
  have plain : Token.IsPlainWord name := Token.isPlainWord_iff.mpr (word_of_isLetters own.1)
  simp [cost, chars, fee, Token.fee, own.2, plain]

@[simp] theorem costs_phrase {words : List String} (known : ∀ name ∈ words, name ∈ keywords) :
    costs (phrase words) = 0 := by
  induction words with
  | nil => rfl
  | cons name words ih =>
    have behind := ih fun other member => known other (by simp [member])
    rw [phrase] at behind
    simp [phrase, cost_keyword (known name (by simp)), behind]

@[simp] theorem costs_tight (lexemes : List Lexeme) : costs (tight lexemes) = costs lexemes := by
  simp [tight]

@[simp] theorem costs_spaced (lexemes : List Lexeme) : costs (spaced lexemes) = costs lexemes := by
  simp [spaced]

theorem costs_join {separator : List Lexeme} (free : costs separator = 0) (lists : List (List Lexeme)) :
    costs (join separator lists) = total costs lists := by
  induction lists with
  | nil => rfl
  | cons first rest ih =>
    cases rest with
    | nil => simp [join]
    | cons second rest => simp [join, free, ih]

end Lexeme

open Lexeme

def Identifier.cost (identifier : Identifier) : Nat := identifier.lexeme.cost

def ColumnRef.cost (column : ColumnRef) : Nat := costs column.lexemes

def TableName.cost (table : TableName) : Nat := costs table.lexemes

def Expr.cost (expr : Expr) : Nat := costs expr.lexemes

def SelectItem.cost (item : SelectItem) : Nat := costs item.lexemes

def Source.cost (source : Source) : Nat := costs source.lexemes

def SortKey.cost (key : SortKey) : Nat := costs key.lexemes

def Select.cost (select : Select) : Nat := costs select.lexemes

def CommonTable.cost (element : CommonTable) : Nat := costs element.lexemes

def Query.cost (query : Query) : Nat := costs query.lexemes

def BinaryOperator.cost (operator : BinaryOperator) : Nat := costs operator.lexemes

def UnaryOperator.cost (operator : UnaryOperator) : Nat := costs operator.lexemes

def Reader.optional {α : Type} (cost : α → Nat) : Option α → Nat
  | none => 0
  | some value => cost value

namespace Reader

variable {α : Type}

@[simp] theorem optional_none (cost : α → Nat) : optional cost none = 0 := rfl

@[simp] theorem optional_some (cost : α → Nat) (value : α) : optional cost (some value) = cost value :=
  rfl

end Reader

open Reader

namespace Grammar

/-! ## Names and tables -/

theorem cost_identifier (name : String) (quote : Option Char) :
    Identifier.cost ⟨name, quote⟩ ≤ (Token.word name quote).weight := by
  cases quote with
  | none => exact Nat.le_refl _
  | some quote =>
    simp [Identifier.cost, Identifier.lexeme, Lexeme.cost, chars, Lexeme.fee, Text.enclosed, Token.weight,
      Token.signs]
    split <;> omega

/-- A name is whole if it is made of a word and a version without blanks. -/
theorem cost_tableName (word version : String) : (Lexeme.table (word ++ version)).cost ≤
    (Text.signs word.toList + Token.fee word) + (Text.signs version.toList + Token.gap version) := by
  rw [cost_table, String.toList_append, Text.signs_append]
  by_cases plain : Token.IsPlainWord word
  · by_cases solid : ∀ char ∈ version.toList, Text.isBlank char = false
    · have whole := TableName.isTorn_append
        (TableName.isTorn_word (Token.isPlainWord_iff.mp plain)) solid
      simp only [whole, Bool.false_eq_true, if_false]
      omega
    · have blank : Token.gap version = 1 := by
        simpa [Token.gap] using solid
      split <;> omega
  · have charge : Token.fee word = 2 := if_neg plain
    split <;> omega

/-! ## Expressions -/

theorem cost_decimal (value : Nat) : (Lexeme.number (Number.decimal value)).cost = 0 := by
  have digits : ∀ char ∈ (Number.decimal value).toList, ¬ Text.isSign char = true := by
    intro char member
    rw [Number.decimal, String.toList_ofList] at member
    have digit := Nat.isDigit_of_mem_toDigits (by decide) (by decide) member
    intro sign
    simp only [Text.isSign, Bool.or_eq_true, decide_eq_true_eq] at sign
    rcases sign with (rfl | rfl) | rfl <;> simp at digit
  simpa [cost_number, Text.signs, List.countP_eq_zero] using digits

theorem costs_list {separator : List Lexeme} (free : costs separator = 0) (list : List Expr) :
    costs (join separator (list.map Expr.lexemes)) = total Expr.cost list := by
  rw [costs_join free, total_map]
  rfl

theorem costs_after {words : List String} (known : ∀ name ∈ words, name ∈ keywords)
    (clause : Option Expr) :
    costs (Expr.lexemesAfter (phrase words ++ [space]) clause) = optional Expr.cost clause := by
  cases clause with
  | none => rfl
  | some expr => simp [Expr.lexemesAfter, costs_phrase known, Expr.cost]

theorem costs_behind (clause : Option Expr) :
    costs (Expr.lexemesAfter [space] clause) = optional Expr.cost clause :=
  @costs_after [] nofun clause

theorem costs_branches (branches : List (Expr × Expr)) :
    costs (Expr.branchLexemes branches) =
      total (fun branch => branch.1.cost + branch.2.cost) branches := by
  induction branches with
  | nil => rfl
  | cons branch branches ih =>
    obtain ⟨condition, result⟩ := branch
    simp (disch := decide) [Expr.branchLexemes, Expr.cost, ih, Nat.add_assoc]

theorem cost_call (name : String) (distinct : Bool) (arguments : List Expr) :
    (Expr.call name distinct arguments).cost = (word name).cost + total Expr.cost arguments := by
  have separator : costs (if isSetFunctionName name then comma else [mark .comma]) = 0 := by
    split <;> rfl
  cases distinct <;>
    simp (disch := decide) [Expr.cost, Expr.lexemes, costs_list separator, cost_keyword]

theorem cost_signs (signs : List UnaryOperator) (operand : Expr) :
    (signs.foldr Expr.unary operand).cost = total UnaryOperator.cost signs + operand.cost := by
  induction signs with
  | nil => simp
  | cons sign signs ih =>
    rw [List.foldr_cons, total_cons, Nat.add_assoc, ← ih]
    simp [Expr.cost, Expr.lexemes, UnaryOperator.cost]

theorem cost_links (links : List (BinaryOperator × Expr)) (first : Expr) :
    (links.foldl (fun left (operator, right) => .binary operator left right) first).cost =
      first.cost + total (fun link => link.1.cost + link.2.cost) links := by
  induction links generalizing first with
  | nil => rfl
  | cons link links ih =>
    rw [List.foldl_cons, ih, total_cons, ← Nat.add_assoc]
    simp [Expr.cost, Expr.lexemes, BinaryOperator.cost, Nat.add_assoc]

theorem cost_operator (operator : BinaryOperator) :
    operator.cost = if operator = .subtract then 1 else 0 := by
  cases operator <;>
    simp (disch := decide) [BinaryOperator.cost, BinaryOperator.lexemes, BinaryOperator.lexeme,
      BinaryOperator.isSign, cost_keyword]

theorem notWords_known {negated : Bool} {words : List String} (known : ∀ name ∈ words, name ∈ keywords) :
    ∀ name ∈ notWords negated ++ words, name ∈ keywords := by
  intro name member
  rcases List.mem_append.mp member with negation | own
  · cases negated with
    | false => simp [notWords] at negation
    | true =>
      simp only [notWords, if_true, List.mem_singleton] at negation
      subst negation
      decide
  · exact known name own

/-! ## Selects and queries -/

theorem joinWords_known (kind : JoinKind) : ∀ name ∈ kind.words, name ∈ keywords := by
  cases kind <;> decide

def joinedCost (found : JoinKind × TableName × Expr) : Nat := found.2.1.cost + found.2.2.cost

theorem cost_joins (joins : List (JoinKind × TableName × Expr)) (first : Source) :
    (joins.foldl (fun left (kind, right, condition) => Source.join left kind right condition)
      first).cost = first.cost + total joinedCost joins := by
  induction joins generalizing first with
  | nil => rfl
  | cons found joins ih =>
    obtain ⟨kind, right, condition⟩ := found
    rw [List.foldl_cons, ih, total_cons, ← Nat.add_assoc]
    simp (disch := decide) [Source.cost, Source.lexemes, costs_phrase (joinWords_known kind), joinedCost,
      TableName.cost, Expr.cost, Nat.add_assoc]

theorem costs_clause {α : Type} {words : List String} (known : ∀ name ∈ words, name ∈ keywords)
    (lexemes : α → List Lexeme) (cost : α → Nat) (own : ∀ item, cost item = costs (lexemes item))
    (items : Option (List α)) :
    costs (if (items.getD []).isEmpty then []
      else phrase words ++ [space] ++ join comma ((items.getD []).map lexemes)) =
      optional (total cost) items := by
  obtain rfl : cost = fun item => costs (lexemes item) := funext own
  cases items with
  | none => rfl
  | some list =>
    cases list with
    | nil => rfl
    | cons first rest =>
      rw [if_neg (by simp), costs_append, costs_append, costs_phrase known,
        costs_join (show costs comma = 0 from rfl), total_map]
      exact Nat.zero_add _

theorem costs_unions (unions : List UnionBranch) :
    costs (UnionBranch.lexemes unions) = total (fun branch => branch.select.cost) unions := by
  induction unions with
  | nil => rfl
  | cons branch unions ih =>
    obtain ⟨all, select⟩ := branch
    cases all <;> simp (disch := decide) [UnionBranch.lexemes, ih, Select.cost]

end Grammar

end TabularSql
