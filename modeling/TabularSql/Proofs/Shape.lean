import TabularSql.Proofs.Fragment
import TabularSql.Proofs.Spelling
import TabularSql.Query.Text

/-!
# Shapes of trees

Two things have to hold of a tree before its canonical text can be read back. It has the shape that the
grammar builds: operands bind at least as tightly as their operator asks, lists that cannot be empty are
not, names are spelled like names. This is what reading guarantees. And it avoids the few forms whose
canonical text loses something: a minus in front of a minus, a name that lost the quotes it needs, a
table version that is not a whole number. This is asked of the tree.
-/

namespace TabularSql

set_option autoImplicit false

namespace Token

/-- The name is one word without quotes. -/
def IsPlainWord (name : String) : Prop := scan name.toList = .ok [word name none]

instance : DecidablePred IsPlainWord := fun name =>
  decidable_of_iff ((scan name.toList).toOption = some [word name none]) <| by
    unfold IsPlainWord
    cases scan name.toList <;> simp [Except.toOption]

theorem isPlainWord_iff {name : String} : IsPlainWord name ↔ WordShape name.toList := by
  constructor
  · intro plain
    exact scan_spelled plain _ (List.mem_singleton.mpr rfl)
  · intro shape
    have scanned := @scan_word name.toList [] shape (by simp)
    simpa [scan, Except.map, IsPlainWord] using scanned

def isNumber : Token → Bool
  | number .. => true
  | _ => false

end Token

/-! ## Precedence -/

namespace BinaryOperator

def level : BinaryOperator → Nat
  | multiply | divide | modulo | wholeDivide | remainder => 2
  | add | subtract => 3
  | equal | notEqual | less | lessEqual | greater | greaterEqual => 4
  | and => 6
  | or => 7

/-- Comparisons cannot be chained: their operands bind tighter than they do. -/
def leftLevel (operator : BinaryOperator) : Nat :=
  if operator.isComparison then 3 else operator.level

end BinaryOperator

namespace Expr

/-- How loosely the expression binds: 0 without an operator, 7 for OR. A wildcard is no operand. -/
def level : Expr → Nat
  | binary operator _ _ => operator.level
  | unary .not _ => 5
  | unary _ _ => 1
  | isNull .. | isTruth .. | between .. | inList .. | inQuery .. | like .. | has .. => 4
  | wildcard => 8
  | _ => 0

end Expr

/-! ## What the grammar builds -/

namespace Identifier

def Spelled (identifier : Identifier) : Prop :=
  Token.Spelled (.word identifier.name identifier.quote)

end Identifier

namespace ColumnRef

def Spelled (column : ColumnRef) : Prop :=
  (∀ qualifier ∈ column.qualifier, qualifier.Spelled) ∧ column.name.Spelled

def head (column : ColumnRef) : Identifier := column.qualifier.getD column.name

/-- A reference can open an expression unless its first word means something else there. -/
def Grammatical (column : ColumnRef) : Prop :=
  column.Spelled ∧
    (column.head.quote = none → Grammar.opening column.head.name false = .column)

end ColumnRef

namespace Literal

def Grammatical : Literal → Prop
  | number digits => Token.NumeralShape digits.toList ∨
      ∃ behind, digits.toList = '-' :: behind ∧ Token.NumeralShape behind
  | _ => True

end Literal

namespace CastTarget

/-- A physical type is in upper case and is no name of a logical type. -/
def Grammatical : CastTarget → Prop
  | physical name => Text.upper name = name ∧ ColumnType.ofText? name = none
  | _ => True

end CastTarget

namespace Expr

/-- Whether an expression is a number without a sign, which would take a minus in front of it. -/
def isUnsignedNumber : Expr → Bool
  | literal (.number digits) => digits.toList.head? ≠ some '-'
  | _ => false

/-- The arguments of a call: the wildcard alone, or expressions. -/
def ArgumentsGrammatical (distinct : Bool) (arguments : List Expr) : Prop :=
  distinct = false ∧ arguments = [wildcard] ∨
    (∀ argument ∈ arguments, argument.level ≤ 7) ∧ (distinct = true → arguments ≠ [])

/-- The expression itself is one that the grammar builds; its operands may still not be. -/
def Grammatical : Expr → Prop
  | literal value => value.Grammatical
  | column reference => reference.Grammatical
  | parameter _ | currentUser | wildcard => True
  | call name distinct arguments =>
    Token.IsPlainWord name ∧ Grammar.opening name true = .call name ∧
      ArgumentsGrammatical distinct arguments
  | cast operand target => operand.level ≤ 7 ∧ target.Grammatical
  | caseWhen operand branches otherwise =>
    (∀ expr ∈ operand, expr.level ≤ 7) ∧ branches ≠ [] ∧
      (∀ branch ∈ branches, branch.1.level ≤ 7 ∧ branch.2.level ≤ 7) ∧
      ∀ expr ∈ otherwise, expr.level ≤ 7
  | binary operator left right => left.level ≤ operator.leftLevel ∧ right.level < operator.level
  | unary .not operand => operand.level ≤ 5
  | unary .negate operand => operand.level ≤ 1 ∧ operand.isUnsignedNumber = false
  | unary .plus operand => operand.level ≤ 1
  | nested inner => inner.level ≤ 7
  | isNull tested _ | isTruth tested _ _ => tested.level ≤ 3
  | between tested low high _ => tested.level ≤ 3 ∧ low.level ≤ 3 ∧ high.level ≤ 3
  | inList tested candidates _ =>
    tested.level ≤ 3 ∧ candidates ≠ [] ∧ ∀ candidate ∈ candidates, candidate.level ≤ 7
  | inQuery tested _ _ => tested.level ≤ 3
  | like tested pattern escape _ =>
    tested.level ≤ 3 ∧ pattern.level ≤ 3 ∧ ∀ expr ∈ escape, expr.level ≤ 3
  | has tested values _ _ =>
    tested.level ≤ 3 ∧ values ≠ [] ∧ ∀ value ∈ values, value.level ≤ 7
  | doubleTest _ reference | unnest reference => reference.Spelled
  | textMatches text | matchAgainst text => text.level ≤ 7

end Expr

namespace TableName

/-- A word that is not reserved, then perhaps a version behind a point. -/
def Grammatical (table : TableName) : Prop :=
  (∃ word version : List Char, table.name.toList = word ++ version ∧ Token.WordShape word ∧
      isReserved (String.ofList word) = false ∧ ∀ first ∈ version.head?, first = '.') ∧
    ∀ name ∈ table.alias?, name.Spelled

end TableName

namespace Projection

def Grammatical : Projection → Prop
  | all => True
  | items list => list ≠ [] ∧ ∀ item ∈ list, ∀ name ∈ item.alias?, name.Spelled

end Projection

namespace Select

/-- The select itself is one that the grammar builds; its expressions may still not be. -/
def Grammatical (select : Select) : Prop :=
  select.projection.Grammatical ∧ (∀ table ∈ select.source.tables, table.Grammatical) ∧
    (∀ expr ∈ select.exprs, expr.level ≤ 7) ∧
    ∀ page ∈ select.page, ∀ expr ∈ page.exprs, expr.level ≤ 3

end Select

namespace Query

/-- The query itself is one that the grammar builds; what it holds may still not be. -/
def Grammatical (query : Query) : Prop :=
  query.commonTables ≠ some [] ∧
    ∀ element ∈ query.elements, element.name.Spelled ∧ ∀ column ∈ element.columns, column.Spelled

end Query

/-! ## What canonical text keeps -/

namespace Expr

/-- Two minus signs in a row would be a comment; a placeholder and a physical type are written without
quotes. -/
def Restorable : Expr → Prop
  | unary .negate operand => operand.text.toList.head? ≠ some '-'
  | binary .subtract _ right => right.text.toList.head? ≠ some '-'
  | parameter name => Token.IsPlainWord name
  | cast _ (.physical name) => Token.IsPlainWord name
  | _ => True

instance : DecidablePred Restorable
  | unary .negate operand => inferInstanceAs (Decidable (operand.text.toList.head? ≠ some '-'))
  | binary .subtract _ right => inferInstanceAs (Decidable (right.text.toList.head? ≠ some '-'))
  | parameter name => inferInstanceAs (Decidable (Token.IsPlainWord name))
  | cast _ (.physical name) => inferInstanceAs (Decidable (Token.IsPlainWord name))
  | unary .not _ | unary .plus _ | cast _ (.type _) | cast _ (.column _)
  | binary .add _ _ | binary .multiply _ _ | binary .divide _ _ | binary .modulo _ _
  | binary .wholeDivide _ _ | binary .remainder _ _ | binary .equal _ _ | binary .notEqual _ _
  | binary .less _ _ | binary .lessEqual _ _ | binary .greater _ _ | binary .greaterEqual _ _
  | binary .and _ _ | binary .or _ _ | literal _ | column _ | currentUser | wildcard | call _ _ _
  | caseWhen _ _ _ | nested _ | isNull _ _ | isTruth _ _ _ | between _ _ _ _ | inList _ _ _
  | inQuery _ _ _ | like _ _ _ _ | has _ _ _ _ | doubleTest _ _ | textMatches _ | matchAgainst _
  | unnest _ => isTrue trivial

end Expr

namespace TableName

/-- The name is a word, perhaps with a whole number as its version, and an alias without quotes is not
reserved. -/
def Restorable (table : TableName) : Prop :=
  (∃ word, Token.IsPlainWord word ∧ (table.name = word ∨ ∃ digits, digits ≠ [] ∧
      Token.AllDigits digits ∧ table.name = word ++ "." ++ String.ofList digits)) ∧
    ∀ name ∈ table.alias?, name.quote = none → isReserved name.name = false

def isVersion : List Char → Bool
  | [] => true
  | first :: digits => first == '.' && !digits.isEmpty && digits.all Char.isDigit

theorem restorable_iff (table : TableName) : table.Restorable ↔
    (∃ length ∈ List.range (table.name.toList.length + 1),
      Token.IsPlainWord (String.ofList (table.name.toList.take length)) ∧
        isVersion (table.name.toList.drop length) = true) ∧
    ∀ name ∈ table.alias?, name.quote = none → isReserved name.name = false := by
  refine and_congr_left fun _ => ⟨?_, ?_⟩
  · rintro ⟨word, plain, same | ⟨digits, some, all, same⟩⟩
    · refine ⟨word.toList.length, by simp [same], ?_, by simp [same, isVersion]⟩
      simpa [same] using plain
    · have split : table.name.toList = word.toList ++ '.' :: digits := by simp [same]
      have within : word.toList.length < table.name.toList.length + 1 := by
        rw [split, List.length_append]
        omega
      refine ⟨word.toList.length, List.mem_range.mpr within, by simpa [split] using plain, ?_⟩
      rw [split, List.drop_left]
      simpa [isVersion, some, Token.AllDigits] using all
  · rintro ⟨length, _, plain, version⟩
    refine ⟨_, plain, ?_⟩
    have whole := List.take_append_drop length table.name.toList
    cases rest : table.name.toList.drop length with
    | nil =>
      refine .inl ?_
      rw [List.take_of_length_le (List.drop_eq_nil_iff.mp rest), String.ofList_toList]
    | cons first digits =>
      rw [rest] at version whole
      simp only [isVersion, Bool.and_eq_true, beq_iff_eq, Bool.not_eq_true',
        List.isEmpty_eq_false_iff, List.all_eq_true] at version
      obtain ⟨⟨rfl, some⟩, all⟩ := version
      refine .inr ⟨digits, some, all, ?_⟩
      apply String.toList_injective
      simpa using whole.symm

instance : DecidablePred Restorable := fun table => decidable_of_iff _ (restorable_iff table).symm

end TableName

namespace Fragment

def Grammatical : Fragment → Prop
  | expr whole => whole.Grammatical
  | select whole => whole.Grammatical
  | query whole => whole.Grammatical

/-- The canonical text of the fragment keeps all of it. -/
def Restorable : Fragment → Prop
  | expr whole => whole.Restorable
  | select whole => ∀ table ∈ whole.source.tables, table.Restorable
  | query _ => True

instance : DecidablePred Restorable
  | expr whole => inferInstanceAs (Decidable whole.Restorable)
  | select whole => inferInstanceAs (Decidable (∀ table ∈ whole.source.tables, table.Restorable))
  | query _ => isTrue trivial

/-- The fragment can be written and read again. -/
def Writable (fragment : Fragment) : Prop := fragment.Grammatical ∧ fragment.Restorable

end Fragment

end TabularSql
