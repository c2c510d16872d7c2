import TabularSql.Proofs.Lowering.Tables
import TabularSql.Proofs.Rereading

/-!
# Names of the store

The names that lowering puts into a statement are words that can be read again: they are put together from
letters and digits, and a word with a digit in it is no keyword. The name of a table that was identified is
a word as well, with a whole number as its version if it has one.
-/

namespace TabularSql

set_option autoImplicit false

/-! ## Words with a digit -/

namespace Token

def isTail (text : String) : Bool := text.toList.all isWordPart

def isStem (text : String) : Bool := text.toList.head?.any isWordStart && isTail text

/-- A word with a digit in it. -/
structure Numbered (name : String) : Prop where
  stem : isStem name = true
  digit : ∃ char ∈ name.toList, char.isDigit = true

theorem isTail_append (first second : String) :
    isTail (first ++ second) = (isTail first && isTail second) := by
  rw [isTail, String.toList_append, List.all_append, isTail, isTail]

theorem isStem_append {first second : String} (stem : isStem first = true) (tail : isTail second = true) :
    isStem (first ++ second) = true := by
  simp only [isStem, Bool.and_eq_true] at stem
  rw [isStem, isTail_append, stem.2, tail, String.toList_append, List.head?_append]
  cases head : first.toList.head? with
  | none => simp [head] at stem
  | some char => simpa [head] using stem.1

theorem isTail_decimal (value : Nat) : isTail (Number.decimal value) = true := by
  rw [isTail, List.all_eq_true]
  intro char member
  rw [Number.decimal, String.toList_ofList] at member
  have digit : char.isDigit = true := Nat.isDigit_of_mem_toDigits (by decide) (by decide) member
  simp [isWordPart, digit]

theorem Numbered.append {name suffix : String} (numbered : Numbered name)
    (tail : isTail suffix = true) : Numbered (name ++ suffix) := by
  obtain ⟨stem, char, member, digit⟩ := numbered
  refine ⟨isStem_append stem tail, char, ?_, digit⟩
  rw [String.toList_append]
  exact List.mem_append_left _ member

theorem numbered_decimal {stem : String} (isStem : isStem stem = true) (value : Nat) :
    Numbered (stem ++ Number.decimal value) := by
  have some : Nat.toDigits 10 value ≠ [] := Nat.toDigits_ne_nil
  obtain ⟨char, rest, digits⟩ := List.exists_cons_of_ne_nil some
  have member : char ∈ Nat.toDigits 10 value := by
    rw [digits]
    exact List.mem_cons_self
  refine ⟨isStem_append isStem (isTail_decimal value), char, ?_, ?_⟩
  · simp [Number.decimal, member]
  · exact Nat.isDigit_of_mem_toDigits (by decide) (by decide) member

theorem Numbered.plain {name : String} (numbered : Numbered name) : IsPlainWord name := by
  have stem := numbered.stem
  simp only [isStem, isTail, Bool.and_eq_true, List.all_eq_true] at stem
  apply isPlainWord_iff.mpr
  cases chars : name.toList with
  | nil => simp [chars] at stem
  | cons first rest =>
    rw [chars] at stem
    exact .letters stem.1 fun part member => stem.2 part (List.mem_cons_of_mem _ member)

end Token

theorem Text.toUpper_digit {char : Char} (digit : char.isDigit = true) : char.toUpper = char := by
  obtain ⟨_, high⟩ := Token.digit_ranges digit
  unfold Char.toUpper
  apply dif_neg
  rintro ⟨low, _⟩
  have letter : 97 ≤ char.toNat := UInt32.le_iff_toNat_le.mp low
  omega

namespace Token

/-- No word with a digit in it is a word of letters in any case. -/
theorem Numbered.not_word {name : String} (numbered : Numbered name) {word : String}
    (letters : (Text.upper word).toList.any Char.isDigit = false) :
    Text.upper name ≠ Text.upper word := by
  obtain ⟨_, char, member, digit⟩ := numbered
  intro same
  have listed : char ∈ (Text.upper word).toList := by
    rw [← same, Text.upper, String.toList_ofList, ← Text.toUpper_digit digit]
    exact List.mem_map_of_mem member
  exact List.any_eq_false.mp letters char listed digit

theorem Numbered.free {name : String} (numbered : Numbered name) : isReserved name = false := by
  have letters : ∀ word ∈ reservedWords, (Text.upper word).toList.any Char.isDigit = false := by
    decide +kernel
  rw [isReserved, Text.listed, List.any_eq_false]
  intro word listed
  simp only [Text.sameWord, beq_iff_eq]
  exact (numbered.not_word (letters word listed)).symm

/-- A word that can open a reference to a column. -/
structure OpensColumn (name : String) : Prop where
  plain : IsPlainWord name
  opens : Grammar.opening name false = .column

theorem Numbered.opensColumn {name : String} (numbered : Numbered name) : OpensColumn name := by
  refine ⟨numbered.plain, ?_⟩
  have other {word : String} (letters : (Text.upper word).toList.any Char.isDigit = false)
      (upper : Text.upper word = word) : Text.upper name ≠ word := by
    rw [← upper]
    exact numbered.not_word letters
  have null := @other "NULL" (by decide) (by decide)
  have yes := @other "TRUE" (by decide) (by decide)
  have no := @other "FALSE" (by decide) (by decide)
  have case := @other "CASE" (by decide) (by decide)
  have user := @other "CURRENT_USER" (by decide) (by decide)
  simp [Grammar.opening, null, yes, no, case, user, numbered.free]

end Token

/-! ## The names -/

namespace Physical

open Token

theorem isStem_letters : ∀ stem ∈ ["b", "T", "_A", "_C", "_DBL_C", "ROW_ID_REF_C"], isStem stem = true := by
  simp [isStem, isTail, isWordStart_ascii, isWordPart_ascii]

theorem isTail_letters : ∀ tail ∈ ["_", "_INDEX_C", "_UNNEST"], isTail tail = true := by
  simp [isTail, isWordPart_ascii]

theorem numbered_placeholder (index : Nat) : Numbered (placeholderName index) :=
  numbered_decimal (isStem_letters "b" (by simp)) index

theorem numbered_table (id : TableId) : Numbered (table id) := by
  have number : Numbered ("T" ++ Number.decimal id.number.toNat) :=
    numbered_decimal (isStem_letters "T" (by simp)) _
  unfold table
  split
  · exact number
  · exact (number.append (isTail_letters "_" (by simp))).append (isTail_decimal _)

theorem numbered_column (id : ColumnId) : Numbered (column id) :=
  (numbered_decimal (isStem_letters "_C" (by simp)) id.toNat).append (isTail_letters "_" (by simp))

theorem numbered_shadow (id : ColumnId) : Numbered (shadow id) :=
  (numbered_decimal (isStem_letters "_DBL_C" (by simp)) id.toNat).append (isTail_letters "_" (by simp))

theorem numbered_element (id : ColumnId) : Numbered (element id) :=
  (numbered_column id).append (isTail_letters "_UNNEST" (by simp))

theorem numbered_elementRow (id : ColumnId) : Numbered (elementRow id) :=
  (numbered_decimal (isStem_letters "ROW_ID_REF_C" (by simp)) id.toNat).append (isTail_letters "_" (by simp))

theorem numbered_sideTable (owner : TableId) (id : ColumnId) : Numbered (sideTable owner id) := by
  have index := (numbered_table owner).append (isTail_letters "_INDEX_C" (by simp))
  exact (index.append (isTail_decimal _)).append (isTail_letters "_" (by simp))

theorem numbered_correlation (index : Nat) : Numbered (correlation index) :=
  numbered_decimal (isStem_letters "_A" (by simp)) index

theorem opensColumn_metadata (name : MetadataName) : OpensColumn name.text := by
  cases name <;>
    exact ⟨isPlainWord_iff.mpr (Lexeme.word_of_isLetters (Lexeme.isLetters_ascii (by decide))), rfl⟩

end Physical

theorem ColumnType.plain_physicalCast (type : ColumnType) :
    Text.upper type.physicalCast = type.physicalCast ∧ Token.IsPlainWord type.physicalCast := by
  cases type <;> exact ⟨by decide,
    Token.isPlainWord_iff.mpr (Lexeme.word_of_isLetters (Lexeme.isLetters_ascii (by decide)))⟩

/-! ## Tables that were identified -/

theorem Text.trimBlanks_solid {chars : List Char} (solid : ∀ char ∈ chars, isBlank char = false) :
    trimBlanks chars = chars := by
  have keeps {list : List Char} (each : ∀ char ∈ list, isBlank char = false) :
      list.dropWhile isBlank = list := by
    cases list with
    | nil => rfl
    | cons first rest => simp [each first List.mem_cons_self]
  rw [trimBlanks, keeps solid, keeps fun char member => solid char (List.mem_reverse.mp member),
    List.reverse_reverse]

namespace TableId

open Lexeme (VersionShape)

theorem dropWhile_dropMark (chars : List Char) :
    (dropMark chars).dropWhile (· ≠ '.') = chars.dropWhile (· ≠ '.') := by
  have letter {char lower : Char} (same : char.toLower = lower) (other : lower ≠ '.') : char ≠ '.' := by
    rintro rfl
    exact other same.symm
  unfold dropMark
  split
  · next first second third rest =>
      split
      · next mark =>
          simp only [Bool.and_eq_true, decide_eq_true_eq] at mark
          obtain ⟨⟨one, two⟩, three⟩ := mark
          simp [letter one (by decide), letter two (by decide), letter three (by decide)]
      · rfl
  · rfl

theorem digits_of_readNumber {digits : List Char} {number : UInt64} (ok : readNumber digits = some number) :
    digits ≠ [] ∧ Token.AllDigits digits := by
  obtain ⟨value, read, _⟩ := Option.bind_eq_some_iff.mp ok
  simp only [Number.readDigits] at read
  split at read
  · cases read
  · next test => simpa [Token.AllDigits] using test

theorem versionShape_of_readBody {chars : List Char} {id : TableId} (ok : readBody chars = some id) :
    VersionShape (chars.dropWhile (· ≠ '.')) := by
  unfold readBody at ok
  simp only at ok
  split at ok
  · next none => exact .inl none
  · next point version behind =>
      obtain ⟨_, _, ok⟩ := Option.bind_eq_some_iff.mp ok
      obtain ⟨_, read, _⟩ := Option.bind_eq_some_iff.mp ok
      have head : point = '.' := by
        have stops := List.head?_dropWhile_not (· ≠ '.') chars
        rw [behind] at stops
        simpa using stops
      obtain ⟨some, all⟩ := digits_of_readNumber read
      exact .inr ⟨version, some, all, by rw [behind, head]⟩

end TableId

/-- The name of a table that was identified is a word, and its version a whole number. -/
theorem TableName.spelled_of_identified {table : TableName} {id : TableId}
    (grammatical : table.Grammatical) (whole : isTorn table.name.toList = false)
    (known : TableId.ofText? table.name = some id) : (Lexeme.table table.name).Spelled := by
  obtain ⟨⟨word, version, same, shape, _, point⟩, _⟩ := grammatical
  refine ⟨word, version, same, shape, ?_⟩
  rw [TableId.ofText?, same] at known
  cases shape with
  | @letters first rest start parts =>
    have noSign : first ≠ '#' ∧ first ≠ '@' := by
      constructor <;> rintro rfl <;> exact absurd start (Token.not_wordStart (by decide) (by decide))
    have noPoint := word_no_point (.letters start parts) (by simpa using noSign)
    have behind : (first :: rest ++ version).dropWhile (· ≠ '.') = version := by
      apply Token.dropWhile_until
      · intro char member
        rw [decide_eq_true_eq]
        rintro rfl
        exact noPoint member
      · intro next head
        simp [point next head]
    have solid : ∀ char ∈ first :: rest ++ version, Text.isBlank char = false := by
      intro char member
      rcases List.mem_append.mp member with inWord | inVersion
      · rcases List.mem_cons.mp inWord with rfl | inRest
        · exact Token.word_start_not_blank start
        · exact Token.part_not_blank (parts char inRest)
      · rw [isTorn, same, behind, List.any_eq_false] at whole
        simpa using whole char inVersion
    rw [TableId.ofChars?, Text.trimBlanks_solid solid] at known
    have versions := TableId.versionShape_of_readBody known
    rwa [TableId.dropWhile_dropMark, behind] at versions
  | sigil opens parts =>
    rcases opens with ⟨rfl, _⟩ | ⟨rfl, _⟩ | ⟨rfl, _⟩
    all_goals
      rw [List.cons_append, List.cons_append,
        TableId.ofChars?_cons (by decide) (by decide) (by decide)] at known
      cases known

end TabularSql
