import Mathlib.Data.List.TakeWhile
import TabularSql.Proofs.Lowering.Names

/-!
# Texts of table identifiers

Which texts name a table, stated by their characters: the letters `syn` in any case or not at all, the
number of the table, and a point with the number of the version if there is one. Both numbers are one or
more digits and fit a word, and blanks may stand around the whole. Reading accepts these texts and no
others, and the text that is written for an identifier is one of them.
-/

namespace TabularSql

set_option autoImplicit false

/-! ## Blanks around a text -/

namespace Text

theorem trimBlanks_decomposed (chars : List Char) : ∃ front back,
    chars = front ++ trimBlanks chars ++ back ∧ (∀ char ∈ front, isBlank char = true) ∧
      ∀ char ∈ back, isBlank char = true := by
  have blank {list : List Char} : ∀ char ∈ list.takeWhile isBlank, isBlank char = true :=
    fun _ member => List.mem_takeWhile_imp member
  have solid : trimBlanks chars ++ ((chars.dropWhile isBlank).reverse.takeWhile isBlank).reverse =
      chars.dropWhile isBlank := by
    rw [trimBlanks, ← List.reverse_append, List.takeWhile_append_dropWhile, List.reverse_reverse]
  refine ⟨chars.takeWhile isBlank, ((chars.dropWhile isBlank).reverse.takeWhile isBlank).reverse, ?_,
    blank, fun char member => blank char (List.mem_reverse.mp member)⟩
  rw [List.append_assoc, solid, List.takeWhile_append_dropWhile]

theorem trimBlanks_around {front core back : List Char} (before : ∀ char ∈ front, isBlank char = true)
    (behind : ∀ char ∈ back, isBlank char = true) (some : core ≠ [])
    (solid : ∀ char ∈ core, isBlank char = false) : trimBlanks (front ++ core ++ back) = core := by
  have first : (front ++ core ++ back).dropWhile isBlank = core ++ back := by
    rw [List.append_assoc]
    apply Token.dropWhile_until before
    intro next head
    obtain ⟨char, rest, rfl⟩ := List.exists_cons_of_ne_nil some
    cases head
    exact solid _ List.mem_cons_self
  have last : (core ++ back).reverse.dropWhile isBlank = core.reverse := by
    rw [List.reverse_append]
    apply Token.dropWhile_until (fun char member => behind char (List.mem_reverse.mp member))
    intro next head
    exact solid next (List.mem_reverse.mp (List.mem_of_mem_head? head))
  rw [trimBlanks, first, last, List.reverse_reverse]

end Text

/-! ## Numbers -/

/-- One or more digits, with the value of the word. -/
structure Number.Spells (digits : List Char) (word : UInt64) : Prop where
  some : digits ≠ []
  each : ∀ char ∈ digits, char.isDigit = true
  value : Nat.ofDigitChars 10 digits 0 = word.toNat

namespace TableId

open Number (Spells)

variable {digits body : List Char} {table : TableId}

theorem readNumber_iff {word : UInt64} :
    readNumber digits = some word ↔ Spells digits word := by
  constructor
  · intro read
    obtain ⟨some, each⟩ := digits_of_readNumber read
    have all : digits.all Char.isDigit = true := List.all_eq_true.mpr each
    obtain ⟨value, own, inRange⟩ := Option.bind_eq_some_iff.mp read
    have counted : Number.digitsValue digits = value := by
      simpa [Number.readDigits, some, all] using own
    simp only [Number.toUnsigned, Option.ite_none_right_eq_some, Option.some.injEq] at inRange
    obtain ⟨fits, rfl⟩ := inRange
    refine ⟨some, each, ?_⟩
    rw [UInt64.toNat_ofNat_of_lt' fits]
    exact counted
  · rintro ⟨some, each, value⟩
    have all : digits.all Char.isDigit = true := List.all_eq_true.mpr each
    have counted : Number.digitsValue digits = word.toNat := value
    simp [readNumber, Number.readDigits, Number.toUnsigned, some, all, counted, word.toNat_lt_size]

theorem spells_decimal (word : UInt64) : Spells (Nat.toDigits 10 word.toNat) word where
  some := Nat.toDigits_ne_nil
  each := fun _ member => Nat.isDigit_of_mem_toDigits (b := 10) (by decide) (by decide) member
  value := Nat.ofDigitChars_toDigits (by decide) (by decide)

theorem point_not_mem {word : UInt64} (own : Spells digits word) : '.' ∉ digits := by
  intro member
  exact absurd (own.each '.' member) (by decide)

/-! ## Identifiers -/

/-- The letters `syn` in any case, or nothing. -/
inductive Mark : List Char → Prop where
  | absent : Mark []
  | letters {first second third : Char} (s : first = 's' ∨ first = 'S') (y : second = 'y' ∨ second = 'Y')
      (n : third = 'n' ∨ third = 'N') : Mark [first, second, third]

/-- A number, and a second one behind a point if there is a version. -/
inductive Numbered : List Char → TableId → Prop where
  | current {digits : List Char} {number : UInt64} (own : Spells digits number) :
      Numbered digits ⟨number, none⟩
  | pinned {digits behind : List Char} {number version : UInt64} (own : Spells digits number)
      (other : Spells behind version) : Numbered (digits ++ '.' :: behind) ⟨number, some version⟩

/-- The text names the table; there may be blanks around the identifier. -/
def Written (text : String) (table : TableId) : Prop :=
  ∃ front mark body back, text.toList = front ++ (mark ++ body) ++ back ∧
    (∀ char ∈ front, Text.isBlank char = true) ∧ (∀ char ∈ back, Text.isBlank char = true) ∧
    Mark mark ∧ Numbered body table

theorem split_at_point (pointless : '.' ∉ digits) (rest : List Char)
    (stops : ∀ next ∈ rest.head?, next = '.') :
    (digits ++ rest).takeWhile (· ≠ '.') = digits ∧ (digits ++ rest).dropWhile (· ≠ '.') = rest := by
  have whole : ∀ char ∈ digits, decide (char ≠ '.') = true := by
    intro char member
    rw [decide_eq_true_eq]
    rintro rfl
    exact pointless member
  have point : ∀ next ∈ rest.head?, decide (next ≠ '.') = false := by
    intro next head
    simp [stops next head]
  exact ⟨Token.takeWhile_until whole point, Token.dropWhile_until whole point⟩

theorem readBody_current {chars : List Char} (pointless : '.' ∉ chars) :
    readBody chars = (readNumber chars).map fun number => ⟨number, none⟩ := by
  obtain ⟨taken, left⟩ := split_at_point pointless [] (by simp)
  rw [List.append_nil] at taken left
  simp only [readBody, taken, left]
  cases readNumber chars <;> rfl

theorem readBody_pinned (pointless : '.' ∉ digits) (behind : List Char) :
    readBody (digits ++ '.' :: behind) = (readNumber digits).bind fun number =>
      (readNumber behind).map fun version => ⟨number, some version⟩ := by
  obtain ⟨taken, left⟩ := split_at_point pointless ('.' :: behind) (by simp)
  simp only [readBody, taken, left]
  cases readNumber digits with
  | none => rfl
  | some number => cases readNumber behind <;> rfl

theorem readBody_iff {chars : List Char} :
    readBody chars = some table ↔ Numbered chars table := by
  constructor
  · intro read
    by_cases point : '.' ∈ chars
    · obtain ⟨digits, behind, rfl, pointless⟩ := List.eq_append_cons_of_mem point
      rw [readBody_pinned pointless] at read
      obtain ⟨number, own, read⟩ := Option.bind_eq_some_iff.mp read
      obtain ⟨version, other, rfl⟩ := Option.map_eq_some_iff.mp read
      exact .pinned (readNumber_iff.mp own) (readNumber_iff.mp other)
    · rw [readBody_current point] at read
      obtain ⟨number, own, rfl⟩ := Option.map_eq_some_iff.mp read
      exact .current (readNumber_iff.mp own)
  · intro numbered
    cases numbered with
    | current own => simp [readBody_current (point_not_mem own), readNumber_iff.mpr own]
    | pinned own other =>
      simp [readBody_pinned (point_not_mem own), readNumber_iff.mpr own, readNumber_iff.mpr other]

theorem toLower_eq_iff (lower capital : Char) (plain : lower.toLower = lower)
    (letter : lower.val = capital.val + 32) (upper : capital.toLower = lower) {char : Char} :
    char.toLower = lower ↔ char = lower ∨ char = capital := by
  constructor
  · intro same
    unfold Char.toLower at same
    split at same
    · right
      have value := congrArg Char.val same
      apply Char.ext
      rw [letter] at value
      exact (UInt32.add_left_inj _).mp value
    · exact .inl same
  · rintro (rfl | rfl)
    · exact plain
    · exact upper

theorem dropMark_iff {first second third : Char} : (first.toLower = 's' && second.toLower = 'y' &&
    third.toLower = 'n') = true ↔ Mark [first, second, third] := by
  simp only [Bool.and_eq_true, decide_eq_true_eq]
  rw [toLower_eq_iff 's' 'S' (by decide) (by decide) (by decide),
    toLower_eq_iff 'y' 'Y' (by decide) (by decide) (by decide),
    toLower_eq_iff 'n' 'N' (by decide) (by decide) (by decide)]
  constructor
  · rintro ⟨⟨s, y⟩, n⟩
    exact .letters s y n
  · rintro (_ | ⟨s, y, n⟩)
    exact ⟨⟨s, y⟩, n⟩

theorem mark_dropMark (chars : List Char) : ∃ mark, Mark mark ∧ chars = mark ++ dropMark chars := by
  unfold dropMark
  split
  · next first second third rest =>
      split
      · next marked => exact ⟨[first, second, third], dropMark_iff.mp marked, rfl⟩
      · exact ⟨[], .absent, rfl⟩
  · exact ⟨[], .absent, rfl⟩

/-- A number starts with no letter, so that all of a mark is dropped and nothing else. -/
theorem dropMark_mark {mark : List Char} (marked : Mark mark) {digit : Char}
    (starts : body.head? = some digit) (own : digit.isDigit = true) : dropMark (mark ++ body) = body := by
  cases marked with
  | absent =>
    obtain ⟨behind, rfl⟩ := List.head?_eq_some_iff.mp starts
    have noLetter : digit.toLower ≠ 's' := by
      rw [Ne, toLower_eq_iff 's' 'S' (by decide) (by decide) (by decide)]
      rintro (rfl | rfl) <;> cases own
    match behind with
    | [] | [_] | _ :: _ :: _ => simp [dropMark, noLetter]
  | letters s y n =>
    have letters := dropMark_iff.mpr (.letters s y n)
    simp only [List.cons_append, List.nil_append, dropMark, letters, if_true]

theorem Numbered.starts (numbered : Numbered body table) :
    ∃ digit, body.head? = some digit ∧ digit.isDigit = true := by
  have first {digits : List Char} {word : UInt64} (own : Spells digits word) (rest : List Char) :
      ∃ digit, (digits ++ rest).head? = some digit ∧ digit.isDigit = true := by
    obtain ⟨digit, behind, rfl⟩ := List.exists_cons_of_ne_nil own.some
    exact ⟨digit, rfl, own.each digit List.mem_cons_self⟩
  cases numbered with
  | current own => simpa using first own []
  | pinned own other => exact first own _

theorem solid {mark : List Char} (marked : Mark mark) (numbered : Numbered body table) :
    ∀ char ∈ mark ++ body, Text.isBlank char = false := by
  have letters : ∀ char ∈ mark, Text.isBlank char = false := by
    cases marked with
    | absent => simp
    | letters s y n =>
      refine List.forall_mem_cons.mpr ⟨?_, List.forall_mem_cons.mpr ⟨?_, List.forall_mem_singleton.mpr ?_⟩⟩
      · rcases s with rfl | rfl <;> decide
      · rcases y with rfl | rfl <;> decide
      · rcases n with rfl | rfl <;> decide
  have number {digits : List Char} {word : UInt64} (own : Spells digits word) :
      ∀ char ∈ digits, Text.isBlank char = false :=
    fun char member => Token.digit_not_blank (own.each char member)
  refine List.forall_mem_append.mpr ⟨letters, ?_⟩
  cases numbered with
  | current own => exact number own
  | pinned own other =>
    exact List.forall_mem_append.mpr ⟨number own, List.forall_mem_cons.mpr ⟨by decide, number other⟩⟩

theorem ofText?_iff {text : String} : ofText? text = some table ↔ Written text table := by
  show readBody (dropMark (Text.trimBlanks text.toList)) = some table ↔ _
  constructor
  · intro read
    obtain ⟨front, back, whole, before, behind⟩ := Text.trimBlanks_decomposed text.toList
    obtain ⟨mark, marked, core⟩ := mark_dropMark (Text.trimBlanks text.toList)
    rw [core] at whole
    exact ⟨front, mark, _, back, whole, before, behind, marked, readBody_iff.mp read⟩
  · rintro ⟨front, mark, body, back, whole, before, behind, marked, numbered⟩
    obtain ⟨digit, starts, own⟩ := numbered.starts
    have some : mark ++ body ≠ [] := by
      rintro same
      simp [List.append_eq_nil_iff.mp same] at starts
    rw [whole, Text.trimBlanks_around before behind some (solid marked numbered),
      dropMark_mark marked starts own]
    exact readBody_iff.mpr numbered

theorem written_text (table : TableId) : Written table.text table := by
  obtain ⟨number, version⟩ := table
  have marked : Mark ['s', 'y', 'n'] := .letters (.inl rfl) (.inl rfl) (.inl rfl)
  cases version with
  | none =>
    refine ⟨[], _, _, [], ?_, by simp, by simp, marked, .current (spells_decimal number)⟩
    simp [text, Number.decimal]
  | some version =>
    refine ⟨[], _, _, [], ?_, by simp, by simp, marked,
      .pinned (spells_decimal number) (spells_decimal version)⟩
    simp [text, Number.decimal]

/-- Reading an identifier gives the table that the text names. A text that names none is refused with an
error that quotes it, and every identifier is read back from its own text. -/
theorem parse_reads_written (text : String) :
    (∀ table, parse text = .ok table ↔ Written text table) ∧
      (parse text = .error (.invalidTableId text) ↔ ¬ ∃ table, Written text table) ∧
      ∀ table : TableId, parse table.text = .ok table := by
  have reads (text : String) (table : TableId) : parse text = .ok table ↔ Written text table := by
    rw [← ofText?_iff, parse]
    split <;> simp_all
  refine ⟨reads text, ?_, fun table => (reads _ table).mpr (written_text table)⟩
  rw [← not_congr (exists_congr (reads text)), parse]
  split <;> simp_all

end TableId

end TabularSql
