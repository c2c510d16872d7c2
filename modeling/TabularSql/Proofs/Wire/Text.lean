import TabularSql.Wire.Json

/-!
# Wire values read back from their text

A wire value is written without blanks, and its text is read from the front: what stands behind it is
left over. So the text of a list is read item by item, and a value is read back at any depth of brackets
for which there is room. Doubles are left out: their digits are read in double arithmetic.
-/

namespace TabularSql

set_option autoImplicit false

namespace WireValue

mutual

/-- Values whose text stands for nothing else: no number is a double, integers are words, and the fields
of an object have names of their own. -/
def Exact : WireValue → Prop
  | null | boolean _ | string _ => True
  | integer value => Int64.minValue.toInt ≤ value ∧ value < UInt64.size
  | real _ => False
  | array items => ExactItems items
  | object fields => (fields.map Prod.fst).Nodup ∧ ExactFields fields

def ExactItems : List WireValue → Prop
  | [] => True
  | value :: rest => value.Exact ∧ ExactItems rest

def ExactFields : List (String × WireValue) → Prop
  | [] => True
  | (_, value) :: rest => value.Exact ∧ ExactFields rest

end

theorem exactItems_iff {items : List WireValue} : ExactItems items ↔ ∀ item ∈ items, item.Exact := by
  induction items with
  | nil => simp [ExactItems]
  | cons item items ih => simp [ExactItems, ih]

theorem exactFields_iff {fields : WireFields} : ExactFields fields ↔ ∀ field ∈ fields, field.2.Exact := by
  induction fields with
  | nil => simp [ExactFields]
  | cons field fields ih => simp [ExactFields, ih]

theorem itemsDepth_le {items : List WireValue} {depth : Nat} :
    itemsDepth items ≤ depth ↔ ∀ item ∈ items, item.depth ≤ depth := by
  induction items with
  | nil => simp [itemsDepth]
  | cons item items ih => rw [itemsDepth, Nat.max_le, ih, List.forall_mem_cons]

theorem fieldsDepth_le {fields : WireFields} {depth : Nat} :
    fieldsDepth fields ≤ depth ↔ ∀ field ∈ fields, field.2.depth ≤ depth := by
  induction fields with
  | nil => simp [fieldsDepth]
  | cons field fields ih => rw [fieldsDepth, Nat.max_le, ih, List.forall_mem_cons]

end WireValue

namespace Json

/-! ## Strings -/

theorem readUnit_hexText {value : Nat} (control : value < 32) (rest : List Char) :
    readUnit ((hexText 4 value).toList ++ rest) = some (value, rest) := by
  have digits : ∀ value < 32, (hexText 4 value).toList.length = 4 ∧
      ((hexText 4 value).toList.mapM hexDigit?).map
        (fun digits => digits.foldl (fun value digit => value * 16 + digit) 0) = some value := by
    decide +kernel
  obtain ⟨four, reads⟩ := digits value control
  match chars : (hexText 4 value).toList, four with
  | [first, second, third, fourth], _ =>
  rw [chars] at reads
  obtain ⟨numbers, each, whole⟩ := Option.map_eq_some_iff.mp reads
  show ([first, second, third, fourth].mapM hexDigit? >>= _) = _
  rw [each]
  simp [whole]

theorem readChar_charText (char : Char) (rest : List Char) :
    readChar ((charText char).toList ++ rest) = some (some char, rest) := by
  unfold charText
  split
  · next special =>
      rcases (by simpa using special : char = '"' ∨ char = '\\') with rfl | rfl <;> rfl
  · next ordinary =>
      split
      · next control =>
          have read := readUnit_hexText control rest
          have low : char.toNat < 0xD800 := by omega
          simp [readChar, readEscapedUnit, read, low, Char.ofNat_toNat]
      · next printed =>
          simp only [Bool.or_eq_true, decide_eq_true_eq, not_or] at ordinary
          rw [String.toList_singleton, List.singleton_append, readChar.eq_def]
          split <;> simp_all

theorem charText_ne_nil (char : Char) : 1 ≤ (charText char).toList.length := by
  unfold charText
  split
  · simp
  · split <;> simp

theorem readChars_texts (chars taken rest : List Char) {bound : Nat} (enough : chars.length < bound) :
    readChars bound taken (chars.flatMap (fun char => (charText char).toList) ++ '"' :: rest) =
      some (taken.reverse ++ chars, rest) := by
  induction chars generalizing bound taken with
  | nil =>
    obtain ⟨bound, rfl⟩ := Nat.exists_eq_add_one_of_ne_zero (Nat.ne_of_gt enough)
    simp [readChars, readChar]
  | cons char chars ih =>
    obtain ⟨bound, rfl⟩ := Nat.exists_eq_add_one_of_ne_zero (Nat.ne_of_gt (Nat.zero_lt_of_lt enough))
    rw [List.flatMap_cons, List.append_assoc, readChars, readChar_charText]
    have behind := ih (char :: taken) (Nat.lt_of_succ_lt_succ enough)
    simpa using behind

theorem stringText_chars (value : String) : (stringText value).toList =
    '"' :: value.toList.flatMap (fun char => (charText char).toList) ++ ['"'] := by
  simp [stringText, String.toList_join, List.flatMap_map]

theorem readString_text (value : String) (rest : List Char) :
    readString (value.toList.flatMap (fun char => (charText char).toList) ++ '"' :: rest) =
      some (value, rest) := by
  have counted : ∀ chars : List Char,
      chars.length ≤ (chars.flatMap fun char => (charText char).toList).length := by
    intro chars
    induction chars with
    | nil => simp
    | cons char chars ih =>
      have some := charText_ne_nil char
      simp only [List.flatMap_cons, List.length_append, List.length_cons]
      omega
  have enough : value.toList.length < (value.toList.flatMap (fun char => (charText char).toList) ++
      '"' :: rest).length + 1 := by
    have least := counted value.toList
    simp only [List.length_append, List.length_cons]
    omega
  rw [readString, readChars_texts value.toList [] rest enough]
  simp

/-! ## Numbers -/

/-- What can stand behind a value: nothing that would go on with a number. -/
def Ends (rest : List Char) : Prop :=
  ∀ char ∈ rest.head?, char.isDigit = false ∧ char ≠ '.' ∧ char ≠ 'e' ∧ char ≠ 'E'

theorem ends_cons {char : Char} {rest : List Char}
    (apart : char.isDigit = false ∧ char ≠ '.' ∧ char ≠ 'e' ∧ char ≠ 'E') : Ends (char :: rest) := by
  rintro _ ⟨⟩
  exact apart

theorem le_ofDigitChars (digits : List Char) (start : Nat) : start ≤ Nat.ofDigitChars 10 digits start := by
  induction digits generalizing start with
  | nil => exact Nat.le_refl start
  | cons digit digits ih =>
    rw [Nat.ofDigitChars_cons]
    have least := ih (10 * start + (digit.toNat - '0'.toNat))
    omega

theorem appendDigits_fitting (digits : List Char) (start taken : Nat)
    (fits : Nat.ofDigitChars 10 digits start < UInt64.size) :
    appendDigits start taken digits = (Nat.ofDigitChars 10 digits start, taken + digits.length, 0) := by
  induction digits generalizing start taken with
  | nil => rfl
  | cons digit digits ih =>
    have next : start * 10 + Number.digitsValue [digit] = 10 * start + (digit.toNat - '0'.toNat) := by
      simp [Number.digitsValue, Nat.mul_comm]
    rw [Nat.ofDigitChars_cons] at fits ⊢
    have least := le_ofDigitChars digits (10 * start + (digit.toNat - '0'.toNat))
    rw [appendDigits, next, if_pos (Nat.lt_of_le_of_lt least fits), ih _ _ fits, List.length_cons]
    congr 2
    omega

theorem isDigit_of_mem_digits {value : Nat} {char : Char} (member : char ∈ Nat.toDigits 10 value) :
    char.isDigit = true :=
  Nat.isDigit_of_mem_toDigits (by decide) (by decide) member

theorem takeWhile_digits (value : Nat) {rest : List Char} (ends : Ends rest) :
    (Nat.toDigits 10 value ++ rest).takeWhile Char.isDigit = Nat.toDigits 10 value := by
  rw [List.takeWhile_append_of_pos fun _ => isDigit_of_mem_digits]
  cases rest with
  | nil => simp
  | cons char rest => simp [(ends char rfl).1]

theorem dropWhile_digits (value : Nat) {rest : List Char} (ends : Ends rest) :
    (Nat.toDigits 10 value ++ rest).dropWhile Char.isDigit = rest := by
  rw [List.dropWhile_append_of_pos fun _ => isDigit_of_mem_digits]
  cases rest with
  | nil => rfl
  | cons char rest => simp [(ends char rfl).1]

theorem eq_zero_of_leading {value : Nat} (leading : (Nat.toDigits 10 value).head? = some '0') :
    value = 0 := by
  induction value using Nat.strongRecOn with
  | ind value ih =>
    rw [Nat.toDigits_eq_if (by decide)] at leading
    split at leading
    · next small =>
        have digits : ∀ digit < 10, digit.digitChar = '0' → digit = 0 := by decide
        exact digits value small (Option.some.inj leading)
    · next large =>
        rw [List.head?_append, Option.or_of_isSome (by simp [Nat.toDigits_ne_nil])] at leading
        have front := ih (value / 10) (by omega) leading
        omega

theorem readNumber_digits {value : Nat} (fits : value < UInt64.size) {negative : Bool}
    (word : negative = true → value ≠ 0 ∧ (Number.toSigned (-value)).isSome = true) {rest : List Char}
    (ends : Ends rest) :
    readNumber negative (Nat.toDigits 10 value ++ rest) =
      some (.integer (if negative then -value else value), rest) := by
  have number : Nat.ofDigitChars 10 (Nat.toDigits 10 value) 0 = value :=
    Nat.ofDigitChars_toDigits (by decide) (by decide)
  have taken := appendDigits_fitting (Nat.toDigits 10 value) 0 0 (number.symm ▸ fits)
  have whole : ((Nat.toDigits 10 value).isEmpty || 1 < (Nat.toDigits 10 value).length &&
      (Nat.toDigits 10 value).head? = some '0') = false := by
    have nonempty : (Nat.toDigits 10 value).isEmpty = false := by simp [Nat.toDigits_ne_nil]
    rw [nonempty, Bool.false_or, Bool.and_eq_false_iff, decide_eq_false_iff_not, decide_eq_false_iff_not]
    by_cases leading : (Nat.toDigits 10 value).head? = some '0'
    · rw [eq_zero_of_leading leading]
      exact .inl (by decide)
    · exact .inr leading
  have fraction : readFraction rest = some (none, rest) := by
    cases rest with
    | nil => rfl
    | cons char rest =>
      rw [readFraction.eq_def]
      split
      · next same => exact absurd (List.cons.inj same).1 (ends char rfl).2.1
      · rfl
  have isWord : (if negative = true then decide (value ≠ 0) &&
      (Number.toSigned (if negative = true then -value else value)).isSome else true) = true := by
    cases negative with
    | false => rfl
    | true => simpa using word rfl
  unfold readNumber
  simp only [takeWhile_digits value ends, dropWhile_digits value ends, whole, taken, number, fraction,
    Bool.false_eq_true, if_false, Option.bind_eq_bind, Option.bind_some, Option.getD_none, appendDigits]
  split
  · exact absurd rfl (ends 'e' rfl).2.2.1
  · exact absurd rfl (ends 'E' rfl).2.2.2
  · simp only [Option.isNone_none, decide_true, Bool.true_and, isWord, if_true]
    rfl

/-! ## Sequences -/

theorem skipBlanks_cons {char : Char} {rest : List Char} (solid : isBlank char = false) :
    skipBlanks (char :: rest) = char :: rest := by
  simp [skipBlanks, solid]

/-- What a sequence is made of: items whose text is read back before whatever ends it, and starts with a
character that neither is blank nor closes the sequence. -/
structure Listed {α : Type} (read : Reader α) (write : α → List Char) (close : Char) (item : α) : Prop where
  reads : ∀ rest, Ends rest → read (write item ++ rest) = some (item, rest)
  starts : ∃ first behind, write item = first :: behind ∧ isBlank first = false ∧ first ≠ close

section Sequences

variable {α : Type} {read : Reader α} {write : α → List Char} {close : Char} {items : List α}

theorem readItems_texts (closes : Ends [close] ∧ isBlank close = false ∧ close ≠ ',')
    (each : ∀ item ∈ items, Listed read write close item) (some : items ≠ []) {bound : Nat}
    (enough : items.length ≤ bound) (rest : List Char) :
    readItems read close bound ([','].intercalate (items.map write) ++ close :: rest) =
      .some (items, rest) := by
  obtain ⟨ends, solid, other⟩ := closes
  induction items generalizing bound with
  | nil => exact absurd rfl some
  | cons item items ih =>
    obtain ⟨bound, rfl⟩ := Nat.exists_eq_add_one_of_ne_zero (Nat.ne_of_gt (Nat.zero_lt_of_lt enough))
    have own := (each item List.mem_cons_self).reads
    cases items with
    | nil =>
      have last : Ends (close :: rest) := ends_cons (ends close rfl)
      simp only [List.map_cons, List.map_nil, List.intercalate_singleton, readItems,
        own _ last, Option.bind_eq_bind, Option.bind_some, skipBlanks_cons solid, if_true]
    | cons second items =>
      have behind := ih (fun item member => each item (List.mem_cons_of_mem _ member)) (by simp)
        (Nat.le_of_succ_le_succ enough)
      have comma : Ends (',' :: ([','].intercalate ((second :: items).map write) ++ close :: rest)) :=
        ends_cons (by decide)
      have text : [','].intercalate ((item :: second :: items).map write) ++ close :: rest =
          write item ++ ',' :: ([','].intercalate ((second :: items).map write) ++ close :: rest) := by
        simp [List.intercalate_cons_cons]
      rw [text, readItems, own _ comma]
      simp only [Option.bind_eq_bind, Option.bind_some, skipBlanks_cons (show isBlank ',' = false by decide),
        behind]
      rfl

/-- No item has an empty text. -/
theorem length_le_texts (each : ∀ item ∈ items, ∃ first behind, write item = first :: behind) :
    items.length ≤ ([','].intercalate (items.map write)).length := by
  induction items with
  | nil => simp
  | cons item items ih =>
    obtain ⟨first, behind, text⟩ := each item List.mem_cons_self
    have rest := ih fun other member => each other (List.mem_cons_of_mem _ member)
    cases items with
    | nil => simp [text]
    | cons second items =>
      simp only [List.map_cons, List.intercalate_cons_cons, List.length_append, List.length_cons,
        text] at rest ⊢
      omega

theorem readSequence_texts (closes : Ends [close] ∧ isBlank close = false ∧ close ≠ ',')
    (each : ∀ item ∈ items, Listed read write close item) (rest : List Char) :
    readSequence read close ([','].intercalate (items.map write) ++ close :: rest) = some (items, rest) := by
  cases items with
  | nil => simp [readSequence, skipBlanks_cons closes.2.1]
  | cons item items =>
    obtain ⟨first, behind, text, solid, other⟩ := (each item List.mem_cons_self).starts
    have shown : ∃ more, [','].intercalate ((item :: items).map write) ++ close :: rest = first :: more := by
      cases items with
      | nil => exact ⟨behind ++ close :: rest, by simp [text]⟩
      | cons second items => simp [List.intercalate_cons_cons, text]
    have counted := length_le_texts fun item member =>
      (each item member).starts.imp fun _ given => given.imp fun _ given => given.1
    obtain ⟨more, shown⟩ := shown
    rw [shown, readSequence, skipBlanks_cons solid]
    simp only [other, if_false]
    rw [← shown]
    apply readItems_texts closes each (by simp)
    have whole := congrArg List.length shown
    simp only [List.length_append, List.length_cons] at whole counted ⊢
    omega

end Sequences

/-! ## Values -/

theorem itemTexts_eq_map (items : List WireValue) : itemTexts items = items.map text := by
  induction items with
  | nil => rfl
  | cons item items ih => rw [itemTexts, ih, List.map_cons]

theorem fieldTexts_eq_map (fields : WireFields) :
    fieldTexts fields = fields.map fun field => stringText field.1 ++ ":" ++ text field.2 := by
  induction fields with
  | nil => rfl
  | cons field fields ih => rw [fieldTexts, ih, List.map_cons]

theorem lastFields_distinct {fields : WireFields} (distinct : (fields.map Prod.fst).Nodup) :
    lastFields fields = fields := by
  induction fields with
  | nil => rfl
  | cons field fields ih =>
    obtain ⟨fresh, rest⟩ := List.nodup_cons.mp distinct
    have once : fields.any (fun later => later.1 == field.1) = false := by
      rw [List.any_eq_false]
      intro later member same
      exact fresh (List.mem_map.mpr ⟨later, member, eq_of_beq same⟩)
    rw [lastFields, once, ih rest]
    rfl

theorem digits_cons (value : Nat) : ∃ first behind, Nat.toDigits 10 value = first :: behind ∧
    first.isDigit = true := by
  cases digits : Nat.toDigits 10 value with
  | nil => exact absurd digits Nat.toDigits_ne_nil
  | cons first behind => exact ⟨first, behind, rfl, isDigit_of_mem_digits (by rw [digits]; simp)⟩

theorem signedDecimal_chars (value : Int) : (Number.signedDecimal value).toList =
    if value < 0 then '-' :: Nat.toDigits 10 value.natAbs else Nat.toDigits 10 value.natAbs := by
  unfold Number.signedDecimal Number.decimal
  split <;> simp

/-- How a text starts that is a value by itself: with a character that neither is blank nor a bracket. -/
def Plain (chars : List Char) : Prop :=
  ∃ first behind, chars = first :: behind ∧ isBlank first = false ∧ first ≠ '[' ∧ first ≠ ']' ∧
    first ≠ '\x7b'

theorem plain_of_digit {first : Char} {behind : List Char} (digit : first.isDigit = true) :
    Plain (first :: behind) := by
  refine ⟨first, behind, rfl, ?_, ?_, ?_, ?_⟩
  · simp only [isBlank, Bool.or_eq_false_iff, decide_eq_false_iff_not]
    refine ⟨⟨⟨?_, ?_⟩, ?_⟩, ?_⟩ <;> rintro rfl <;> exact absurd digit (by decide)
  all_goals rintro rfl; exact absurd digit (by decide)

theorem plain_integer (value : Int) : Plain (Number.signedDecimal value).toList := by
  rw [signedDecimal_chars]
  split
  · exact ⟨'-', _, rfl, by decide⟩
  · obtain ⟨first, behind, digits, digit⟩ := digits_cons value.natAbs
    rw [digits]
    exact plain_of_digit digit

theorem readValue_plain {chars rest : List Char} (plain : Plain chars) (depth : Nat) :
    readValue depth (chars ++ rest) = readPlain (chars ++ rest) := by
  obtain ⟨first, behind, rfl, solid, array, _, object⟩ := plain
  rw [List.cons_append]
  cases depth with
  | zero => rw [readValue, skipBlanks_cons solid]
  | succ depth =>
    rw [readValue, skipBlanks_cons solid]
    split
    · next same => exact absurd (List.cons.inj same).1 array
    · next same => exact absurd (List.cons.inj same).1 object
    · rfl

theorem readPlain_digit {first : Char} {rest : List Char} (digit : first.isDigit = true) :
    readPlain (first :: rest) = readNumber false (first :: rest) := by
  rw [readPlain.eq_def]
  split
  case h_6 => rfl
  all_goals
    next same =>
      obtain ⟨rfl, _⟩ := List.cons.inj same
      exact absurd digit (by decide)

theorem readPlain_integer {value : Int} (low : Int64.minValue.toInt ≤ value) (high : value < UInt64.size)
    {rest : List Char} (ends : Ends rest) :
    readPlain ((Number.signedDecimal value).toList ++ rest) = some (.integer value, rest) := by
  rw [signedDecimal_chars]
  have least : Int64.minValue.toInt = -9223372036854775808 := by decide
  have most : Int64.maxValue.toInt = 9223372036854775807 := by decide
  split
  · next negative =>
      have signed : (Number.toSigned (-(value.natAbs : Int))).isSome = true := by
        rw [Number.toSigned, if_pos (by omega)]
        rfl
      rw [List.cons_append, readPlain, readNumber_digits (by simp [UInt64.size]; omega)
        (fun _ => ⟨by omega, signed⟩) ends]
      simp only [if_true, Option.some.injEq, Prod.mk.injEq, WireValue.integer.injEq, and_true]
      omega
  · next positive =>
      obtain ⟨first, behind, digits, digit⟩ := digits_cons value.natAbs
      rw [digits, List.cons_append, readPlain_digit digit, ← List.cons_append, ← digits,
        @readNumber_digits value.natAbs (by omega) false (by simp) rest ends]
      simp only [Bool.false_eq_true, if_false, Option.some.injEq, Prod.mk.injEq,
        WireValue.integer.injEq, and_true]
      omega

theorem text_starts {value : WireValue} (exact : value.Exact) : ∃ first behind,
    (text value).toList = first :: behind ∧ isBlank first = false ∧ first ≠ ']' := by
  cases value with
  | null => exact ⟨'n', _, rfl, by decide⟩
  | boolean truth => cases truth <;> exact ⟨_, _, rfl, by decide⟩
  | integer value =>
    obtain ⟨first, behind, text, solid, _, close, _⟩ := plain_integer value
    exact ⟨first, behind, text, solid, close⟩
  | real value => exact exact.elim
  | string value => exact ⟨'"', _, stringText_chars value, by decide⟩
  | array items => exact ⟨'[', _, by simp [text]; rfl, by decide⟩
  | object fields => exact ⟨'\x7b', _, by simp [text]; rfl, by decide⟩

theorem readField_text {depth : Nat} {field : String × WireValue}
    (reads : ∀ rest, Ends rest → readValue depth ((text field.2).toList ++ rest) = some (field.2, rest))
    {rest : List Char} (ends : Ends rest) :
    readField (readValue depth) ((stringText field.1 ++ ":" ++ text field.2).toList ++ rest) =
      some (field, rest) := by
  have chars : (stringText field.1 ++ ":" ++ text field.2).toList ++ rest =
      '"' :: (field.1.toList.flatMap (fun char => (charText char).toList) ++
        '"' :: ':' :: ((text field.2).toList ++ rest)) := by
    simp [stringText_chars]
  rw [chars, readField, skipBlanks_cons (by decide)]
  simp only [readString_text, Option.bind_eq_bind, Option.bind_some,
    skipBlanks_cons (show isBlank ':' = false by decide), reads rest ends]
  rfl

theorem readValue_text (value : WireValue) (depth : Nat) (exact : value.Exact)
    (room : value.depth ≤ depth) {rest : List Char} (ends : Ends rest) :
    readValue depth ((text value).toList ++ rest) = some (value, rest) := by
  match value with
  | .null => exact readValue_plain ⟨'n', _, rfl, by decide⟩ depth
  | .boolean true => exact readValue_plain ⟨'t', _, rfl, by decide⟩ depth
  | .boolean false => exact readValue_plain ⟨'f', _, rfl, by decide⟩ depth
  | .integer value =>
    rw [text, readValue_plain (plain_integer value), readPlain_integer exact.1 exact.2 ends]
  | .string value =>
    have chars := stringText_chars value
    rw [text, readValue_plain ⟨'"', _, chars, by decide⟩, chars]
    simp only [List.cons_append, List.append_assoc, List.nil_append, readPlain, readString_text,
      Option.map_some]
  | .array items =>
    obtain ⟨depth, rfl⟩ := Nat.exists_eq_add_one_of_ne_zero (Nat.ne_of_gt (Nat.zero_lt_of_lt room))
    have each : ∀ item ∈ items, Listed (readValue depth) (fun item => (text item).toList) ']' item := by
      intro item member
      have own := WireValue.exactItems_iff.mp exact item member
      have inside := WireValue.itemsDepth_le.mp (Nat.le_of_succ_le_succ room) item member
      exact ⟨fun rest ends => readValue_text item depth own inside ends, text_starts own⟩
    have read := readSequence_texts ⟨ends_cons (by decide), by decide⟩ each rest
    have chars : (text (.array items)).toList ++ rest =
        '[' :: ([','].intercalate (items.map fun item => (text item).toList) ++ ']' :: rest) := by
      simp [text, itemTexts_eq_map, String.toList_intercalate, Function.comp_def]
    rw [chars, readValue, skipBlanks_cons (by decide)]
    simp only [read, Option.map_some]
  | .object fields =>
    obtain ⟨depth, rfl⟩ := Nat.exists_eq_add_one_of_ne_zero (Nat.ne_of_gt (Nat.zero_lt_of_lt room))
    have each : ∀ field ∈ fields, Listed (readField (readValue depth))
        (fun field => (stringText field.1 ++ ":" ++ text field.2).toList) '\x7d' field := by
      intro field member
      have own := WireValue.exactFields_iff.mp exact.2 field member
      have inside := WireValue.fieldsDepth_le.mp (Nat.le_of_succ_le_succ room) field member
      refine ⟨fun rest => readField_text fun rest ends => readValue_text field.2 depth own inside ends, ?_⟩
      exact ⟨'"', _, by simp [stringText_chars]; rfl, by decide⟩
    have read := readSequence_texts ⟨ends_cons (by decide), by decide⟩ each rest
    have chars : (text (.object fields)).toList ++ rest = '\x7b' :: ([','].intercalate
        (fields.map fun field => (stringText field.1 ++ ":" ++ text field.2).toList) ++
          '\x7d' :: rest) := by
      simp [text, fieldTexts_eq_map, String.toList_intercalate, Function.comp_def]
    rw [chars, readValue, skipBlanks_cons (by decide)]
    simp only [read, Option.map_some, lastFields_distinct exact.1]
termination_by sizeOf value
decreasing_by
  · have smaller := List.sizeOf_lt_of_mem member
    simp_wf
    omega
  · have smaller := List.sizeOf_lt_of_mem member
    obtain ⟨name, inner⟩ := field
    simp_wf
    simp only [Prod.mk.sizeOf_spec] at smaller
    omega

theorem parse_text {value : WireValue} (exact : value.Exact) (shallow : value.depth ≤ depthLimit) :
    parse? (text value) = some value := by
  have read := @readValue_text value depthLimit exact shallow [] (by simp [Ends])
  rw [List.append_nil] at read
  simp only [parse?, read, Option.bind_eq_bind, Option.bind_some]
  rfl

end Json

end TabularSql
