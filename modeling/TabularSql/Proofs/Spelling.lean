import TabularSql.Query.Grammar

/-!
# Spelling of tokens

Which characters make up a word, a number or a quoted text, and that scanning such characters in front
of a character that cannot continue them gives the token back. Conversely every token that scanning
finds is spelled this way, so a token can be written and scanned again.
-/

namespace TabularSql

set_option autoImplicit false

/-! ## Classes of characters -/

namespace Text

def CodeRanges.apart (first second : CodeRanges) : Bool :=
  first.all fun left => second.all fun right => left.2 < right.1 || right.2 < left.1

theorem CodeRanges.not_has_of_apart {first second : CodeRanges} {char : Char}
    (apart : first.apart second = true) (inFirst : first.has char = true) :
    second.has char = false := by
  simp only [CodeRanges.has, List.any_eq_true, Bool.and_eq_true, decide_eq_true_eq] at inFirst
  obtain ⟨left, leftListed, above, below⟩ := inFirst
  simp only [CodeRanges.has, List.any_eq_false, Bool.and_eq_true, decide_eq_true_eq]
  rintro right rightListed ⟨aboveRight, belowRight⟩
  simp only [CodeRanges.apart, List.all_eq_true, Bool.or_eq_true, decide_eq_true_eq] at apart
  have := apart left leftListed right rightListed
  omega

def letterRanges : CodeRanges := [(65, 90), (97, 122)]

theorem isAlpha_eq (char : Char) : char.isAlpha =
    (decide (char.val ≥ 'A'.val ∧ char.val ≤ 'Z'.val) ||
      (decide (char.val ≥ 'a'.val) && decide (char.val ≤ 'z'.val))) := rfl

theorem has_letter_of_alpha {char : Char} (alpha : char.isAlpha = true) :
    letterRanges.has char = true := by
  simp only [isAlpha_eq, Bool.or_eq_true, Bool.and_eq_true, decide_eq_true_eq] at alpha
  simp only [CodeRanges.has, letterRanges, List.any_cons, List.any_nil, Bool.or_false,
    Bool.or_eq_true, Bool.and_eq_true, decide_eq_true_eq]
  exact alpha

theorem alphabetic_not_in {ranges : CodeRanges} {char : Char}
    (letters : letterRanges.apart ranges = true) (others : alphabeticRanges.apart ranges = true)
    (alphabetic : isAlphabetic char = true) : ranges.has char = false := by
  simp only [isAlphabetic, Bool.or_eq_true] at alphabetic
  rcases alphabetic with ascii | listed
  · exact CodeRanges.not_has_of_apart letters (has_letter_of_alpha ascii)
  · exact CodeRanges.not_has_of_apart others listed

/-- The ranges of letters lie above ASCII, whose own letters are tested apart. -/
theorem isAlphabetic_ascii {char : Char} (ascii : char.toNat < 128) : isAlphabetic char = char.isAlpha := by
  have above : CodeRanges.apart [(0, 127)] alphabeticRanges = true := by decide +kernel
  have within : CodeRanges.has [(0, 127)] char = true := by
    simp only [CodeRanges.has, List.any_cons, List.any_nil, Bool.or_false, Bool.and_eq_true, decide_eq_true_eq]
    omega
  simp [isAlphabetic, CodeRanges.not_has_of_apart above within]

theorem toUpper_toUpper (char : Char) : char.toUpper.toUpper = char.toUpper := by
  have notLower : ¬ ('a'.val ≤ char.toUpper.val ∧ char.toUpper.val ≤ 'z'.val) := by
    unfold Char.toUpper
    split
    · next lower =>
        have first : 'a'.val = 97 := by decide
        have last : 'z'.val = 122 := by decide
        simp only [first, last, UInt32.le_iff_toNat_le, UInt32.toNat_add] at lower ⊢
        simp at lower ⊢
        omega
    · next other => exact other
  rw [Char.toUpper.eq_def char.toUpper, dif_neg notLower]

theorem upper_upper (text : String) : upper (upper text) = upper text := by
  have same : Char.toUpper ∘ Char.toUpper = Char.toUpper := funext toUpper_toUpper
  simp [upper, List.map_map, same]

theorem alphabetic_not_blank {char : Char} (alphabetic : isAlphabetic char = true) :
    isBlank char = false :=
  alphabetic_not_in (by decide) (by decide +kernel) alphabetic

end Text

namespace Token

variable {char : Char} {rest digits : List Char}

theorem isWordStart_ascii (ascii : char.toNat < 128) :
    isWordStart char = (char.isAlpha || char = '_') := by
  rw [isWordStart, Text.isAlphabetic_ascii ascii]

theorem isWordPart_ascii (ascii : char.toNat < 128) : isWordPart char =
    (char.isAlpha || char.isDigit || char = '@' || char = '$' || char = '#' || char = '_') := by
  rw [isWordPart, Text.isAlphabetic_ascii ascii]

/-- A sign that opens no word, known without the ranges of letters. -/
theorem not_wordStart {char : Char} (ascii : char.toNat < 128) (other : (char.isAlpha || char = '_') = false) :
    ¬ isWordStart char = true := by
  simp [isWordStart_ascii ascii, other]

theorem word_start_not_blank (start : isWordStart char = true) :
    Text.isBlank char = false := by
  simp only [isWordStart, Bool.or_eq_true, decide_eq_true_eq] at start
  rcases start with alphabetic | rfl
  · exact Text.alphabetic_not_blank alphabetic
  · decide

theorem digit_ranges (digit : char.isDigit = true) :
    48 ≤ char.toNat ∧ char.toNat ≤ 57 := by
  simp only [Char.isDigit, Bool.and_eq_true, decide_eq_true_eq] at digit
  exact digit

theorem digit_not_in {ranges : Text.CodeRanges} (digit : char.isDigit = true)
    (apart : Text.CodeRanges.apart [(48, 57)] ranges = true) : ranges.has char = false := by
  refine Text.CodeRanges.not_has_of_apart apart ?_
  have bounds := digit_ranges digit
  simp [Text.CodeRanges.has, bounds]

theorem digit_not_blank (digit : char.isDigit = true) : Text.isBlank char = false :=
  digit_not_in digit (by decide)

theorem digit_not_start (digit : char.isDigit = true) :
    isWordStart char = false := by
  have bounds := digit_ranges digit
  have notAlpha : char.isAlpha = false := by
    refine Bool.eq_false_iff.mpr fun alpha => ?_
    have listed := Text.has_letter_of_alpha alpha
    simp [Text.CodeRanges.has, Text.letterRanges] at listed
    omega
  have notLine : char ≠ '_' := by
    rintro rfl
    simp at bounds
  simpa using @not_wordStart char (by omega) (by simp [notAlpha, notLine])

theorem digit_ne {other : Char} (digit : char.isDigit = true) (notDigit : other.isDigit = false) :
    char ≠ other := by
  rintro rfl
  simp [digit] at notDigit

/-! ## One step of a scan -/

theorem scan_found {char : Char} {rest left : List Char} {token : Token}
    (stepped : step char rest = found token left) :
    scan (char :: rest) = (scan left).map (token :: ·) := by
  rw [scan]
  split
  · next failed => simp [stepped, found] at failed
  · next given =>
      rw [stepped, found] at given
      cases given
      rfl

theorem scan_skipped {left : List Char} (stepped : step char rest = .ok (none, left)) : scan (char :: rest)
    = scan left := by
  rw [scan]
  split
  · next failed => simp [stepped] at failed
  · next given =>
      rw [stepped] at given
      cases given
      cases scan left <;> rfl

/-! ## Words -/

def AllParts (chars : List Char) : Prop := ∀ char ∈ chars, isWordPart char = true

/-- A sign that opens a word together with the next character, whatever that is. -/
def Sigil (sigil : List Char) (next : Char) : Prop :=
  sigil = ['#'] ∧ next ∉ [' ', '-', '>'] ∨ sigil = ['@'] ∧ next ∉ [' ', '>', '?', '@'] ∨
    sigil = ['@', '@'] ∧ next ≠ ' '

/-- How a word without quotes is spelled. -/
inductive WordShape : List Char → Prop where
  | letters {first : Char} {rest : List Char} (start : isWordStart first = true)
      (parts : AllParts rest) : WordShape (first :: rest)
  | sigil {sigil rest : List Char} {next : Char} (opens : Sigil sigil next)
      (parts : AllParts rest) : WordShape (sigil ++ next :: rest)

/-- Whether a character ends a word. A quote or an ampersand would make its first letter announce a
literal. -/
def endsWord (next : Char) : Bool :=
  !isWordPart next && next ≠ '\'' && next ≠ '"' && next ≠ '&'

theorem endsWord_period : endsWord '.' = true := by
  rw [endsWord, isWordPart_ascii (by decide)]
  decide

theorem takeWhile_until {test : Char → Bool} {taken rest : List Char}
    (passes : ∀ char ∈ taken, test char = true) (stops : ∀ next ∈ rest.head?, test next = false) :
    (taken ++ rest).takeWhile test = taken := by
  rw [List.takeWhile_append_of_pos passes]
  cases rest with
  | nil => simp
  | cons next rest => simp [stops next rfl]

theorem dropWhile_until {test : Char → Bool} {taken rest : List Char}
    (passes : ∀ char ∈ taken, test char = true) (stops : ∀ next ∈ rest.head?, test next = false) :
    (taken ++ rest).dropWhile test = rest := by
  rw [List.dropWhile_append_of_pos passes]
  cases rest with
  | nil => simp
  | cons next rest => simp [stops next rfl]

theorem scanWord_until {taken parts : List Char} (all : AllParts parts)
    (ends : ∀ next ∈ rest.head?, endsWord next = true) :
    scanWord taken (parts ++ rest) = found (word (String.ofList (taken ++ parts)) none) rest := by
  have stops : ∀ next ∈ rest.head?, isWordPart next = false := by
    intro next head
    have ended := ends next head
    simp only [endsWord, Bool.and_eq_true, Bool.not_eq_true'] at ended
    exact ended.1.1.1
  rw [scanWord, takeWhile_until all stops, dropWhile_until all stops]

theorem word_part_not_quote (part : isWordPart char = true) :
    char ≠ '\'' ∧ char ≠ '"' ∧ char ≠ '&' := by
  refine ⟨?_, ?_, ?_⟩ <;> rintro rfl <;> rw [isWordPart_ascii (by decide)] at part <;> revert part <;> decide

/-- A letter opens a word unless a quote follows it. -/
theorem scanLetter_word {letter : Char}
    (next : ∀ char ∈ rest.head?, char ≠ '\'' ∧ char ≠ '"' ∧ char ≠ '&') :
    scanLetter letter rest = scanWord [letter] rest := by
  cases rest with
  | nil => simp [scanLetter]
  | cons char rest =>
    obtain ⟨single, double, ampersand⟩ := next char rfl
    simp [scanLetter, single, double, Ne.symm ampersand]

theorem step_sigil {sigil rest : List Char} {next : Char} (opens : Sigil sigil next) :
    ∃ char behind, sigil ++ next :: rest = char :: behind ∧
      step char behind = scanWord (sigil ++ [next]) rest := by
  rcases opens with ⟨rfl, other⟩ | ⟨rfl, other⟩ | ⟨rfl, other⟩
  · refine ⟨'#', next :: rest, rfl, ?_⟩
    simp only [List.mem_cons, List.not_mem_nil, or_false, not_or] at other
    simp [step, scanSigil, other, show Text.isBlank '#' = false by decide,
      @not_wordStart '#' (by decide) (by decide)]
  · refine ⟨'@', next :: rest, rfl, ?_⟩
    simp only [List.mem_cons, List.not_mem_nil, or_false, not_or] at other
    simp [step, scanSigil, other, show Text.isBlank '@' = false by decide,
      @not_wordStart '@' (by decide) (by decide)]
  · refine ⟨'@', '@' :: next :: rest, rfl, ?_⟩
    simp [step, scanSigil, other, show Text.isBlank '@' = false by decide,
      @not_wordStart '@' (by decide) (by decide)]

theorem scan_word {name rest : List Char} (shape : WordShape name)
    (ends : ∀ next ∈ rest.head?, endsWord next = true) :
    scan (name ++ rest) = (scan rest).map (word (String.ofList name) none :: ·) := by
  cases shape with
  | @letters first parts start all =>
    have next : ∀ char ∈ (parts ++ rest).head?, char ≠ '\'' ∧ char ≠ '"' ∧ char ≠ '&' := by
      intro char head
      cases parts with
      | nil =>
        have ended := ends char head
        simp only [endsWord, Bool.and_eq_true, decide_eq_true_eq] at ended
        exact ⟨ended.1.1.2, ended.1.2, ended.2⟩
      | cons part parts =>
        cases head
        exact word_part_not_quote (all _ (by simp))
    refine scan_found ?_
    rw [List.append_eq, step, if_neg (by simp [word_start_not_blank start]), if_pos start,
      scanLetter_word next, scanWord_until all ends]
    rfl
  | @sigil sigil parts next opens all =>
    obtain ⟨char, behind, same, stepped⟩ := @step_sigil sigil (parts ++ rest) next opens
    rw [List.append_assoc, List.cons_append, same]
    refine scan_found ?_
    rw [stepped, scanWord_until all ends]
    simp

/-! ## Quoted text -/

theorem takeQuoted_doubled (quote : Char) (text rest : List Char)
    (ends : ∀ next ∈ rest.head?, next ≠ quote) :
    takeQuoted quote (Text.doubled quote text ++ quote :: rest) = some (text, rest) := by
  induction text with
  | nil =>
    cases rest with
    | nil => simp [Text.doubled, takeQuoted]
    | cons next rest => simp [Text.doubled, takeQuoted, ends next rfl]
  | cons char text ih =>
    by_cases same : char = quote
    · subst same
      simp [Text.doubled, takeQuoted, ih, push]
    · rw [Text.doubled, if_neg same, List.cons_append]
      -- What follows the character is never empty: at least the closing quote is left.
      obtain ⟨next, behind, split⟩ : ∃ next behind,
          Text.doubled quote text ++ quote :: rest = next :: behind := by
        cases Text.doubled quote text <;> exact ⟨_, _, rfl⟩
      rw [split, takeQuoted, if_neg same, ← split, ih]
      rfl

theorem scan_string (value : String) (ends : ∀ next ∈ rest.head?, next ≠ '\'') :
    scan ((Text.enclosed '\'' value).toList ++ rest) = (scan rest).map (string value :: ·) := by
  have taken := takeQuoted_doubled '\'' value.toList rest ends
  simp only [Text.enclosed, String.toList_ofList, List.cons_append, List.append_assoc,
    List.nil_append]
  refine scan_found ?_
  rw [step, if_neg (by decide), if_neg (not_wordStart (by decide) (by decide)), if_pos rfl]
  simp only [taken, String.ofList_toList]

theorem scan_quoted {quote : Char} (known : quote = '"' ∨ quote = '`') (name : String)
    (ends : ∀ next ∈ rest.head?, next ≠ quote) :
    scan ((Text.enclosed quote name).toList ++ rest) =
      (scan rest).map (word name (some quote) :: ·) := by
  have taken := takeQuoted_doubled quote name.toList rest ends
  simp only [Text.enclosed, String.toList_ofList, List.cons_append, List.append_assoc,
    List.nil_append]
  refine scan_found ?_
  rcases known with rfl | rfl
  all_goals
    rw [step, if_neg (by decide), if_neg (not_wordStart (by decide) (by decide)), if_neg (by decide),
      if_pos (by decide)]
    simp only [taken, String.ofList_toList]

/-! ## Numbers -/

def AllDigits (chars : List Char) : Prop := ∀ char ∈ chars, char.isDigit = true

inductive ExponentShape : List Char → Prop where
  | none : ExponentShape []
  | plain {letter : Char} {digits : List Char} (marks : letter = 'e' ∨ letter = 'E')
      (some : digits ≠ []) (all : AllDigits digits) : ExponentShape (letter :: digits)
  | signed {letter sign : Char} {digits : List Char} (marks : letter = 'e' ∨ letter = 'E')
      (signs : sign = '+' ∨ sign = '-') (some : digits ≠ []) (all : AllDigits digits) :
      ExponentShape (letter :: sign :: digits)

/-- How a number is spelled: digits with or without a point, not the point alone, and an exponent. -/
inductive NumeralShape : List Char → Prop where
  | whole {digits exponent : List Char} (some : digits ≠ []) (all : AllDigits digits)
      (shape : ExponentShape exponent) : NumeralShape (digits ++ exponent)
  | pointed {digits fraction exponent : List Char} (some : digits ++ fraction ≠ [])
      (all : AllDigits digits) (others : AllDigits fraction) (shape : ExponentShape exponent) :
      NumeralShape (digits ++ '.' :: fraction ++ exponent)

def endsNumber (next : Char) : Bool :=
  !next.isDigit && next ≠ '.' && next ≠ 'e' && next ≠ 'E' && next ≠ 'x' && next ≠ 'L'

theorem endsNumber_not_digit (ends : ∀ next ∈ rest.head?, endsNumber next = true) :
    ∀ next ∈ rest.head?, next.isDigit = false := by
  intro next head
  have ended := ends next head
  simp only [endsNumber, Bool.and_eq_true, Bool.not_eq_true'] at ended
  exact ended.1.1.1.1.1

theorem takeExponent_until {exponent : List Char} (shape : ExponentShape exponent)
    (ends : ∀ next ∈ rest.head?, endsNumber next = true) :
    takeExponent (exponent ++ rest) = (exponent, rest) := by
  have stops := endsNumber_not_digit ends
  cases shape with
  | none =>
    rcases rest with _ | ⟨letter, _ | ⟨next, rest⟩⟩
    · rfl
    · rfl
    · have ended := ends letter rfl
      simp only [endsNumber, Bool.and_eq_true, decide_eq_true_eq] at ended
      simp [takeExponent, ended.1.1.1.2, ended.1.1.2]
  | @plain letter digits marks some all =>
    obtain ⟨first, others, rfl⟩ := List.exists_cons_of_ne_nil some
    have digit := all first (by simp)
    have rest' : AllDigits others := fun char member => all char (by simp [member])
    have isMark : (letter = 'e' || letter = 'E') = true := by simpa using marks
    simp only [List.cons_append, takeExponent]
    rw [if_pos isMark, if_pos digit, takeWhile_until rest' stops, dropWhile_until rest' stops]
  | @signed letter sign digits marks signs some all =>
    obtain ⟨first, others, rfl⟩ := List.exists_cons_of_ne_nil some
    have digit := all first (by simp)
    have isMark : (letter = 'e' || letter = 'E') = true := by simpa using marks
    have notDigit : sign.isDigit = false := by rcases signs with rfl | rfl <;> rfl
    have isSign : ((sign = '+' || sign = '-') &&
        ((first :: others) ++ rest).head?.any Char.isDigit) = true := by
      simpa [digit] using signs
    simp only [List.cons_append, takeExponent]
    rw [if_pos isMark, if_neg (by simp [notDigit]), if_pos (by simpa using isSign)]
    rw [← List.cons_append, takeWhile_until all stops, dropWhile_until all stops]

theorem step_number (start : char.isDigit = true ∨ char = '.') :
    step char rest = scanNumber (char :: rest) := by
  rcases start with digit | rfl
  · rw [step, if_neg (by simp [digit_not_blank digit]), if_neg (by simp [digit_not_start digit]),
      if_neg (digit_ne digit (by decide)),
      if_neg (by simp [digit_ne digit (show '"'.isDigit = false by decide),
        digit_ne digit (show '`'.isDigit = false by decide)]), if_pos (by simp [digit])]
  · rw [step, if_neg (by decide), if_neg (not_wordStart (by decide) (by decide)), if_neg (by decide),
      if_neg (by decide), if_pos (by decide)]

theorem scanLong_until (ends : ∀ next ∈ rest.head?, endsNumber next = true) :
    scanLong digits rest = found (number (String.ofList digits) false) rest := by
  unfold scanLong
  split
  · next behind =>
      have ended := ends 'L' rfl
      simp [endsNumber] at ended
  · rfl

theorem scanFraction_until {taken fraction exponent rest : List Char}
    (all : AllDigits fraction) (notPoint : taken ++ fraction ≠ ['.'])
    (shape : ExponentShape exponent) (ends : ∀ next ∈ rest.head?, endsNumber next = true) :
    scanFraction taken (fraction ++ exponent ++ rest) =
      found (number (String.ofList (taken ++ fraction ++ exponent)) false) rest := by
  have stops : ∀ next ∈ (exponent ++ rest).head?, next.isDigit = false := by
    intro next head
    cases shape with
    | none => exact endsNumber_not_digit ends next head
    | plain marks | signed marks =>
      cases head
      rcases marks with rfl | rfl <;> decide
  rw [List.append_assoc, scanFraction, takeWhile_until all stops, dropWhile_until all stops]
  simp only [takeExponent_until shape ends]
  rw [if_neg notPoint, scanLong_until ends]

theorem scan_number (shape : NumeralShape digits) (ends : ∀ next ∈ rest.head?, endsNumber next = true) :
    scan (digits ++ rest) = (scan rest).map (number (String.ofList digits) false :: ·) := by
  cases shape with
  | @whole whole exponent some all shape =>
    obtain ⟨first, others, rfl⟩ := List.exists_cons_of_ne_nil some
    -- Behind the whole digits stands the exponent or the end of the number.
    have next : ∀ next ∈ (exponent ++ rest).head?,
        next.isDigit = false ∧ next ≠ '.' ∧ next ≠ 'x' := by
      intro next head
      cases shape with
      | none =>
        have ended := ends next head
        simp only [endsNumber, Bool.and_eq_true, Bool.not_eq_true', decide_eq_true_eq] at ended
        exact ⟨ended.1.1.1.1.1, ended.1.1.1.1.2, ended.1.2⟩
      | plain marks | signed marks =>
        cases head
        rcases marks with rfl | rfl <;> decide
    have notDigit : ∀ char ∈ (exponent ++ rest).head?, char.isDigit = false :=
      fun char head => (next char head).1
    have scanned := @scanFraction_until (first :: others) [] exponent rest (by simp [AllDigits]) (by
        have digit := all first (by simp)
        rintro same
        simp only [List.append_nil, List.cons.injEq] at same
        simp [same.1] at digit) shape ends
    simp only [List.append_nil, List.nil_append] at scanned
    refine @scan_found first (others ++ exponent ++ rest) _ _ ?_
    rw [step_number (.inl (all first (by simp))), scanNumber]
    rw [show first :: (others ++ exponent ++ rest) = (first :: others) ++ (exponent ++ rest) by simp,
      takeWhile_until all notDigit, dropWhile_until all notDigit]
    split
    · next same => exact absurd rfl (next '.' (by simp [same])).2.1
    · next same => exact absurd rfl (next 'x' (by simp [same])).2.2
    · exact scanned
  | @pointed whole fraction exponent some all others shape =>
    have notDigit : ∀ char ∈ ('.' :: (fraction ++ exponent ++ rest)).head?,
        char.isDigit = false := by
      intro char head
      cases head
      decide
    have scanned := @scanFraction_until (whole ++ ['.']) fraction exponent rest others (by
        intro same
        cases whole with
        | nil => simp_all
        | cons first whole =>
          have digit := all first (by simp)
          simp only [List.cons_append, List.cons.injEq] at same
          simp [same.1] at digit) shape ends
    obtain ⟨first, behind, same, start⟩ : ∃ first behind,
        whole ++ '.' :: (fraction ++ exponent ++ rest) = first :: behind ∧
          (first.isDigit = true ∨ first = '.') := by
      cases whole with
      | nil => exact ⟨_, _, rfl, .inr rfl⟩
      | cons first whole => exact ⟨_, _, rfl, .inl (all first (by simp))⟩
    have whole_eq : whole ++ '.' :: fraction ++ exponent ++ rest = first :: behind := by
      rw [← same]
      simp
    rw [whole_eq]
    refine scan_found ?_
    rw [step_number start, ← same, scanNumber, takeWhile_until all notDigit,
      dropWhile_until all notDigit]
    simpa using scanned

/-! ## Marks -/

/-- The marks that canonical text uses. -/
def isWritten : Mark → Bool
  | .doubleEqual | .semicolon => false
  | _ => true

def continues (next : Char) : Mark → Bool
  | .minus => '-' == next || '>' == next
  | .slash => '*' == next || '/' == next
  | .equal => '=' == next || '>' == next
  | .less => '=' == next || '>' == next || '<' == next || '@' == next
  | .lessEqual => '>' == next
  | .greater => '=' == next || '>' == next
  | .colon => ':' == next || '=' == next
  | .period => next.isDigit
  | _ => false

theorem scan_period (ends : ∀ next ∈ rest.head?, next.isDigit = false) :
    scan ('.' :: rest) = (scan rest).map (mark .period :: ·) := by
  refine scan_found ?_
  have taken := @takeWhile_until Char.isDigit [] rest (by simp) ends
  have dropped := @dropWhile_until Char.isDigit [] rest (by simp) ends
  simp only [List.nil_append] at taken dropped
  rw [step_number (.inr rfl)]
  simp [scanNumber, scanFraction, taken, dropped]

theorem scan_mark {known : Mark} {rest : List Char} (written : isWritten known = true)
    (ends : ∀ next ∈ rest.head?, continues next known = false) :
    scan (known.text.toList ++ rest) = (scan rest).map (mark known :: ·) := by
  cases known with
  | doubleEqual | semicolon => simp [isWritten] at written
  | period => exact scan_period ends
  | _ =>
    simp only [Mark.text, String.reduceToList, List.cons_append, List.nil_append]
    refine scan_found ?_
    rw [step, if_neg (by decide), if_neg (not_wordStart (by decide) (by decide)), if_neg (by decide),
      if_neg (by decide), if_neg (by decide)]
    cases rest with
    | nil => simp [scanMark, marks, List.find?, List.isPrefixOf]
    | cons next rest =>
      have ended := ends next rfl
      simp only [continues, Bool.or_eq_false_iff] at ended
      simp [scanMark, marks, List.find?, List.isPrefixOf, ended]
      -- Left are the minus and the slash, which could also have opened a comment.
      all_goals
        rintro rfl
        simp at ended

/-! ## What scanning finds -/

/-- The token is made of characters that give it back. -/
def Spelled : Token → Prop
  | word name none => WordShape name.toList
  | word _ (some quote) => quote = '"' ∨ quote = '`'
  | number digits _ => NumeralShape digits.toList
  | _ => True

/-- The token of a step, if there is one, is spelled well. -/
def FindsSpelled (result : Step) : Prop :=
  ∀ token rest, result = .ok (some token, rest) → token.Spelled

theorem finds_found {token : Token} (spelled : token.Spelled) :
    FindsSpelled (found token rest) := by
  intro _ _ same
  cases same
  exact spelled

theorem finds_skipped : FindsSpelled (.ok (none, rest)) := by
  intro _ _ same
  cases same

theorem finds_error {problem : LexicalFault} : FindsSpelled (.error problem) := by
  intro _ _ same
  cases same

theorem finds_ite {test : Prop} [Decidable test] {first second : Step}
    (then_ : test → FindsSpelled first) (else_ : ¬ test → FindsSpelled second) :
    FindsSpelled (if test then first else second) := by
  by_cases holds : test
  · simpa only [if_pos holds] using then_ holds
  · simpa only [if_neg holds] using else_ holds

theorem takeWhile_passes (test : Char → Bool) (chars : List Char) :
    ∀ char ∈ chars.takeWhile test, test char = true :=
  List.all_eq_true.mp List.all_takeWhile

theorem finds_literal {opening closing : String} {problem : LexicalProblem} {place : List Char}
    {body : Option (List Char × List Char)} :
    FindsSpelled (scanLiteral opening closing problem place body) := by
  cases body with
  | none => exact finds_error
  | some pair => exact finds_found trivial

theorem finds_letter {letter : Char} (start : isWordStart letter = true) :
    FindsSpelled (scanLetter letter rest) := by
  have raw (quote : Char) : FindsSpelled (scanRaw quote rest) :=
    finds_ite (fun _ => finds_literal) fun _ =>
      finds_ite (fun _ => finds_found trivial) fun _ => finds_literal
  have unicode : FindsSpelled (scanUnicode (rest.drop 2)) := by
    unfold scanUnicode
    split
    · exact finds_found trivial
    · exact finds_error
  refine finds_ite (fun _ => finds_literal) fun _ =>
    finds_ite (fun _ => finds_literal) fun _ =>
    finds_ite (fun _ => raw _) fun _ =>
    finds_ite (fun _ => raw _) fun _ =>
    finds_ite (fun _ => finds_literal) fun _ =>
    finds_ite (fun _ => finds_literal) fun _ =>
    finds_ite (fun _ => finds_literal) fun _ =>
    finds_ite (fun _ => unicode) fun _ => finds_found ?_
  have shape := WordShape.letters start (takeWhile_passes isWordPart rest)
  simpa [Spelled] using shape

theorem finds_sigil {sigil : List Char} (opens : ∀ next ∈ rest.head?, next ≠ ' ' → Sigil sigil next) :
    FindsSpelled (scanSigil sigil rest) := by
  cases rest with
  | nil => exact finds_found trivial
  | cons next rest =>
    refine finds_ite (fun _ => finds_found trivial) fun notSpace => finds_found ?_
    have shape := WordShape.sigil (opens next rfl notSpace) (takeWhile_passes isWordPart rest)
    simpa [Spelled] using shape

theorem takeExponent_shape (chars : List Char) : ExponentShape (takeExponent chars).1 := by
  fun_cases takeExponent chars with
  | case1 letter next rest marks digit =>
    refine .plain (by simpa using marks) (by simp) ?_
    intro char member
    rcases List.mem_cons.mp member with rfl | behind
    · exact digit
    · exact takeWhile_passes _ _ _ behind
  | case2 letter next rest marks _ signs =>
    simp only [Bool.and_eq_true, Bool.or_eq_true, decide_eq_true_eq] at marks signs
    refine .signed marks signs.1 ?_ (takeWhile_passes _ _)
    cases rest with
    | nil => simp at signs
    | cons digit rest =>
      have digits : digit.isDigit = true := by simpa using signs.2
      simp [digits]
  | case3 | case4 | case5 => exact .none

theorem finds_long (shape : NumeralShape digits) :
    FindsSpelled (scanLong digits rest) := by
  unfold scanLong
  split <;> exact finds_found (by simpa [Spelled] using shape)

/-- The whole digits in front of a fraction may be missing, the digits of a number without a point may
not. -/
theorem finds_fraction {taken : List Char}
    (before : taken ≠ [] ∧ AllDigits taken ∨ ∃ whole, AllDigits whole ∧ taken = whole ++ ['.']) :
    FindsSpelled (scanFraction taken rest) := by
  have digits : AllDigits (rest.takeWhile Char.isDigit) := takeWhile_passes _ _
  have exponentShape := takeExponent_shape (rest.dropWhile Char.isDigit)
  unfold scanFraction
  refine finds_ite (fun _ => finds_found trivial) fun notPoint => ?_
  generalize takeExponent (rest.dropWhile Char.isDigit) = split at exponentShape ⊢
  obtain ⟨exponent, behind⟩ := split
  refine finds_long ?_
  rcases before with ⟨some, all⟩ | ⟨whole, all, rfl⟩
  · refine .whole (by simp [some]) ?_ exponentShape
    intro char member
    rcases List.mem_append.mp member with inTaken | inRest
    · exact all char inTaken
    · exact digits char inRest
  · have shape := NumeralShape.pointed (by
      intro empty
      obtain ⟨rfl, none⟩ := List.append_eq_nil_iff.mp empty
      simp [none] at notPoint) all digits exponentShape
    simpa using shape

theorem finds_number (start : char.isDigit || char = '.') :
    FindsSpelled (scanNumber (char :: rest)) := by
  have digits : AllDigits ((char :: rest).takeWhile Char.isDigit) := takeWhile_passes _ _
  have notEmpty (noPoint : ∀ behind, (char :: rest).dropWhile Char.isDigit ≠ '.' :: behind) :
      (char :: rest).takeWhile Char.isDigit ≠ [] := by
    by_cases digit : char.isDigit = true
    · simp [digit]
    · have point : char = '.' := by simpa [digit] using start
      exact absurd (by simp [point]) (noPoint rest)
  unfold scanNumber
  split
  · exact finds_fraction (.inr ⟨_, digits, rfl⟩)
  · next behind same =>
      refine finds_ite (fun _ => finds_found trivial) fun _ => finds_fraction (.inl ⟨?_, digits⟩)
      exact notEmpty fun _ other => by simp [same] at other
  · next noPoint _ => exact finds_fraction (.inl ⟨notEmpty noPoint, digits⟩)

theorem finds_mark (char : Char) (rest : List Char) : FindsSpelled (scanMark char rest) := by
  have table : ∀ entry ∈ marks, entry.2.Spelled := by
    simp [marks, Spelled]
  unfold scanMark
  split
  · next listed => exact finds_found (table _ (List.mem_of_find?_eq_some listed))
  · exact finds_found trivial

theorem finds_dollar (chars : List Char) : FindsSpelled (scanDollar chars) := by
  unfold scanDollar
  simp only
  repeat' split
  all_goals first | exact finds_found trivial | exact finds_error

theorem finds_step (char : Char) (rest : List Char) : FindsSpelled (step char rest) := by
  refine finds_ite (fun _ => finds_skipped) fun _ =>
    finds_ite (fun start => finds_letter start) fun _ =>
    finds_ite (fun _ => ?string) fun _ =>
    finds_ite (fun quoted => ?name) fun _ =>
    finds_ite (fun start => finds_number start) fun _ =>
    finds_ite (fun _ => finds_skipped) fun _ =>
    finds_ite (fun _ => ?comment) fun _ =>
    finds_ite (fun _ => finds_found trivial) fun _ =>
    finds_ite (fun _ => finds_dollar _) fun _ =>
    finds_ite (fun _ => finds_sigil ?twice) fun single =>
    finds_ite (fun opens => finds_sigil ?once) fun _ =>
    finds_ite (fun opens => finds_sigil ?number) fun _ => finds_mark _ _
  case string =>
    split
    · exact finds_found trivial
    · exact finds_error
  case name =>
    split
    · exact finds_found (by simpa [Spelled] using quoted)
    · exact finds_error
  case comment =>
    unfold scanBlockComment
    split
    · exact finds_skipped
    · exact finds_error
  case twice =>
    intro next head notSpace
    exact .inr (.inr ⟨rfl, notSpace⟩)
  case once =>
    intro next head notSpace
    rw [Option.mem_def] at head
    simp only [head, Bool.and_eq_true, decide_eq_true_eq, Option.all_some] at opens single
    have notAgain : next ≠ '@' := fun same => single ⟨opens.1, congrArg some same⟩
    exact .inr (.inl ⟨rfl, by simp [notSpace, opens.2, notAgain]⟩)
  case number =>
    intro next head notSpace
    rw [Option.mem_def] at head
    simp only [head, Bool.and_eq_true, decide_eq_true_eq, Option.all_some] at opens
    exact .inl ⟨rfl, by simp [notSpace, opens.2]⟩

theorem scan_spelled {chars : List Char} {tokens : List Token} (scanned : scan chars = .ok tokens) :
    ∀ token ∈ tokens, token.Spelled := by
  fun_induction scan chars generalizing tokens with
  | case1 =>
    cases scanned
    simp
  | case2 => cases scanned
  | case3 char rest token left stepped ih =>
    cases inner : scan left with
    | error problem => simp [inner, Except.map] at scanned
    | ok others =>
      rw [inner] at scanned
      cases scanned
      intro member listed
      rcases List.mem_append.mp listed with own | behind
      · rw [Option.mem_toList] at own
        exact finds_step char rest member left (own ▸ stepped)
      · exact ih inner member behind

end Token

end TabularSql
