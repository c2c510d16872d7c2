import Mathlib.Data.List.Chain
import TabularSql.Proofs.Lexeme
import TabularSql.Proofs.Shape

/-!
# Scanning canonical text

Each lexeme stands for tokens, and scanning its characters gives them back as long as the next character
cannot continue it. In canonical text no lexeme is continued by the next one, so scanning the text of a
writable fragment gives exactly the tokens of its lexemes.
-/

namespace TabularSql

set_option autoImplicit false

open Token (WordShape NumeralShape AllDigits endsWord endsNumber scan)

namespace Lexeme

/-- The tokens that a lexeme stands for. A minus in front of a number is a token of its own. -/
def tokens : Lexeme → List Token
  | space => []
  | mark known => [.mark known]
  | word name => [.word name none]
  | quoted quote name => [.word name (some quote)]
  | number digits =>
    match digits.toList with
    | '-' :: behind => [.mark .minus, .number (String.ofList behind) false]
    | _ => [.number digits false]
  | string value => [.string value]
  | placeholder name => [.mark .colon, .word name none]
  | table name =>
    match scan name.toList with
    | .ok found => found
    | .error _ => []

def tokensOf (lexemes : List Lexeme) : List Token := lexemes.flatMap tokens

@[simp] theorem tokensOf_nil : tokensOf [] = [] := rfl

@[simp] theorem tokensOf_cons (first : Lexeme) (rest : List Lexeme) :
    tokensOf (first :: rest) = first.tokens ++ tokensOf rest := rfl

@[simp] theorem tokensOf_append (first second : List Lexeme) :
    tokensOf (first ++ second) = tokensOf first ++ tokensOf second :=
  List.flatMap_append

/-! ## One lexeme -/

/-- The characters of the version of a table, with the point. -/
def VersionShape (version : List Char) : Prop :=
  version = [] ∨ ∃ digits, digits ≠ [] ∧ AllDigits digits ∧ version = '.' :: digits

/-- The characters of a lexeme are those of its tokens. -/
def Spelled : Lexeme → Prop
  | space | string _ => True
  | mark known => Token.isWritten known = true
  | word name | placeholder name => WordShape name.toList
  | quoted quote _ => quote = '"' ∨ quote = '`'
  | number digits => (Literal.number digits).Grammatical
  | table name => ∃ word version, name.toList = word ++ version ∧ WordShape word ∧
      VersionShape version

/-- Whether a character behind the lexeme leaves it as it is. -/
def allows (next : Char) : Lexeme → Bool
  | space => true
  | mark known => !Token.continues next known
  | word _ | placeholder _ => endsWord next
  | quoted quote _ => next ≠ quote
  | number _ => endsNumber next
  | string _ => next ≠ '\''
  | table _ => endsWord next && endsNumber next

/-- The second lexeme can be written directly behind the first one. -/
def Apart (first second : Lexeme) : Prop :=
  ∀ next ∈ second.chars.head?, first.allows next = true

theorem word_first {chars : List Char} (shape : WordShape chars) :
    ∃ first rest, chars = first :: rest ∧
      (Token.isWordStart first = true ∨ first = '#' ∨ first = '@') := by
  cases shape with
  | letters start parts => exact ⟨_, _, rfl, .inl start⟩
  | sigil opens parts =>
    rcases opens with ⟨rfl, _⟩ | ⟨rfl, _⟩ | ⟨rfl, _⟩
    · exact ⟨_, _, rfl, .inr (.inl rfl)⟩
    · exact ⟨_, _, rfl, .inr (.inr rfl)⟩
    · exact ⟨_, _, rfl, .inr (.inr rfl)⟩

theorem numeral_first {chars : List Char} (shape : NumeralShape chars) :
    ∃ first rest, chars = first :: rest ∧ (first.isDigit = true ∨ first = '.') := by
  cases shape with
  | @whole digits exponent some all =>
    obtain ⟨first, others, rfl⟩ := List.exists_cons_of_ne_nil some
    exact ⟨_, _, rfl, .inl (all first (by simp))⟩
  | @pointed digits fraction exponent some all others =>
    cases digits with
    | nil => exact ⟨_, _, rfl, .inr rfl⟩
    | cons first digits => exact ⟨_, _, rfl, .inl (all first (by simp))⟩

theorem first_not_sign {first : Char}
    (start : (Token.isWordStart first = true ∨ first = '#' ∨ first = '@') ∨
      first.isDigit = true ∨ first = '.') : first ∉ ['-', '>', '*', '/', ':', '=', '<'] := by
  intro listed
  simp only [List.mem_cons, List.not_mem_nil, or_false] at listed
  rcases listed with rfl | rfl | rfl | rfl | rfl | rfl | rfl <;>
    rw [Token.isWordStart_ascii (by decide)] at start <;> revert start <;> decide

theorem numeral_not_minus {chars : List Char} (shape : NumeralShape chars) :
    chars.head? ≠ some '-' := by
  obtain ⟨first, rest, rfl, start⟩ := numeral_first shape
  intro same
  have minus : first = '-' := by simpa using same
  subst minus
  revert start
  decide

theorem tokens_of_numeral {digits : String} (shape : NumeralShape digits.toList) :
    (number digits).tokens = [.number digits false] := by
  have notMinus := numeral_not_minus shape
  simp only [tokens]
  split
  · next behind same => simp [same] at notMinus
  · rfl

theorem tokens_of_negative {digits : String} {behind : List Char}
    (same : digits.toList = '-' :: behind) :
    (number digits).tokens = [.mark .minus, .number (String.ofList behind) false] := by
  simp only [tokens, same]

theorem scan_version {word version rest : List Char} (shape : WordShape word)
    (behind : VersionShape version)
    (ends : ∀ next ∈ rest.head?, endsWord next = true ∧ endsNumber next = true) :
    scan (word ++ version ++ rest) = (scan rest).map
      ((.word (String.ofList word) none ::
        if version.isEmpty then [] else [Token.number (String.ofList version) false]) ++ ·) := by
  have endsWords : ∀ next ∈ rest.head?, endsWord next = true := fun next head => (ends next head).1
  rcases behind with rfl | ⟨digits, some, all, rfl⟩
  · rw [List.append_nil, Token.scan_word shape endsWords]
    rfl
  · have numeral : NumeralShape ('.' :: digits) := by
      have pointed := @NumeralShape.pointed [] digits [] some (by simp [AllDigits]) all .none
      simpa using pointed
    have point : ∀ next ∈ ('.' :: digits ++ rest).head?, endsWord next = true := by
      intro next head
      cases head
      exact Token.endsWord_period
    rw [List.append_assoc, Token.scan_word shape point,
      Token.scan_number numeral fun next head => (ends next head).2]
    cases scan rest <;> rfl

theorem tokens_of_table {name : String} {word version : List Char} (shape : WordShape word)
    (behind : VersionShape version) (same : name.toList = word ++ version) :
    (table name).tokens = .word (String.ofList word) none ::
      if version.isEmpty then [] else [Token.number (String.ofList version) false] := by
  have scanned := @scan_version word version [] shape behind (by simp)
  rw [List.append_nil, ← same, scan] at scanned
  simp only [tokens, scanned, Except.map, List.append_nil]

theorem scan_lexeme {lexeme : Lexeme} {rest : List Char} (spelled : lexeme.Spelled)
    (ends : ∀ next ∈ rest.head?, lexeme.allows next = true) :
    scan (lexeme.chars ++ rest) = (scan rest).map (lexeme.tokens ++ ·) := by
  cases lexeme with
  | space =>
    have skipped : Token.step ' ' rest = .ok (none, rest) := if_pos (by decide)
    rw [chars, List.singleton_append, Token.scan_skipped skipped]
    cases scan rest <;> rfl
  | mark known =>
    exact Token.scan_mark spelled fun next head => by simpa [allows] using ends next head
  | word name =>
    rw [chars, Token.scan_word spelled ends, String.ofList_toList]
    rfl
  | quoted quote name =>
    exact Token.scan_quoted spelled name fun next head => by simpa [allows] using ends next head
  | number digits =>
    rcases spelled with shape | ⟨behind, same, shape⟩
    · rw [tokens_of_numeral shape, chars, Token.scan_number shape ends, String.ofList_toList]
      rfl
    · have minus : ∀ next ∈ (behind ++ rest).head?, Token.continues next .minus = false := by
        obtain ⟨first, others, rfl, start⟩ := numeral_first shape
        intro next head
        cases head
        have apart := first_not_sign (.inr start)
        simp only [List.mem_cons, not_or] at apart
        simp [Token.continues, Ne.symm apart.1, Ne.symm apart.2.1]
      have scanned := @Token.scan_mark .minus (behind ++ rest) rfl minus
      rw [tokens_of_negative same, chars, same]
      refine scanned.trans ?_
      rw [Token.scan_number shape ends]
      cases scan rest <;> rfl
  | string value =>
    exact Token.scan_string value fun next head => by simpa [allows] using ends next head
  | placeholder name =>
    have colon : ∀ next ∈ (name.toList ++ rest).head?, Token.continues next .colon = false := by
      obtain ⟨first, others, same, start⟩ := word_first spelled
      rw [same]
      intro next head
      cases head
      have apart : first ∉ _ := first_not_sign (.inl start)
      simp only [List.mem_cons, not_or] at apart
      simp [Token.continues, Ne.symm apart.2.2.2.2.1, Ne.symm apart.2.2.2.2.2.1]
    have scanned := @Token.scan_mark .colon (name.toList ++ rest) rfl colon
    refine scanned.trans ?_
    rw [Token.scan_word spelled ends, String.ofList_toList]
    cases scan rest <;> rfl
  | table name =>
    obtain ⟨word, version, same, shape, behind⟩ := spelled
    rw [tokens_of_table shape behind same, chars, same]
    refine scan_version shape behind fun next head => ?_
    simpa [allows] using ends next head

/-! ## Sequences -/

variable {draft : Bool} {lexeme : Lexeme} {lexemes : List Lexeme}

/-- The second lexeme can stand behind the first one. In a draft it may continue a minus. -/
def Follows (draft : Bool) (first second : Lexeme) : Prop :=
  Apart first second ∨ draft = true ∧ first = mark .minus

/-- The lexemes are spelled well and none is continued by the next one, a minus of a draft apart. -/
structure Clean (draft : Bool) (lexemes : List Lexeme) : Prop where
  spelled : ∀ lexeme ∈ lexemes, lexeme.Spelled
  apart : lexemes.IsChain (Follows draft)

theorem chars_ne_nil (spelled : lexeme.Spelled) : lexeme.chars ≠ [] := by
  cases lexeme with
  | space | placeholder => simp [chars]
  | quoted | string => simp [chars, Text.enclosed]
  | mark known => cases known <;> simp [chars, Mark.text]
  | word name =>
    obtain ⟨first, rest, same, _⟩ := word_first spelled
    simp [chars, same]
  | number digits =>
    rcases spelled with shape | ⟨behind, same, _⟩
    · obtain ⟨first, rest, same, _⟩ := numeral_first shape
      simp [chars, same]
    · simp [chars, same]
  | table name =>
    obtain ⟨word, version, same, shape, _⟩ := spelled
    obtain ⟨first, rest, rfl, _⟩ := word_first shape
    simp [chars, same]

theorem head_spelling {first : Lexeme} {rest : List Lexeme} (spelled : first.Spelled) :
    (spelling (first :: rest)).head? = first.chars.head? := by
  obtain ⟨char, chars, same⟩ := List.exists_cons_of_ne_nil (chars_ne_nil spelled)
  simp [same]

theorem apart_of_follows {first second : Lexeme} (follows : Follows false first second) :
    Apart first second := by
  simpa [Follows] using follows

theorem scan_spelling (clean : Clean false lexemes) :
    scan (spelling lexemes) = .ok (tokensOf lexemes) := by
  induction lexemes with
  | nil => simp [scan]
  | cons first rest ih =>
    have behind : Clean false rest :=
      ⟨fun lexeme member => clean.spelled lexeme (by simp [member]), clean.apart.tail⟩
    have ends : ∀ next ∈ (spelling rest).head?, first.allows next = true := by
      cases rest with
      | nil => simp
      | cons second rest =>
        have apart := apart_of_follows (List.isChain_cons_cons.mp clean.apart).1
        rw [head_spelling (clean.spelled second (by simp))]
        exact apart
    rw [spelling_cons, scan_lexeme (clean.spelled first (by simp)) ends, ih behind]
    rfl

theorem Clean.append {first second : List Lexeme} (before : Clean draft first)
    (behind : Clean draft second)
    (apart : ∀ last ∈ first.getLast?, ∀ next ∈ second.head?, Follows draft last next) :
    Clean draft (first ++ second) := by
  refine ⟨fun lexeme member => ?_, List.isChain_append.mpr ⟨before.apart, behind.apart, apart⟩⟩
  rcases List.mem_append.mp member with inFirst | inSecond
  · exact before.spelled lexeme inFirst
  · exact behind.spelled lexeme inSecond

theorem clean_single (spelled : lexeme.Spelled) : Clean draft [lexeme] :=
  ⟨by simpa using spelled, List.isChain_singleton _⟩

/-- Whether an operand can start with the lexeme. -/
def opens : Lexeme → Bool
  | space => false
  | mark known => known = .leftParen || known = .minus || known = .plus
  | _ => true

/-- Whether an operand or a clause can end with the lexeme. -/
def closes : Lexeme → Bool
  | space => false
  | mark known => known = .rightParen || known = .star
  | _ => true

/-- Whether the lexeme can stand directly behind an operand. -/
def breaks : Lexeme → Bool
  | space => true
  | mark known => known ∈ [.leftParen, .rightParen, .comma, .plus, .minus, .star, .slash, .percent]
  | _ => false

/-- Whether anything can stand directly behind the lexeme. -/
def frees : Lexeme → Bool
  | space => true
  | mark known => known ∈ [.leftParen, .rightParen, .comma, .plus, .star, .percent]
  | _ => false

theorem follows_of_frees {first second : Lexeme} (free : first.frees = true) :
    Follows draft first second := by
  refine .inl fun next _ => ?_
  cases first with
  | space => rfl
  | mark known => cases known <;> simp [frees, allows, Token.continues] at free ⊢
  | _ => simp [frees] at free

def breakChars : List Char := [' ', '(', ')', ',', '+', '-', '*', '/', '%']

theorem first_of_breaks (breaking : lexeme.breaks = true) :
    ∀ next ∈ lexeme.chars.head?, next ∈ breakChars := by
  intro next head
  cases lexeme with
  | space =>
    cases head
    decide
  | mark known =>
    cases known <;> simp [breaks] at breaking <;> cases head <;> decide
  | _ => simp [breaks] at breaking

theorem breakChars_end {next : Char} (listed : next ∈ breakChars) :
    endsWord next = true ∧ endsNumber next = true ∧ next ∉ ['"', '`', '\''] := by
  simp only [breakChars, List.mem_cons, List.not_mem_nil, or_false] at listed
  rcases listed with rfl | rfl | rfl | rfl | rfl | rfl | rfl | rfl | rfl <;>
    rw [endsWord, Token.isWordPart_ascii (by decide)] <;> decide

theorem follows_of_breaks {first second : Lexeme} (spelled : first.Spelled)
    (closing : first.closes = true) (breaking : second.breaks = true) :
    Follows draft first second := by
  refine .inl fun next head => ?_
  obtain ⟨word, number, quotes⟩ := breakChars_end (first_of_breaks breaking next head)
  simp only [List.mem_cons, List.not_mem_nil, or_false, not_or] at quotes
  cases first with
  | space => rfl
  | mark known => cases known <;> simp [closes, allows, Token.continues] at closing ⊢
  | word | placeholder => exact word
  | number => exact number
  | table => simp [allows, word, number]
  | quoted quote name =>
    rcases spelled with rfl | rfl <;> simp [allows, quotes]
  | string value => simp [allows, quotes]

/-- An operand does not continue a slash, and a minus only if it starts with one. -/
theorem first_of_opens (spelled : lexeme.Spelled) (opening : lexeme.opens = true) :
    ∀ next ∈ lexeme.chars.head?, next ∉ ['*', '/', '>'] := by
  have signs {first : Char} (apart : first ∉ ['-', '>', '*', '/', ':', '=', '<']) :
      first ∉ ['*', '/', '>'] := by
    simp only [List.mem_cons, not_or] at apart
    simp [apart]
  intro next head
  cases lexeme with
  | space => simp [opens] at opening
  | mark known => cases known <;> simp [opens] at opening <;> cases head <;> decide
  | word name =>
    obtain ⟨first, rest, same, start⟩ := word_first spelled
    rw [chars, same] at head
    cases head
    exact signs (first_not_sign (.inl start))
  | quoted quote name =>
    rw [chars, Text.enclosed, String.toList_ofList] at head
    cases head
    rcases spelled with rfl | rfl <;> decide
  | number digits =>
    rcases spelled with shape | ⟨behind, same, _⟩
    · obtain ⟨first, rest, same, start⟩ := numeral_first shape
      rw [chars, same] at head
      cases head
      exact signs (first_not_sign (.inr start))
    · rw [chars, same] at head
      cases head
      decide
  | string value =>
    rw [chars, Text.enclosed, String.toList_ofList] at head
    cases head
    decide
  | placeholder name =>
    cases head
    decide
  | table name =>
    obtain ⟨word, version, same, shape, _⟩ := spelled
    obtain ⟨first, rest, rfl, start⟩ := word_first shape
    rw [chars, same] at head
    cases head
    exact signs (first_not_sign (.inl start))

theorem apart_slash {next : Lexeme} (spelled : next.Spelled) (opening : next.opens = true) :
    Apart (mark .slash) next := by
  intro char head
  have apart := first_of_opens spelled opening char head
  simp only [List.mem_cons, not_or] at apart
  simp [allows, Token.continues, Ne.symm apart.1, Ne.symm apart.2.1]

theorem follows_minus {next : Lexeme} (spelled : next.Spelled) (opening : next.opens = true)
    (noMinus : draft = false → next.chars.head? ≠ some '-') : Follows draft (mark .minus) next := by
  cases draft with
  | true => exact .inr ⟨rfl, rfl⟩
  | false =>
    refine .inl fun char head => ?_
    have apart := first_of_opens spelled opening char head
    have notMinus : char ≠ '-' := by
      rintro rfl
      exact noMinus rfl head
    simp only [List.mem_cons, not_or] at apart
    simp [allows, Token.continues, Ne.symm notMinus, Ne.symm apart.2.2.1]

/-! ## Operands and clauses -/

/-- A clean sequence that can be set between spaces, commas and parentheses. -/
structure Sealed (draft : Bool) (lexemes : List Lexeme) : Prop where
  clean : Clean draft lexemes
  opening : ∃ first, lexemes.head? = some first ∧ first.opens = true
  closing : ∃ last, lexemes.getLast? = some last ∧ last.closes = true

theorem Sealed.last (whole : Sealed draft lexemes) :
    ∀ last ∈ lexemes.getLast?, last.Spelled ∧ last.closes = true := by
  obtain ⟨own, same, closing⟩ := whole.closing
  intro last ends
  rw [same] at ends
  cases ends
  exact ⟨whole.clean.spelled own (List.mem_of_getLast? same), closing⟩

theorem Sealed.first (whole : Sealed draft lexemes) :
    ∀ first ∈ lexemes.head?, first.Spelled ∧ first.opens = true := by
  obtain ⟨own, same, opening⟩ := whole.opening
  intro first starts
  rw [same] at starts
  cases starts
  exact ⟨whole.clean.spelled own (List.mem_of_head? same), opening⟩

theorem Sealed.append {first second : List Lexeme} (before : Sealed draft first)
    (behind : Sealed draft second)
    (apart : ∀ last ∈ first.getLast?, ∀ next ∈ second.head?, Follows draft last next) :
    Sealed draft (first ++ second) := by
  obtain ⟨start, starts, opening⟩ := before.opening
  obtain ⟨stop, stops, closing⟩ := behind.closing
  exact ⟨before.clean.append behind.clean apart, ⟨start, by simp [starts], opening⟩,
    ⟨stop, by simp [stops], closing⟩⟩

theorem Sealed.around {first second between : List Lexeme} (before : Sealed draft first)
    (behind : Sealed draft second) (clean : Clean draft between)
    (breaking : ∃ lexeme, between.head? = some lexeme ∧ lexeme.breaks = true)
    (apart : ∀ last ∈ between.getLast?, ∀ next ∈ second.head?, Follows draft last next) :
    Sealed draft (first ++ between ++ second) := by
  obtain ⟨start, starts, opening⟩ := before.opening
  obtain ⟨stop, stops, closing⟩ := behind.closing
  obtain ⟨lexeme, leads, isBreak⟩ := breaking
  have joined : Clean draft (first ++ between) := by
    refine before.clean.append clean fun last ends next head => ?_
    rw [leads] at head
    cases head
    obtain ⟨spelled, closes⟩ := before.last last ends
    exact follows_of_breaks spelled closes isBreak
  refine ⟨joined.append behind.clean ?_, ⟨start, by simp [starts], opening⟩,
    ⟨stop, by simp [stops], closing⟩⟩
  intro last ends next head
  have some : between.getLast? ≠ none := by
    rintro none
    rw [List.getLast?_eq_none_iff] at none
    simp [none] at leads
  obtain ⟨final, final_eq⟩ := Option.ne_none_iff_exists'.mp some
  rw [List.getLast?_append, final_eq] at ends
  exact apart last (by rw [final_eq]; exact ends) next head

theorem sealed_single (spelled : lexeme.Spelled) (opening : lexeme.opens = true)
    (closing : lexeme.closes = true) : Sealed draft [lexeme] :=
  ⟨clean_single spelled, ⟨lexeme, rfl, opening⟩, ⟨lexeme, rfl, closing⟩⟩

theorem sealed_word {name : String} (shape : WordShape name.toList) : Sealed draft [word name] :=
  sealed_single shape rfl rfl

theorem Sealed.spaceBetween {first second : List Lexeme} (before : Sealed draft first)
    (behind : Sealed draft second) : Sealed draft (first ++ [space] ++ second) := by
  refine before.around behind (clean_single trivial) ⟨space, rfl, rfl⟩ fun last ends next _ => ?_
  cases ends
  exact follows_of_frees rfl

/-- Letters only, so that a keyword can be checked by evaluation. -/
def isLetters : List Char → Bool
  | [] => false
  | first :: rest => Token.isWordStart first && rest.all Token.isWordPart

theorem isLetters_ascii {name : List Char} (letters : (!name.isEmpty && name.all fun char =>
    char.toNat < 128 && (char.isAlpha || char = '_')) = true) : isLetters name = true := by
  cases name with
  | nil => simp at letters
  | cons first rest =>
    simp only [List.isEmpty_cons, Bool.not_false, Bool.true_and, List.all_cons, Bool.and_eq_true,
      List.all_eq_true, decide_eq_true_eq] at letters
    obtain ⟨⟨ascii, start⟩, parts⟩ := letters
    simp only [isLetters, Bool.and_eq_true, List.all_eq_true]
    refine ⟨(Token.isWordStart_ascii ascii).trans start, fun part member => ?_⟩
    obtain ⟨ascii, part⟩ := parts part member
    rw [Token.isWordPart_ascii ascii]
    simp only [Bool.or_eq_true] at part ⊢
    tauto

theorem word_of_isLetters {name : List Char} (letters : isLetters name = true) : WordShape name := by
  cases name with
  | nil => simp [isLetters] at letters
  | cons first rest =>
    simp only [isLetters, Bool.and_eq_true, List.all_eq_true] at letters
    exact .letters letters.1 letters.2

theorem Sealed.phrase (before : Sealed draft lexemes) (words : List String)
    (letters : ∀ name ∈ words, isLetters name.toList = true) :
    Sealed draft (lexemes ++ Lexeme.phrase words) := by
  induction words generalizing lexemes with
  | nil => simpa [Lexeme.phrase] using before
  | cons name words ih =>
    have shape := word_of_isLetters (letters name (by simp))
    have extended := before.spaceBetween (sealed_word shape)
    have whole := ih extended fun other member => letters other (by simp [member])
    simpa [Lexeme.phrase] using whole

theorem sealed_parentheses (clean : Clean draft lexemes)
    (closing : ∀ last ∈ lexemes.getLast?, Follows draft last (mark .rightParen)) :
    Sealed draft (tight lexemes) := by
  have left : Clean draft ([mark .leftParen] ++ lexemes) := by
    refine (@clean_single draft (mark .leftParen) rfl).append clean fun last ends next _ => ?_
    cases ends
    exact follows_of_frees rfl
  have whole : Clean draft ([mark .leftParen] ++ lexemes ++ [mark .rightParen]) := by
    refine left.append (clean_single rfl) fun last ends next head => ?_
    cases head
    rw [List.getLast?_append] at ends
    cases same : lexemes.getLast? with
    | none =>
      rw [same] at ends
      cases ends
      exact follows_of_frees rfl
    | some own =>
      rw [same] at ends
      cases ends
      exact closing last same
  refine ⟨whole, ⟨mark .leftParen, by simp [tight], rfl⟩, mark .rightParen, ?_, rfl⟩
  rw [tight, List.getLast?_append]
  rfl

theorem Sealed.tight (inner : Sealed draft lexemes) : Sealed draft (Lexeme.tight lexemes) := by
  refine sealed_parentheses inner.clean fun last ends => ?_
  obtain ⟨spelled, closes⟩ := inner.last last ends
  exact follows_of_breaks spelled closes rfl

theorem Sealed.spaced (inner : Sealed draft lexemes) : Sealed draft (Lexeme.spaced lexemes) := by
  have padded : Clean draft ([space] ++ lexemes ++ [space]) := by
    have left : Clean draft ([space] ++ lexemes) := by
      refine (@clean_single draft space trivial).append inner.clean fun last ends next _ => ?_
      cases ends
      exact follows_of_frees rfl
    refine left.append (clean_single trivial) fun last ends next head => ?_
    cases head
    obtain ⟨own, same, _⟩ := inner.closing
    rw [List.getLast?_append, same] at ends
    obtain ⟨spelled, closes⟩ := inner.last last (same ▸ ends)
    exact follows_of_breaks spelled closes rfl
  have whole := sealed_parentheses padded fun last ends => by
    rw [List.getLast?_append] at ends
    cases ends
    exact follows_of_frees rfl
  simpa [Lexeme.tight, Lexeme.spaced] using whole

theorem Sealed.signed {known : Mark} (inner : Sealed draft lexemes) (spelled : (mark known).Spelled)
    (opening : (mark known).opens = true)
    (apart : ∀ next ∈ lexemes.head?, Follows draft (mark known) next) :
    Sealed draft ([mark known] ++ lexemes) := by
  obtain ⟨stop, stops, closing⟩ := inner.closing
  refine ⟨(clean_single spelled).append inner.clean fun last ends => ?_, ⟨mark known, rfl, opening⟩,
    ⟨stop, by rw [List.getLast?_append, stops]; rfl, closing⟩⟩
  cases ends
  exact apart

theorem Sealed.applied {arguments : List Lexeme} (before : Sealed draft lexemes)
    (inner : Sealed draft (Lexeme.tight arguments)) :
    Sealed draft (lexemes ++ Lexeme.tight arguments) := by
  refine before.append inner fun last ends next head => ?_
  cases head
  obtain ⟨spelled, closes⟩ := before.last last ends
  exact follows_of_breaks spelled closes rfl

def IsComma (separator : List Lexeme) : Prop := separator = comma ∨ separator = [mark .comma]

theorem Sealed.comma {first second separator : List Lexeme} (before : Sealed draft first)
    (behind : Sealed draft second) (separates : IsComma separator) :
    Sealed draft (first ++ separator ++ second) := by
  rcases separates with rfl | rfl
  · have clean : Clean draft Lexeme.comma :=
      (@clean_single draft (mark .comma) rfl).append (@clean_single draft space trivial)
        fun last ends next _ => by
          cases ends
          exact follows_of_frees rfl
    refine before.around behind clean ⟨mark .comma, rfl, rfl⟩ fun last ends next _ => ?_
    cases ends
    exact follows_of_frees rfl
  · refine before.around behind (clean_single rfl) ⟨mark .comma, rfl, rfl⟩ fun last ends next _ => ?_
    cases ends
    exact follows_of_frees rfl

theorem sealed_join {separator : List Lexeme} {lists : List (List Lexeme)}
    (separates : IsComma separator) (some : lists ≠ []) (each : ∀ list ∈ lists, Sealed draft list) :
    Sealed draft (join separator lists) := by
  induction lists with
  | nil => exact absurd rfl some
  | cons first rest ih =>
    cases rest with
    | nil => exact each first (by simp)
    | cons second rest =>
      have behind := ih (by simp) fun list member => each list (by simp [member])
      exact (each first (by simp)).comma behind separates

theorem sealed_clause {before : List Lexeme} {words : List String}
    {lists : List (List Lexeme)} (front : Sealed draft before)
    (letters : ∀ name ∈ words, isLetters name.toList = true)
    (each : ∀ list ∈ lists, Sealed draft list) :
    Sealed draft
      (before ++ if lists.isEmpty then [] else phrase words ++ [space] ++ join comma lists) := by
  cases lists with
  | nil => simpa using front
  | cons first rest =>
    have list := sealed_join (.inl rfl) (List.cons_ne_nil first rest) each
    have whole := (front.phrase words letters).spaceBetween list
    simpa using whole

end Lexeme

open Lexeme

variable {draft : Bool}

/-! ## Names, operators and tables -/

namespace Identifier

theorem lexeme_spelled {identifier : Identifier} (spelled : identifier.Spelled) :
    identifier.lexeme.Spelled ∧ identifier.lexeme.opens = true ∧
      identifier.lexeme.closes = true := by
  obtain ⟨name, quote⟩ := identifier
  cases quote with
  | none => exact ⟨spelled, rfl, rfl⟩
  | some quote => exact ⟨spelled, rfl, rfl⟩

theorem sealed {identifier : Identifier} (spelled : identifier.Spelled) :
    Sealed draft [identifier.lexeme] := by
  obtain ⟨shape, opening, closing⟩ := lexeme_spelled spelled
  exact sealed_single shape opening closing

theorem apart_period {identifier : Identifier} (spelled : identifier.Spelled) :
    Apart identifier.lexeme (mark .period) ∧ Apart (mark .period) identifier.lexeme := by
  obtain ⟨name, quote⟩ := identifier
  cases quote with
  | none =>
    refine ⟨fun next head => ?_, fun next head => ?_⟩
    · cases head
      exact Token.endsWord_period
    · obtain ⟨first, rest, same, start⟩ := word_first spelled
      simp only [lexeme, chars, same] at head
      cases head
      have notDigit : next.isDigit = false := by
        refine Bool.eq_false_iff.mpr fun digit => ?_
        rcases start with letter | rfl | rfl
        · simp [Token.digit_not_start digit] at letter
        · simp at digit
        · simp at digit
      simp [allows, Token.continues, notDigit]
  | some quote =>
    refine ⟨fun next head => ?_, fun next head => ?_⟩
    · cases head
      rcases spelled with rfl | rfl
      · exact (by decide : decide ('.' ≠ '"') = true)
      · exact (by decide : decide ('.' ≠ '`') = true)
    · simp only [lexeme, chars, Text.enclosed, String.toList_ofList] at head
      cases head
      rcases spelled with rfl | rfl <;> decide

end Identifier

theorem ColumnRef.sealed {column : ColumnRef} (spelled : column.Spelled) :
    Sealed draft column.lexemes := by
  obtain ⟨qualifier, name⟩ := column
  have named := @Identifier.sealed draft name spelled.2
  cases qualifier with
  | none => exact named
  | some qualifier =>
    have qualified := spelled.1 qualifier rfl
    have whole : Clean draft ([qualifier.lexeme] ++ [mark .period] ++ [name.lexeme]) := by
      refine ((Identifier.sealed qualified).clean.append (@clean_single draft (mark .period) rfl)
        fun last ends next head => ?_).append named.clean fun last ends next head => ?_
      · cases ends
        cases head
        exact .inl (Identifier.apart_period qualified).1
      · cases ends
        cases head
        exact .inl (Identifier.apart_period spelled.2).2
    exact ⟨whole, ⟨_, rfl, (Identifier.lexeme_spelled qualified).2.1⟩,
      ⟨_, rfl, (Identifier.lexeme_spelled spelled.2).2.2⟩⟩

theorem Literal.sealed {value : Literal} (grammatical : value.Grammatical) :
    Sealed draft [value.lexeme] := by
  cases value with
  | null => exact sealed_word (word_of_isLetters (by decide))
  | boolean value => cases value <;> exact sealed_word (word_of_isLetters (by decide))
  | number digits => exact sealed_single grammatical rfl rfl
  | string value => exact sealed_single trivial rfl rfl

theorem decimal_numeral (value : Nat) : NumeralShape (Number.decimal value).toList := by
  have digits : AllDigits (Nat.toDigits 10 value) := fun char member =>
    Nat.isDigit_of_mem_toDigits (by decide) (by decide) member
  have whole := NumeralShape.whole Nat.toDigits_ne_nil digits .none
  simpa [Number.decimal] using whole

theorem CastTarget.sealed {target : CastTarget}
    (plain : ∀ name, target = .physical name → Token.IsPlainWord name) :
    Sealed draft [target.lexeme] := by
  cases target with
  | type logical => cases logical <;> exact sealed_word (word_of_isLetters (isLetters_ascii (by decide)))
  | column id => exact sealed_single (.inl (decimal_numeral id.toNat)) rfl rfl
  | physical name => exact sealed_word (Token.isPlainWord_iff.mp (plain name rfl))

namespace BinaryOperator

theorem lexeme_spelled (operator : BinaryOperator) : operator.lexeme.Spelled := by
  cases operator <;> first | rfl | exact word_of_isLetters (by decide)

theorem lexeme_allows_space (operator : BinaryOperator) : operator.lexeme.allows ' ' = true := by
  have space : endsWord ' ' = true := (breakChars_end (by simp [breakChars])).1
  cases operator <;> simp [lexeme, allows, Token.continues, space]

/-- A minus sign is the only operator that its right operand could continue. -/
theorem sealed (operator : BinaryOperator) {left right : List Lexeme} (before : Sealed draft left)
    (behind : Sealed draft right)
    (minus : operator = .subtract → draft = false →
      ∀ next ∈ right.head?, next.chars.head? ≠ some '-') :
    Sealed draft (left ++ operator.lexemes ++ right) := by
  have apart : operator.isSign = true →
      ∀ next ∈ right.head?, Follows draft operator.lexeme next := by
    intro sign next head
    obtain ⟨spelled, opening⟩ := behind.first next head
    cases operator with
    | divide => exact .inl (apart_slash spelled opening)
    | subtract => exact follows_minus spelled opening fun final => minus rfl final next head
    | add | multiply | modulo => exact follows_of_frees rfl
    | _ => simp [isSign] at sign
  by_cases sign : operator.isSign = true
  · rw [lexemes, if_pos sign]
    refine before.around behind (clean_single operator.lexeme_spelled)
      ⟨operator.lexeme, rfl, ?_⟩ fun last ends next head => ?_
    · cases operator <;> simp [isSign] at sign <;> rfl
    · cases ends
      exact apart sign next head
  · rw [lexemes, if_neg sign]
    have clean : Clean draft [space, operator.lexeme, space] := by
      refine ⟨?_, ?_⟩
      · intro lexeme member
        simp only [List.mem_cons, List.not_mem_nil, or_false] at member
        rcases member with rfl | rfl | rfl
        · trivial
        · exact operator.lexeme_spelled
        · trivial
      · refine .cons_cons (follows_of_frees rfl) (.cons_cons (.inl fun next head => ?_) (.singleton _))
        cases head
        exact operator.lexeme_allows_space
    refine before.around behind clean ⟨space, rfl, rfl⟩ fun last ends next _ => ?_
    cases ends
    exact follows_of_frees rfl

end BinaryOperator

/-! ## Expressions -/

namespace Expr

/-- What scanning asks of an expression: a name that is written without quotes is a word, and no minus
stands in front of a minus unless the text is a draft. -/
def Scannable (draft : Bool) : Expr → Prop
  | unary .negate operand => draft = false → operand.text.toList.head? ≠ some '-'
  | binary .subtract _ right => draft = false → right.text.toList.head? ≠ some '-'
  | other => other.Restorable

theorem Restorable.scannable {whole : Expr} (restorable : whole.Restorable) :
    whole.Scannable draft := by
  unfold Scannable
  split
  · exact fun _ => restorable
  · exact fun _ => restorable
  · exact restorable

theorem head_of_text {expr : Expr} (whole : Sealed draft expr.lexemes) :
    ∀ next ∈ expr.lexemes.head?, next.chars.head? = expr.text.toList.head? := by
  intro next head
  obtain ⟨rest, same⟩ := List.head?_eq_some_iff.mp head
  have spelled := (whole.first next head).1
  rw [Expr.text_eq, String.toList_ofList, same, head_spelling spelled]

theorem sealed_after {before : List Lexeme} {words : List String} {clause : Option Expr}
    (front : Sealed draft before) (letters : ∀ name ∈ words, isLetters name.toList = true)
    (own : ∀ expr ∈ clause, Sealed draft expr.lexemes) :
    Sealed draft (before ++ lexemesAfter (phrase words ++ [space]) clause) := by
  cases clause with
  | none => simpa [lexemesAfter] using front
  | some expr =>
    have whole := (front.phrase words letters).spaceBetween (own expr rfl)
    simpa [lexemesAfter] using whole

theorem sealed_branches {before : List Lexeme} {branches : List (Expr × Expr)}
    (front : Sealed draft before)
    (own : ∀ branch ∈ branches, Sealed draft branch.1.lexemes ∧ Sealed draft branch.2.lexemes) :
    Sealed draft (before ++ branchLexemes branches) := by
  induction branches generalizing before with
  | nil => simpa [branchLexemes] using front
  | cons branch branches ih =>
    obtain ⟨condition, result⟩ := branch
    obtain ⟨first, second⟩ := own (condition, result) (by simp)
    have test := (front.phrase ["WHEN"] (by decide)).spaceBetween first
    have value := (test.phrase ["THEN"] (by decide)).spaceBetween second
    have whole := ih value fun other member => own other (by simp [member])
    simpa [branchLexemes] using whole

theorem sealed_list {separator : List Lexeme} {list : List Expr} (separates : IsComma separator)
    (some : list ≠ []) (own : ∀ expr ∈ list, Sealed draft expr.lexemes) :
    Sealed draft (join separator (lexemeLists list)) := by
  refine sealed_join separates (by simpa using some) fun lexemes member => ?_
  rw [lexeme_lists_eq_map] at member
  obtain ⟨expr, listed, rfl⟩ := List.mem_map.mp member
  exact own expr listed

theorem sealed_arguments {distinct : Bool} {arguments : List Expr} {separator : List Lexeme}
    (separates : IsComma separator) (grammatical : ArgumentsGrammatical distinct arguments)
    (own : ∀ expr ∈ arguments, expr.level ≤ 7 → Sealed draft expr.lexemes) :
    Sealed draft (tight ((if distinct then [word "DISTINCT", space] else []) ++
      join separator (lexemeLists arguments))) := by
  rcases grammatical with ⟨rfl, rfl⟩ | ⟨levels, some⟩
  · refine sealed_parentheses (@clean_single draft (mark .star) rfl) fun last ends => ?_
    cases ends
    exact follows_of_frees rfl
  · cases arguments with
    | nil =>
      cases distinct with
      | true => exact absurd rfl (some rfl)
      | false => exact sealed_parentheses ⟨by simp [join], by simp [join]⟩ (by simp [join])
    | cons first rest =>
      have list := sealed_list separates (List.cons_ne_nil first rest)
        fun expr member => own expr member (levels expr member)
      cases distinct with
      | false => exact list.tight
      | true =>
        have keyword := @sealed_word draft _
          (word_of_isLetters (by decide : isLetters "DISTINCT".toList))
        exact (keyword.spaceBetween list).tight

theorem sealed_of_inside (whole : Expr) (grammatical : whole.Grammatical)
    (scannable : whole.Scannable draft) (level : whole.level ≤ 7)
    (own : ∀ expr, Fragment.expr expr ∈ whole.inside → expr.level ≤ 7 → Sealed draft expr.lexemes)
    (queries : ∀ query, Fragment.query query ∈ whole.inside → Sealed draft query.lexemes) :
    Sealed draft whole.lexemes := by
  have keyword (name : String) (letters : isLetters name.toList = true) : Sealed draft [word name] :=
    sealed_word (word_of_isLetters letters)
  cases whole with
  | literal value => exact Literal.sealed grammatical
  | column reference => exact ColumnRef.sealed grammatical.1
  | parameter name => exact sealed_single (Token.isPlainWord_iff.mp scannable) rfl rfl
  | currentUser =>
    exact (keyword "CURRENT_USER" (isLetters_ascii (by decide))).applied
      (sealed_parentheses ⟨by simp, by simp⟩ (by simp))
  | wildcard => simp [Expr.level] at level
  | call name distinct arguments =>
    obtain ⟨plain, _, shape⟩ := grammatical
    refine (sealed_word (Token.isPlainWord_iff.mp plain)).applied (sealed_arguments ?_ shape ?_)
    · split
      · exact .inl rfl
      · exact .inr rfl
    · exact fun expr member => own expr (List.mem_map_of_mem member)
  | cast operand target =>
    have inner := own operand (by simp) grammatical.1
    have goal := @CastTarget.sealed draft target fun name same => by
      subst same
      exact scannable
    have body := (inner.phrase ["AS"] (by decide)).spaceBetween goal
    rw [List.append_assoc] at body
    exact (keyword "CAST" (by decide)).applied body.tight
  | caseWhen operand branches otherwise =>
    obtain ⟨operandLevel, _, branchLevels, otherwiseLevel⟩ := grammatical
    have front : Sealed draft ([word "CASE"] ++ lexemesAfter [space] operand) :=
      @sealed_after draft _ [] operand (keyword "CASE" (by decide)) (by simp) fun expr given =>
        own expr (by simp [Option.mem_def.mp given]) (operandLevel expr given)
    have middle := sealed_branches front fun branch member =>
      ⟨own branch.1 (by simp; grind) (branchLevels branch member).1,
        own branch.2 (by simp; grind) (branchLevels branch member).2⟩
    have last := @sealed_after draft _ ["ELSE"] otherwise middle (by decide) fun expr given =>
      own expr (by simp [Option.mem_def.mp given]) (otherwiseLevel expr given)
    have whole := last.phrase ["END"] (by decide)
    simpa [Expr.lexemes] using whole
  | binary operator left right =>
    have bound : operator.leftLevel ≤ 7 ∧ operator.level ≤ 7 := by cases operator <;> decide
    have first := own left (by simp) (grammatical.1.trans bound.1)
    have second := own right (by simp) (by have := grammatical.2; omega)
    refine operator.sealed first second ?_
    rintro rfl final next head
    rw [head_of_text second next head]
    exact scannable final
  | unary operator operand =>
    cases operator with
    | not =>
      have inner := own operand (by simp) (le_trans grammatical (by decide))
      exact (keyword "NOT" (by decide)).spaceBetween inner
    | plus =>
      have inner := own operand (by simp) (le_trans grammatical (by decide))
      exact inner.signed rfl rfl fun next head => follows_of_frees rfl
    | negate =>
      have inner := own operand (by simp) (le_trans grammatical.1 (by decide))
      refine inner.signed rfl rfl fun next head => ?_
      obtain ⟨spelled, opening⟩ := inner.first next head
      exact follows_minus spelled opening (head_of_text inner next head ▸ scannable)
  | nested inner => exact (own inner (by simp) grammatical).spaced
  | isNull tested negated =>
    have first := own tested (by simp) (le_trans grammatical (by decide))
    exact first.phrase _ (by cases negated <;> decide)
  | isTruth tested value negated =>
    have first := own tested (by simp) (le_trans grammatical (by decide))
    exact first.phrase _ (by cases negated <;> cases value <;> decide)
  | between tested low high negated =>
    obtain ⟨testedLevel, lowLevel, highLevel⟩ := grammatical
    have first := own tested (by simp) (le_trans testedLevel (by decide))
    have second := own low (by simp) (le_trans lowLevel (by decide))
    have third := own high (by simp) (le_trans highLevel (by decide))
    have range := (first.phrase (notWords negated ++ ["BETWEEN"])
      (by cases negated <;> decide)).spaceBetween second
    exact (range.phrase ["AND"] (by decide)).spaceBetween third
  | inList tested candidates negated =>
    obtain ⟨testedLevel, some, levels⟩ := grammatical
    have first := own tested (by simp) (le_trans testedLevel (by decide))
    have list := sealed_list (.inl rfl) some fun expr member =>
      own expr (by simp [member]) (levels expr member)
    exact (first.phrase (notWords negated ++ ["IN"])
      (by cases negated <;> decide)).spaceBetween list.spaced
  | inQuery tested candidates negated =>
    have first := own tested (by simp) (le_trans grammatical (by decide))
    have query := queries candidates (by simp)
    exact (first.phrase (notWords negated ++ ["IN"])
      (by cases negated <;> decide)).spaceBetween query.spaced
  | like tested pattern escape negated =>
    obtain ⟨testedLevel, patternLevel, escapeLevel⟩ := grammatical
    have first := own tested (by simp) (le_trans testedLevel (by decide))
    have second := own pattern (by simp) (le_trans patternLevel (by decide))
    have match_ := (first.phrase (notWords negated ++ ["LIKE"])
      (by cases negated <;> decide)).spaceBetween second
    exact @sealed_after draft _ ["ESCAPE"] escape match_ (by decide) fun expr given =>
      own expr (by simp [Option.mem_def.mp given])
        (le_trans (escapeLevel expr given) (by decide))
  | has tested values pattern negated =>
    obtain ⟨testedLevel, some, levels⟩ := grammatical
    have first := own tested (by simp) (le_trans testedLevel (by decide))
    have list := sealed_list (.inl rfl) some fun expr member =>
      own expr (by simp [member]) (levels expr member)
    have letters : ∀ name ∈ notWords negated ++ [if pattern then "HAS_LIKE" else "HAS"],
        isLetters name.toList = true := by
      intro name listed
      apply isLetters_ascii
      revert name
      cases negated <;> cases pattern <;> decide
    exact (first.phrase _ letters).spaceBetween list.spaced
  | doubleTest test column =>
    exact (keyword test.text (by cases test <;> decide)).applied (ColumnRef.sealed grammatical).tight
  | unnest column =>
    exact (keyword "UNNEST" (by decide)).applied (ColumnRef.sealed grammatical).tight
  | textMatches text =>
    have inner := own text (by simp) grammatical
    exact (keyword "TEXT_MATCHES" (isLetters_ascii (by decide))).applied inner.tight
  | matchAgainst text =>
    have inner := own text (by simp) grammatical
    have column := (keyword "MATCH" (by decide)).applied
      (keyword "ROW_SEARCH_CONTENT" (isLetters_ascii (by decide))).tight
    exact (column.phrase ["AGAINST"] (by decide)).applied inner.tight

end Expr

/-! ## Tables -/

namespace TableName

theorem reserved_no_sign {word : List Char} (reserved : isReserved (String.ofList word) = true) :
    ∀ sign ∈ ['.', '#', '@'], sign ∉ word := by
  simp only [isReserved, Text.listed, List.any_eq_true, Text.sameWord, beq_iff_eq] at reserved
  obtain ⟨keyword, listed, same⟩ := reserved
  have letters : reservedWords.all (fun keyword => ['.', '#', '@'].all fun sign =>
      decide (sign ∉ keyword.toList.map Char.toUpper)) = true := by decide +kernel
  have unchanged : ['.', '#', '@'].all (fun sign => sign.toUpper == sign) = true := by decide
  simp only [List.all_eq_true, decide_eq_true_eq, beq_iff_eq] at letters unchanged
  intro sign isSign member
  refine letters keyword listed sign isSign ?_
  have upper : keyword.toList.map Char.toUpper = word.map Char.toUpper := by
    simpa [Text.upper] using congrArg String.toList same
  rw [upper, ← unchanged sign isSign]
  exact List.mem_map_of_mem member

theorem word_no_point {word : List Char} (shape : WordShape word)
    (letter : ∀ first ∈ word.head?, first ≠ '#' ∧ first ≠ '@') : '.' ∉ word := by
  cases shape with
  | @letters first rest start parts =>
    intro member
    rcases List.mem_cons.mp member with rfl | behind
    · exact absurd start (Token.not_wordStart (by decide) (by decide))
    · have part := parts '.' behind
      rw [Token.isWordPart_ascii (by decide)] at part
      exact absurd part (by decide)
  | sigil opens parts =>
    rcases opens with ⟨rfl, _⟩ | ⟨rfl, _⟩ | ⟨rfl, _⟩
    · exact absurd rfl (letter '#' rfl).1
    · exact absurd rfl (letter '@' rfl).2
    · exact absurd rfl (letter '@' rfl).2

theorem before_point {word version : List Char} (noPoint : '.' ∉ word)
    (point : ∀ first ∈ version.head?, first = '.') :
    (word ++ version).takeWhile (fun char => char ≠ '.') = word := by
  refine Token.takeWhile_until (fun char member => ?_) fun next head => ?_
  · have apart : char ≠ '.' := fun same => noPoint (same ▸ member)
    simpa using apart
  · simpa using point next head

/-- A table that is a word with a whole number as its version has a word that is not reserved. -/
theorem word_and_version {table : TableName} (grammatical : table.Grammatical)
    (restorable : table.Restorable) : ∃ word version, table.name.toList = word ++ version ∧
      WordShape word ∧ VersionShape version ∧ isReserved (String.ofList word) = false := by
  obtain ⟨⟨given, behind, given_eq, givenShape, notReserved, point⟩, _⟩ := grammatical
  obtain ⟨⟨word, plain, form⟩, _⟩ := restorable
  have shape := Token.isPlainWord_iff.mp plain
  obtain ⟨version, same, versionShape⟩ : ∃ version, table.name.toList = word.toList ++ version ∧
      VersionShape version := by
    rcases form with same | ⟨digits, some, all, same⟩
    · exact ⟨[], by simp [same], .inl rfl⟩
    · exact ⟨'.' :: digits, by simp [same], .inr ⟨digits, some, all, rfl⟩⟩
  have versionPoint : ∀ first ∈ version.head?, first = '.' := by
    rcases versionShape with rfl | ⟨digits, _, _, rfl⟩ <;> simp
  refine ⟨word.toList, version, same, shape, versionShape, ?_⟩
  refine Bool.eq_false_iff.mpr fun reserved => ?_
  have noSign := reserved_no_sign reserved
  have letters : ∀ first ∈ given.head?, first ≠ '#' ∧ first ≠ '@' := by
    obtain ⟨start, others, rfl, _⟩ := word_first givenShape
    obtain ⟨first, rest, wordSame, _⟩ := word_first shape
    rw [given_eq, wordSame] at same
    have firstSame : start = first := (List.cons.inj same).1
    intro char head
    cases head
    refine ⟨fun sign => ?_, fun sign => ?_⟩
    · exact noSign '#' (by decide) (by rw [wordSame, ← firstSame, sign]; simp)
    · exact noSign '@' (by decide) (by rw [wordSame, ← firstSame, sign]; simp)
  have words : given = word.toList := by
    rw [← before_point (word_no_point givenShape letters) point,
      ← before_point (noSign '.' (by decide)) versionPoint, ← given_eq, ← same]
  rw [words, reserved] at notReserved
  exact Bool.noConfusion notReserved

theorem sealed {table : TableName} (grammatical : table.Grammatical)
    (scannable : (Lexeme.table table.name).Spelled) : Sealed draft table.lexemes := by
  have name : Sealed draft [Lexeme.table table.name] := sealed_single scannable rfl rfl
  obtain ⟨_, spelled⟩ := grammatical
  rw [lexemes]
  cases given : table.alias? with
  | none => exact name
  | some other => exact name.spaceBetween (Identifier.sealed (spelled other given))

end TableName

/-! ## Selects and queries -/

theorem Source.sealed : ∀ (source : Source),
    (∀ table ∈ source.tables, table.Grammatical ∧ (Lexeme.table table.name).Spelled) →
      (∀ condition ∈ source.conditions, Sealed draft condition.lexemes) → Sealed draft source.lexemes
  | .table only, tables, _ => by
      obtain ⟨grammatical, scannable⟩ := tables only (by simp [Source.tables])
      exact TableName.sealed grammatical scannable
  | .join left kind right condition, tables, conditions => by
      have before := Source.sealed left
        (fun table member => tables table (by simp [Source.tables, member]))
        fun expr member => conditions expr (by simp [Source.conditions, member])
      obtain ⟨grammatical, scannable⟩ := tables right (by simp [Source.tables])
      have joined := (before.phrase kind.words (by cases kind <;> decide)).spaceBetween
        (TableName.sealed grammatical scannable)
      exact (joined.phrase ["ON"] (by decide)).spaceBetween
        (conditions condition (by simp [Source.conditions]))

theorem SelectItem.sealed {item : SelectItem} (own : Sealed draft item.expr.lexemes)
    (spelled : ∀ name ∈ item.alias?, name.Spelled) : Sealed draft item.lexemes := by
  obtain ⟨expr, name⟩ := item
  cases name with
  | none => simpa [SelectItem.lexemes] using own
  | some name =>
    have whole := (own.phrase ["AS"] (by decide)).spaceBetween
      (Identifier.sealed (spelled name rfl))
    simpa [SelectItem.lexemes] using whole

theorem SortKey.sealed {key : SortKey} (own : Sealed draft key.expr.lexemes) : Sealed draft key.lexemes := by
  obtain ⟨expr, direction⟩ := key
  cases direction with
  | none => simpa [SortKey.lexemes] using own
  | some direction => exact own.phrase [direction.text] (by cases direction <;> decide)

theorem Projection.sealed {before : List Lexeme} {projection : Projection} (front : Sealed draft before)
    (grammatical : projection.Grammatical)
    (own : ∀ item ∈ projection.itemList, Sealed draft item.expr.lexemes) :
    Sealed draft (before ++ [space] ++ projection.lexemes) := by
  cases projection with
  | all =>
    obtain ⟨start, starts, opening⟩ := front.opening
    have gap : Clean draft (before ++ [space]) := by
      refine front.clean.append (clean_single trivial) fun last ends next head => ?_
      cases head
      obtain ⟨spelled, closes⟩ := front.last last ends
      exact follows_of_breaks spelled closes rfl
    refine ⟨gap.append (@clean_single draft (mark .star) rfl) fun last ends next _ => ?_,
      ⟨start, by simp [starts], opening⟩, ⟨mark .star, List.getLast?_concat, rfl⟩⟩
    rw [List.getLast?_concat] at ends
    cases ends
    exact follows_of_frees rfl
  | items list =>
    refine front.spaceBetween (sealed_join (.inl rfl) (by simpa using grammatical.1) ?_)
    intro lexemes member
    rw [SelectItem.lexeme_lists_eq_map] at member
    obtain ⟨item, listed, rfl⟩ := List.mem_map.mp member
    exact SelectItem.sealed (own item listed) (grammatical.2 item listed)

theorem Page.sealed {before : List Lexeme} {page : Option Page} (front : Sealed draft before)
    (own : ∀ window ∈ page, ∀ expr ∈ window.exprs, Sealed draft expr.lexemes) :
    Sealed draft (before ++ Page.lexemesAfter page) := by
  cases page with
  | none => simpa [Page.lexemesAfter] using front
  | some window =>
    obtain ⟨limit, offset⟩ := window
    have own := own ⟨limit, offset⟩ rfl
    have first := (front.phrase ["LIMIT"] (by decide)).spaceBetween
      (own limit (by simp [Page.exprs]))
    have whole := @Expr.sealed_after draft _ ["OFFSET"] offset first (by decide) fun expr given =>
      own expr (by simp [Page.exprs, Option.mem_def.mp given])
    simpa [Page.lexemesAfter] using whole

theorem Select.sealed_of_inside {select : Select} (grammatical : select.Grammatical)
    (scannable : ∀ table ∈ select.source.tables, (Lexeme.table table.name).Spelled)
    (own : ∀ expr ∈ select.exprs, Sealed draft expr.lexemes) : Sealed draft select.lexemes := by
  have head : Sealed draft
      ([word "SELECT"] ++ if select.distinct then phrase ["DISTINCT"] else []) := by
    have keyword := @sealed_word draft _ (word_of_isLetters (by decide : isLetters "SELECT".toList))
    cases select.distinct with
    | false => simpa using keyword
    | true => exact keyword.phrase ["DISTINCT"] (by decide)
  have items := Projection.sealed head grammatical.1 fun item member =>
    own item.expr (Select.item_mem member)
  have tables := (items.phrase ["FROM"] (by decide)).spaceBetween
    (Source.sealed select.source
      (fun table member => ⟨grammatical.2.1 table member, scannable table member⟩)
      fun condition member => own condition (Select.condition_mem member))
  have defining := @Expr.sealed_after draft _ ["DEFINING_WHERE"] select.definingFilter tables
    (by simpa using isLetters_ascii (by decide)) fun expr given => own expr (Select.defining_mem given)
  have filtered := @Expr.sealed_after draft _ ["WHERE"] select.filter defining (by decide)
    fun expr given => own expr (Select.filter_mem given)
  have grouped := @sealed_clause draft _ ["GROUP", "BY"] (select.groupBy.map Expr.lexemes) filtered
    (by decide) (by
      intro list member
      obtain ⟨expr, listed, rfl⟩ := List.mem_map.mp member
      exact own expr (Select.group_mem listed))
  have ordered := @sealed_clause draft _ ["ORDER", "BY"] (select.orderBy.map SortKey.lexemes) grouped
    (by decide) (by
      intro list member
      obtain ⟨key, listed, rfl⟩ := List.mem_map.mp member
      exact SortKey.sealed (own key.expr (Select.key_mem listed)))
  have whole := @Page.sealed draft _ select.page ordered fun window given expr member =>
    own expr (Select.window_mem given member)
  obtain ⟨distinct, projection, source, definingFilter, filter, groupBy, orderBy, page⟩ := select
  cases distinct <;> simpa [Select.lexemes, phrase] using whole

theorem UnionBranch.sealed {before : List Lexeme} {branches : List UnionBranch}
    (front : Sealed draft before) (own : ∀ branch ∈ branches, Sealed draft branch.select.lexemes) :
    Sealed draft (before ++ UnionBranch.lexemes branches) := by
  induction branches generalizing before with
  | nil => simpa [UnionBranch.lexemes] using front
  | cons branch branches ih =>
    obtain ⟨all, select⟩ := branch
    have keywords := front.phrase (["UNION"] ++ if all then ["ALL"] else [])
      (by cases all <;> decide)
    have extended := keywords.spaceBetween (own ⟨all, select⟩ (by simp))
    have whole := ih extended fun other member => own other (by simp [member])
    cases all <;> simpa [UnionBranch.lexemes, phrase] using whole

theorem CommonTable.sealed {element : CommonTable} (name : element.name.Spelled)
    (columns : ∀ column ∈ element.columns, column.Spelled) (own : Sealed draft element.query.lexemes) :
    Sealed draft element.lexemes := by
  obtain ⟨elementName, list, query⟩ := element
  have front : Sealed draft ([elementName.lexeme] ++ columnLexemes list) := by
    rw [columnLexemes]
    cases list with
    | nil => simpa using Identifier.sealed name
    | cons first rest =>
      have joined := @sealed_join draft comma ((first :: rest).map fun column => [column.lexeme])
        (.inl rfl) (by simp) (by
          intro lexemes member
          obtain ⟨column, listed, rfl⟩ := List.mem_map.mp member
          exact Identifier.sealed (columns column listed))
      have whole := (Identifier.sealed name).spaceBetween joined.tight
      simpa using whole
  have whole := (front.phrase ["AS"] (by decide)).spaceBetween own.tight
  simpa [CommonTable.lexemes] using whole

theorem Query.sealed_of_inside {query : Query} (grammatical : query.Grammatical)
    (elements : ∀ element ∈ query.elements, Sealed draft element.query.lexemes)
    (parts : ∀ select ∈ query.parts, Sealed draft select.lexemes) : Sealed draft query.lexemes := by
  obtain ⟨commonTables, first, unions⟩ := query
  have own := parts first (by simp [Query.parts])
  have front : Sealed draft (CommonTable.clauseLexemes commonTables ++ first.lexemes) := by
    cases commonTables with
    | none => simpa [CommonTable.clauseLexemes] using own
    | some list =>
      have keyword := @sealed_word draft _ (word_of_isLetters (by decide : isLetters "WITH".toList))
      have joined := @sealed_join draft comma (list.map CommonTable.lexemes) (.inl rfl)
        (by simpa using grammatical.1) (by
          intro lexemes member
          obtain ⟨element, listed, rfl⟩ := List.mem_map.mp member
          obtain ⟨name, columns⟩ := grammatical.2 element listed
          exact CommonTable.sealed name columns (elements element listed))
      have whole := (keyword.spaceBetween joined).spaceBetween own
      simpa [CommonTable.clauseLexemes] using whole
  have whole := @UnionBranch.sealed draft _ unions front fun branch member =>
    parts branch.select (by simp only [Query.parts, List.mem_cons, List.mem_map]; grind)
  simpa [Query.lexemes] using whole

/-! ## Every fragment -/

namespace Fragment

def Scannable (draft : Bool) : Fragment → Prop
  | expr whole => whole.Scannable draft
  | select whole => ∀ table ∈ whole.source.tables, (Lexeme.table table.name).Spelled
  | query _ => True

/-- The lexemes of the fragment can be set between others; a wildcard only stands in parentheses. -/
def SealedLexemes (draft : Bool) : Fragment → Prop
  | expr whole => whole.level ≤ 7 → Sealed draft whole.lexemes
  | select whole => Sealed draft whole.lexemes
  | query whole => Sealed draft whole.lexemes

theorem sealed_of_scannable (whole : Fragment)
    (scannable : Everywhere (fun fragment => fragment.Grammatical ∧ fragment.Scannable draft) whole) :
    whole.SealedLexemes draft := by
  induction whole using Fragment.induction with
  | step whole ih =>
    obtain ⟨⟨grammatical, scannable⟩, inside⟩ := everywhere_iff.mp scannable
    have own := fun part member => ih part member (inside part member)
    cases whole with
    | expr whole =>
      exact fun level => Expr.sealed_of_inside whole grammatical scannable level
        (fun expr member => own (.expr expr) member) fun query member => own (.query query) member
    | select whole =>
      refine Select.sealed_of_inside grammatical scannable fun expr member => ?_
      exact own (.expr expr) (List.mem_map_of_mem member) (grammatical.2.2.1 expr member)
    | query whole =>
      refine Query.sealed_of_inside grammatical (fun element member => ?_) fun select member => ?_
      · exact own (.query element.query) (List.mem_append_left _ (List.mem_map_of_mem member))
      · exact own (.select select) (List.mem_append_right _ (List.mem_map_of_mem member))

theorem Writable.scannable {whole : Fragment} (writable : whole.Writable) : whole.Scannable draft := by
  obtain ⟨grammatical, restorable⟩ := writable
  cases whole with
  | expr whole => exact restorable.scannable
  | select whole =>
    intro table member
    obtain ⟨word, version, same, shape, behind, _⟩ :=
      TableName.word_and_version (grammatical.2.1 table member) (restorable table member)
    exact ⟨word, version, same, shape, behind⟩
  | query whole => trivial

theorem sealed (whole : Fragment) (writable : Everywhere Writable whole) :
    whole.SealedLexemes false :=
  sealed_of_scannable whole fun fragment within =>
    ⟨(writable fragment within).1, (writable fragment within).scannable⟩

end Fragment

end TabularSql
