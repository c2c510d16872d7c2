import TabularSql.Proofs.Outcome
import TabularSql.Proofs.Scanning

/-!
# What scanning keeps

Text can lose something when it is scanned: two minus signs in a row are a comment, and a name that needs
quotes falls apart without them. The characters at stake are counted. No token weighs more than the
characters it is made of, and a comment weighs nothing, so the tokens of a text weigh at most as much as
the text has such characters. A draft whose tokens weigh that much has no minus that was continued.
-/

namespace TabularSql

set_option autoImplicit false

open Token (scan)

/-! ## Weights of lists -/

section Total

variable {α β : Type}

def total (weight : α → Nat) : List α → Nat
  | [] => 0
  | first :: rest => weight first + total weight rest

@[simp] theorem total_nil (weight : α → Nat) : total weight [] = 0 := rfl

@[simp] theorem total_cons (weight : α → Nat) (first : α) (rest : List α) :
    total weight (first :: rest) = weight first + total weight rest :=
  rfl

@[simp] theorem total_append (weight : α → Nat) (front back : List α) :
    total weight (front ++ back) = total weight front + total weight back := by
  induction front with
  | nil => simp
  | cons first rest ih => simp [ih, Nat.add_assoc]

theorem total_map (weight : β → Nat) (change : α → β) (items : List α) :
    total weight (items.map change) = total (fun item => weight (change item)) items := by
  induction items with
  | nil => rfl
  | cons first rest ih => simp [ih]

theorem weightless_of_total {weight : α → Nat} {items : List α} (none : total weight items = 0) :
    ∀ item ∈ items, weight item = 0 := by
  induction items with
  | nil => simp
  | cons first rest ih =>
    rw [total_cons, Nat.add_eq_zero_iff] at none
    exact List.forall_mem_cons.mpr ⟨none.1, ih none.2⟩

end Total

/-! ## Characters that count -/

namespace Text

/-- The minus and the quotes of names. -/
def isSign (char : Char) : Bool := char = '-' || char = '"' || char = '`'

def signs (chars : List Char) : Nat := chars.countP isSign

@[simp] theorem signs_nil : signs [] = 0 := rfl

@[simp] theorem signs_cons (char : Char) (rest : List Char) :
    signs (char :: rest) = signs rest + if isSign char then 1 else 0 :=
  List.countP_cons

@[simp] theorem signs_append (first second : List Char) :
    signs (first ++ second) = signs first + signs second :=
  List.countP_append

theorem signs_of_suffix {rest chars : List Char} (suffix : rest <:+ chars) :
    signs rest ≤ signs chars :=
  suffix.sublist.countP_le

theorem signs_doubled_ge (quote : Char) (chars : List Char) :
    signs chars ≤ signs (doubled quote chars) := by
  induction chars with
  | nil => exact Nat.le_refl _
  | cons char rest ih =>
    by_cases same : char = quote
    · rw [doubled, if_pos same, signs_cons, signs_cons, signs_cons, same]
      omega
    · rw [doubled, if_neg same, signs_cons, signs_cons]
      omega

theorem signs_doubled {quote : Char} (plain : isSign quote = false) (chars : List Char) :
    signs (doubled quote chars) = signs chars := by
  induction chars with
  | nil => rfl
  | cons char rest ih =>
    by_cases same : char = quote
    · simp [doubled, same, plain, ih]
    · simp [doubled, same, ih]

end Text

namespace Token

variable {token : Token} {rest chars : List Char} {tokens : List Token}

/-- The signs that a token is written with; a token that the grammar has no use for counts as empty. -/
def signs : Token → Nat
  | word name none => Text.signs name.toList
  | word name (some quote) => Text.signs (Text.doubled quote name.toList) + 2
  | number digits _ => Text.signs digits.toList
  | string value => Text.signs value.toList
  | mark known => Text.signs known.text.toList
  | other _ => 0

/-! ## One step -/

/-- The token of a step has none of the signs that are taken, or some of them. -/
def Weighs (chars : List Char) (result : Step) : Prop :=
  ∀ token rest, result = .ok (some token, rest) →
    token.signs = 0 ∨ token.signs + Text.signs rest ≤ Text.signs chars

theorem weighs_found (enough : token.signs + Text.signs rest ≤ Text.signs chars) :
    Weighs chars (found token rest) := by
  intro _ _ same
  cases same
  exact .inr enough

theorem weighs_light (light : token.signs = 0) :
    Weighs chars (found token rest) := by
  intro _ _ same
  cases same
  exact .inl light

theorem weighs_skipped : Weighs chars (.ok (none, rest)) := by
  intro _ _ same
  cases same

theorem weighs_error {problem : LexicalFault} : Weighs chars (.error problem) := by
  intro _ _ same
  cases same

theorem weighs_ite {test : Prop} [Decidable test] {first second : Step} (then_ : test → Weighs chars first)
    (else_ : ¬ test → Weighs chars second) :
    Weighs chars (if test then first else second) := by
  by_cases holds : test
  · simpa only [if_pos holds] using then_ holds
  · simpa only [if_neg holds] using else_ holds

theorem weighs_literal {opening closing : String} {problem : LexicalProblem} {place : List Char}
    {body : Option (List Char × List Char)} :
    Weighs chars (scanLiteral opening closing problem place body) := by
  cases body with
  | none => exact weighs_error
  | some pair => exact weighs_light rfl

theorem weighs_word (taken rest : List Char) : Weighs (taken ++ rest) (scanWord taken rest) := by
  have split := congrArg Text.signs (List.takeWhile_append_dropWhile (p := isWordPart) (l := rest))
  rw [Text.signs_append] at split
  apply weighs_found
  simp only [signs, String.toList_ofList, Text.signs_append]
  omega

theorem weighs_letter (letter : Char) (rest : List Char) :
    Weighs (letter :: rest) (scanLetter letter rest) := by
  have raw (quote : Char) : Weighs (letter :: rest) (scanRaw quote rest) :=
    weighs_ite (fun _ => weighs_literal) fun _ =>
      weighs_ite (fun _ => weighs_light rfl) fun _ => weighs_literal
  have unicode : Weighs (letter :: rest) (scanUnicode (rest.drop 2)) := by
    unfold scanUnicode
    split
    · exact weighs_light rfl
    · exact weighs_error
  exact weighs_ite (fun _ => weighs_literal) fun _ =>
    weighs_ite (fun _ => weighs_literal) fun _ =>
    weighs_ite (fun _ => raw _) fun _ =>
    weighs_ite (fun _ => raw _) fun _ =>
    weighs_ite (fun _ => weighs_literal) fun _ =>
    weighs_ite (fun _ => weighs_literal) fun _ =>
    weighs_ite (fun _ => weighs_literal) fun _ =>
    weighs_ite (fun _ => unicode) fun _ => weighs_word [letter] rest

theorem weighs_sigil (sigil rest : List Char) : Weighs (sigil ++ rest) (scanSigil sigil rest) := by
  cases rest with
  | nil => exact weighs_light rfl
  | cons next rest =>
    apply weighs_ite
    · exact fun _ => weighs_light rfl
    · intro _
      simpa using weighs_word (sigil ++ [next]) rest

/-- Quoted text was written with its quotes doubled. -/
theorem takeQuoted_eq {quote : Char} {text : List Char}
    (taken : takeQuoted quote chars = some (text, rest)) :
    chars = Text.doubled quote text ++ quote :: rest := by
  fun_induction takeQuoted quote chars generalizing text rest with
  | case1 => simp at taken
  | case2 => simp_all [Text.doubled]
  | case3 => simp at taken
  | case4 behind ih =>
    simp only [Option.map_eq_some_iff, push] at taken
    obtain ⟨⟨inner, left⟩, given, same⟩ := taken
    cases same
    simp [Text.doubled, ih given]
  | case5 => simp_all [Text.doubled]
  | case6 char next behind other ih =>
    simp only [Option.map_eq_some_iff, push] at taken
    obtain ⟨⟨inner, left⟩, given, same⟩ := taken
    cases same
    simp [Text.doubled, other, ih given]

theorem weighs_quoted {quote : Char} {place : List Char} {problem : LexicalProblem} (make : String → Token)
    (enough : ∀ text, (make (String.ofList text)).signs ≤
      Text.signs (quote :: Text.doubled quote text ++ [quote])) :
    Weighs (quote :: rest) (match takeQuoted quote rest with
      | some (text, behind) => found (make (String.ofList text)) behind
      | none => fault problem place) := by
  split
  · next text behind taken =>
      apply weighs_found
      have own := enough text
      rw [takeQuoted_eq taken]
      simp only [List.cons_append, Text.signs_cons, Text.signs_append, Text.signs_nil] at own ⊢
      omega
  · exact weighs_error

theorem takeExponent_append (chars : List Char) :
    (takeExponent chars).1 ++ (takeExponent chars).2 = chars := by
  fun_cases takeExponent chars with
  | case1 letter next rest | case2 letter next rest => simp
  | case3 | case4 | case5 => rfl

theorem weighs_long (digits rest : List Char) : Weighs (digits ++ rest) (scanLong digits rest) := by
  unfold scanLong
  split
  · apply weighs_found
    simp [signs]
  · apply weighs_found
    simp [signs]

theorem weighs_fraction (taken rest : List Char) :
    Weighs (taken ++ rest) (scanFraction taken rest) := by
  have split := List.takeWhile_append_dropWhile (p := Char.isDigit) (l := rest)
  have parts := takeExponent_append (rest.dropWhile Char.isDigit)
  have whole := weighs_long (taken ++ rest.takeWhile Char.isDigit ++
    (takeExponent (rest.dropWhile Char.isDigit)).1) (takeExponent (rest.dropWhile Char.isDigit)).2
  simp only [List.append_assoc, parts, split] at whole
  unfold scanFraction
  apply weighs_ite
  · exact fun _ => weighs_light rfl
  · intro _
    simpa only [List.append_assoc] using whole

theorem weighs_number (chars : List Char) : Weighs chars (scanNumber chars) := by
  have split := List.takeWhile_append_dropWhile (p := Char.isDigit) (l := chars)
  unfold scanNumber
  split
  · next rest same =>
      rw [same] at split
      have whole := weighs_fraction (chars.takeWhile Char.isDigit ++ ['.']) rest
      simpa [split] using whole
  · next rest same =>
      rw [same] at split
      apply weighs_ite
      · exact fun _ => weighs_light rfl
      · intro _
        simpa only [split] using weighs_fraction (chars.takeWhile Char.isDigit) ('x' :: rest)
  · simpa only [split] using
      weighs_fraction (chars.takeWhile Char.isDigit) (chars.dropWhile Char.isDigit)

theorem weighs_dollar (chars : List Char) : Weighs chars (scanDollar chars) := by
  unfold scanDollar
  simp only
  repeat' split
  all_goals first | exact weighs_light rfl | exact weighs_error

theorem weighs_mark (char : Char) (rest : List Char) : Weighs (char :: rest) (scanMark char rest) := by
  have table : ∀ entry ∈ marks, entry.2.signs ≤ Text.signs entry.1 ∧ 0 < entry.1.length := by decide
  unfold scanMark
  split
  · next spelling token listed =>
      have known := table (spelling, token) (List.mem_of_find?_eq_some listed)
      have starts : spelling.isPrefixOf (char :: rest) = true := by
        simpa using List.find?_some listed
      obtain ⟨behind, same⟩ := List.isPrefixOf_iff_prefix.mp starts
      have dropped : (char :: rest).drop spelling.length = rest.drop (spelling.length - 1) := by
        obtain ⟨length, same⟩ := Nat.exists_eq_add_one.mpr known.2
        simp [same]
      rw [← same, List.drop_left] at dropped
      apply weighs_found
      rw [← dropped, ← same, Text.signs_append]
      exact Nat.add_le_add_right known.1 _
  · exact weighs_light rfl

theorem weighs_step (char : Char) (rest : List Char) : Weighs (char :: rest) (step char rest) := by
  refine weighs_ite (fun _ => weighs_skipped) fun _ =>
    weighs_ite (fun _ => weighs_letter _ _) fun _ =>
    weighs_ite (fun single => ?string) fun _ =>
    weighs_ite (fun quoted => ?name) fun _ =>
    weighs_ite (fun _ => weighs_number _) fun _ =>
    weighs_ite (fun _ => weighs_skipped) fun _ =>
    weighs_ite (fun _ => ?comment) fun _ =>
    weighs_ite (fun _ => weighs_light rfl) fun _ =>
    weighs_ite (fun _ => weighs_dollar _) fun _ =>
    weighs_ite (fun opens => ?twice) fun _ =>
    weighs_ite (fun opens => ?once) fun _ =>
    weighs_ite (fun opens => ?number) fun _ => weighs_mark _ _
  case string =>
    subst single
    apply weighs_quoted string
    intro text
    rw [List.cons_append, Text.signs_cons, Text.signs_append, Text.signs_doubled (by decide)]
    simp only [signs, String.toList_ofList]
    omega
  case name =>
    have sign : Text.isSign char = true := by
      rcases (by simpa using quoted) with rfl | rfl <;> decide
    apply weighs_quoted (word · (some char))
    intro text
    simp [signs, sign]
  case comment =>
    unfold scanBlockComment
    split
    · exact weighs_skipped
    · exact weighs_error
  case twice =>
    simp only [Bool.and_eq_true, decide_eq_true_eq] at opens
    obtain ⟨rfl, head⟩ := opens
    obtain ⟨behind, rfl⟩ := List.head?_eq_some_iff.mp head
    exact weighs_sigil ['@', '@'] behind
  case once =>
    simp only [Bool.and_eq_true, decide_eq_true_eq] at opens
    obtain ⟨rfl, _⟩ := opens
    exact weighs_sigil ['@'] rest
  case number =>
    simp only [Bool.and_eq_true, decide_eq_true_eq] at opens
    obtain ⟨rfl, _⟩ := opens
    exact weighs_sigil ['#'] rest

/-! ## The whole text -/

/-- The charge for a name without quotes that needs them. -/
def fee (name : String) : Nat := if IsPlainWord name then 0 else 2

/-- The charge for a blank among digits. -/
def gap (digits : String) : Nat := if digits.toList.any Text.isBlank then 1 else 0

/-- What a token is worth: its signs, and the charge for a name that is no word or a number with a blank. -/
def weight : Token → Nat
  | word name none => Text.signs name.toList + fee name
  | number digits _ => Text.signs digits.toList + gap digits
  | token => token.signs

theorem exponent_no_blank {exponent : List Char} (shape : ExponentShape exponent) :
    ∀ char ∈ exponent, Text.isBlank char = false := by
  have marked {letter : Char} (marks : letter = 'e' ∨ letter = 'E') : Text.isBlank letter = false := by
    rcases marks with rfl | rfl <;> decide
  have signed {sign : Char} (signs : sign = '+' ∨ sign = '-') : Text.isBlank sign = false := by
    rcases signs with rfl | rfl <;> decide
  cases shape with
  | none => simp
  | plain marks some all =>
    simpa using ⟨marked marks, fun char member => digit_not_blank (all char member)⟩
  | signed marks signs some all =>
    simpa using ⟨marked marks, signed signs, fun char member => digit_not_blank (all char member)⟩

theorem numeral_no_blank (shape : NumeralShape chars) :
    ∀ char ∈ chars, Text.isBlank char = false := by
  have point : Text.isBlank '.' = false := by decide
  intro char member
  cases shape with
  | whole some all exponent =>
    rcases List.mem_append.mp member with digit | behind
    · exact digit_not_blank (all char digit)
    · exact exponent_no_blank exponent char behind
  | pointed some all others exponent =>
    simp only [List.mem_append, List.mem_cons] at member
    rcases member with (digit | rfl | digit) | behind
    · exact digit_not_blank (all char digit)
    · exact point
    · exact digit_not_blank (others char digit)
    · exact exponent_no_blank exponent char behind

def weights (tokens : List Token) : Nat := total weight tokens

@[simp] theorem weights_nil : weights [] = 0 := rfl

@[simp] theorem weights_cons (token : Token) (rest : List Token) :
    weights (token :: rest) = token.weight + weights rest :=
  rfl

@[simp] theorem weights_append (first second : List Token) :
    weights (first ++ second) = weights first + weights second :=
  total_append weight first second

theorem weight_of_spelled (spelled : token.Spelled) : token.weight = token.signs := by
  unfold weight
  split
  · next name =>
      have plain : IsPlainWord name := isPlainWord_iff.mpr spelled
      simp [fee, signs, plain]
  · next digits long =>
      have solid := numeral_no_blank spelled
      simpa [gap, signs] using solid
  · rfl

theorem weights_step {char : Char} {left : List Char} {token : Option Token}
    (stepped : step char rest = .ok (token, left)) :
    weights token.toList + Text.signs left ≤ Text.signs (char :: rest) := by
  have suffix := Text.signs_of_suffix (leaves_step char rest token left stepped)
  rw [Text.signs_cons]
  cases token with
  | none =>
    simp only [Option.toList_none, weights_nil]
    omega
  | some token =>
    have spelled := finds_step char rest token left stepped
    simp only [Option.toList_some, weights_cons, weights_nil, weight_of_spelled spelled]
    rcases weighs_step char rest token left stepped with light | enough
    · omega
    · rw [Text.signs_cons] at enough
      omega

theorem scan_cons {char : Char} (scanned : scan (char :: rest) = .ok tokens) : ∃ token left others,
      step char rest = .ok (token, left) ∧ scan left = .ok others ∧
        tokens = token.toList ++ others := by
  rw [scan] at scanned
  split at scanned
  · cases scanned
  · next token left stepped =>
      obtain ⟨others, inner, same⟩ := Except.of_map scanned
      exact ⟨token, left, others, stepped, inner, same.symm⟩

/-- The tokens of a text are worth no more than the signs of the text. -/
theorem weights_scan (scanned : scan chars = .ok tokens) :
    weights tokens ≤ Text.signs chars := by
  fun_induction scan chars generalizing tokens with
  | case1 =>
    cases scanned
    exact Nat.le_refl _
  | case2 => cases scanned
  | case3 char rest token left stepped ih =>
    obtain ⟨others, inner, rfl⟩ := Except.of_map scanned
    have first := weights_step stepped
    have behind := ih inner
    rw [weights_append]
    omega

/-- A minus that is continued opens a comment or a mark of no use. -/
theorem light_minus {next : Char} {left : List Char} {token : Option Token}
    (continued : continues next .minus = true) (stepped : step '-' (next :: rest) = .ok (token, left)) :
    weights token.toList = 0 := by
  simp only [continues, Bool.or_eq_true, beq_iff_eq] at continued
  rcases continued with rfl | rfl
  · have comment : step '-' ('-' :: rest) = .ok (none, skipLine ('-' :: rest)) := by
      rw [step, if_neg (by decide), if_neg (by decide +kernel), if_neg (by decide),
        if_neg (by decide), if_neg (by decide), if_pos (by simp)]
    rw [comment] at stepped
    cases stepped
    rfl
  · have arrow : step '-' ('>' :: rest) = scanMark '-' ('>' :: rest) := by
      rw [step, if_neg (by decide), if_neg (by decide +kernel), if_neg (by decide),
        if_neg (by decide), if_neg (by decide)]
      simp
    rw [arrow] at stepped
    cases rest with
    | nil =>
      cases stepped
      rfl
    | cons other rest =>
      cases same : '>' == other <;>
        simp [scanMark, marks, List.find?, List.isPrefixOf, same, found] at stepped <;>
        simp [← stepped.1, weight, signs]

theorem weights_continued {next : Char} (continued : continues next .minus = true)
    (scanned : scan ('-' :: next :: rest) = .ok tokens) :
    weights tokens < Text.signs ('-' :: next :: rest) := by
  obtain ⟨token, left, others, stepped, inner, rfl⟩ := scan_cons scanned
  have light := light_minus continued stepped
  have behind := weights_scan inner
  have suffix := Text.signs_of_suffix (leaves_step '-' (next :: rest) token left stepped)
  have minus : Text.isSign '-' = true := rfl
  rw [weights_append, light, Text.signs_cons, if_pos minus]
  omega

end Token

namespace Lexeme

/-- A draft that loses no sign when it is scanned is clean: a minus that is continued would be lost. -/
theorem Clean.final {lexemes : List Lexeme} {tokens : List Token} (clean : Clean true lexemes)
    (scanned : scan (spelling lexemes) = .ok tokens)
    (kept : Text.signs (spelling lexemes) ≤ Token.weights tokens) : Clean false lexemes := by
  induction lexemes generalizing tokens with
  | nil => exact ⟨by simp, by simp⟩
  | cons first rest ih =>
    have behind : Clean true rest :=
      ⟨fun lexeme member => clean.spelled lexeme (by simp [member]), clean.apart.tail⟩
    have spelled := clean.spelled first (by simp)
    rw [spelling_cons] at scanned kept
    by_cases ends : ∀ next ∈ (spelling rest).head?, first.allows next = true
    · have alone : scan first.chars = .ok first.tokens := by
        simpa [scan, Except.map] using @scan_lexeme first [] spelled (by simp)
      have own := Token.weights_scan alone
      rw [scan_lexeme spelled ends] at scanned
      obtain ⟨others, inner, rfl⟩ := Except.of_map scanned
      rw [Text.signs_append, Token.weights_append] at kept
      have others_clean := ih behind inner (by omega)
      refine ⟨clean.spelled, ?_⟩
      cases rest with
      | nil => exact .singleton _
      | cons second rest =>
        apply List.IsChain.cons_cons (.inl ?_) others_clean.apart
        rwa [head_spelling (behind.spelled second (by simp))] at ends
    · -- The next lexeme continues this one, so this one is a minus, and it is lost.
      exfalso
      cases rest with
      | nil => simp at ends
      | cons second rest =>
        rw [head_spelling (behind.spelled second (by simp))] at ends
        rcases (List.isChain_cons_cons.mp clean.apart).1 with apart | ⟨_, rfl⟩
        · exact ends apart
        · simp only [not_forall, allows, Bool.not_eq_true', Bool.not_eq_false] at ends
          obtain ⟨next, head, continued⟩ := ends
          obtain ⟨chars, same⟩ := List.head?_eq_some_iff.mp head
          rw [spelling_cons, same] at scanned kept
          have lost := Token.weights_continued continued scanned
          exact Nat.not_le.mpr lost kept

end Lexeme

end TabularSql
