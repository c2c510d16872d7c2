import TabularSql.Text.Alphabetic
import TabularSql.Text.Blank
import TabularSql.Text.Numeric
import TabularSql.Token.Basic
import TabularSql.Token.Fault

/-!
# Scanning

Text is read from left to right, one lexical element at a time. A step looks at the next character,
takes as many characters as belong to the element, and leaves a shorter rest; blanks and comments are
elements without a token. `Token.scan` reads a whole text.
-/

namespace TabularSql.Token

set_option autoImplicit false

/-- What a step gives: a token, or nothing for blanks and comments, and the characters left. -/
abbrev Step := Except LexicalFault (Option Token × List Char)

def found (token : Token) (rest : List Char) : Step := .ok (some token, rest)

def fault (problem : LexicalProblem) (place : List Char) : Step := .error ⟨problem, place.length⟩

/-! ## Words -/

def isWordStart (char : Char) : Bool :=
  Text.isAlphabetic char || char = '_'

def isWordPart (char : Char) : Bool :=
  Text.isAlphabetic char || char.isDigit || char = '@' || char = '$' || char = '#' || char = '_'

def scanWord (taken rest : List Char) : Step :=
  found (word (String.ofList (taken ++ rest.takeWhile isWordPart)) none) (rest.dropWhile isWordPart)

/-! ## Quoted text -/

/-- Puts a character in front of quoted text. -/
def push (char : Char) : List Char × List Char → List Char × List Char
  | (text, rest) => (char :: text, rest)

/-- The text in front of the closing quote, a doubled quote standing for one, and what follows. -/
def takeQuoted (quote : Char) : List Char → Option (List Char × List Char)
  | [] => none
  | [char] => if char = quote then some ([], []) else none
  | char :: next :: rest =>
      if char = quote then
        if next = quote then (takeQuoted quote rest).map (push quote)
        else some ([], next :: rest)
      else (takeQuoted quote (next :: rest)).map (push char)

/-- What a character means behind a backslash. -/
def backslashed (char : Char) : Char :=
  if char = '0' then Char.ofNat 0
  else if char = 'a' then Char.ofNat 7
  else if char = 'b' then Char.ofNat 8
  else if char = 'f' then Char.ofNat 12
  else if char = 'n' then '\n'
  else if char = 'r' then '\r'
  else if char = 't' then '\t'
  else if char = 'Z' then Char.ofNat 26
  else char

/-- Like `takeQuoted` for single quotes, with backslash escapes. -/
def takeBackslashed : List Char → Option (List Char × List Char)
  | [] => none
  | [char] => if char = '\'' then some ([], []) else none
  | char :: next :: rest =>
      if char = '\'' then
        if next = '\'' then (takeBackslashed rest).map (push '\'')
        else some ([], next :: rest)
      else if char = '\\' then (takeBackslashed rest).map (push (backslashed next))
      else (takeBackslashed (next :: rest)).map (push char)

/-- The text in front of three quotes in a row, and what follows them. -/
def takeTripled (quote : Char) : List Char → Option (List Char × List Char)
  | [] => none
  | char :: rest =>
      if [quote, quote, quote].isPrefixOf (char :: rest) then some ([], (char :: rest).drop 3)
      else (takeTripled quote rest).map (push char)

/-- A literal that the grammar has no use for, from what a reader of its body gave. -/
def scanLiteral (opening closing : String) (problem : LexicalProblem) (place : List Char) :
    Option (List Char × List Char) → Step
  | some (body, rest) => found (other (opening ++ String.ofList body ++ closing)) rest
  | none => fault problem place

def scanBytes (quote : Char) (chars : List Char) : Step :=
  let written := String.singleton quote
  scanLiteral ("B" ++ written) written .unterminatedString chars (takeQuoted quote (chars.drop 1))

/-- A raw string; `chars` starts with the quote. Two quotes are an empty string, three open a string
that three quotes close. -/
def scanRaw (quote : Char) (chars : List Char) : Step :=
  let written := String.singleton quote
  if [quote, quote, quote].isPrefixOf chars then
    let three := written ++ written ++ written
    let inner := chars.drop 3
    scanLiteral ("R" ++ three) three .unterminatedString inner (takeTripled quote inner)
  else if [quote, quote].isPrefixOf chars then
    found (other ("R" ++ written ++ written)) (chars.drop 2)
  else
    let inner := chars.drop 1
    scanLiteral ("R" ++ written) written .unterminatedString inner (takeQuoted quote inner)

def scanPrefixed (letter : String) (chars : List Char) : Step :=
  scanLiteral (letter ++ "'") "'" .unterminatedString chars (takeBackslashed (chars.drop 1))

/-! ## Escaped strings -/

def isHexDigit (char : Char) : Bool :=
  char.isDigit || ('a' ≤ char && char ≤ 'f') || ('A' ≤ char && char ≤ 'F')

def isOctalDigit (char : Char) : Bool :=
  '0' ≤ char && char ≤ '7'

def hexValue (char : Char) : Nat :=
  if char.isDigit then char.toNat - '0'.toNat
  else if 'a' ≤ char then char.toNat - 'a'.toNat + 10
  else char.toNat - 'A'.toNat + 10

def baseValue (base : Nat) (digits : List Char) : Nat :=
  digits.foldl (fun value digit => base * value + hexValue digit) 0

def charOf? (code : Nat) : Option Char :=
  if code.isValidChar then some (Char.ofNat code) else none

/-- The character of a byte, taken modulo 256, if it is ASCII. -/
def byteChar? (value : Nat) : Option Char :=
  if value % 256 < 128 then some (Char.ofNat (value % 256)) else none

/-- The character written by exactly `count` hexadecimal digits, the first of which may be a `+`. -/
def codeEscape (count : Nat) (chars : List Char) : Option (Char × Nat) :=
  let taken := chars.take count
  let digits := if taken.head? = some '+' then taken.drop 1 else taken
  if taken.length = count && !digits.isEmpty && digits.all isHexDigit then
    (charOf? (baseValue 16 digits)).map fun char => (char, count)
  else none

/-- The character of the escape that follows a backslash, and how many characters it takes. -/
def escape : List Char → Option (Char × Nat)
  | [] => none
  | 'b' :: _ => some (Char.ofNat 8, 1)
  | 'f' :: _ => some (Char.ofNat 12, 1)
  | 'n' :: _ => some ('\n', 1)
  | 'r' :: _ => some ('\r', 1)
  | 't' :: _ => some ('\t', 1)
  | 'u' :: rest => (codeEscape 4 rest).map fun (char, used) => (char, used + 1)
  | 'U' :: rest => (codeEscape 8 rest).map fun (char, used) => (char, used + 1)
  | 'x' :: rest =>
      let digits := (rest.take 2).takeWhile isHexDigit
      if digits.isEmpty then some ('x', 1)
      else (byteChar? (baseValue 16 digits)).map fun char => (char, digits.length + 1)
  | char :: rest =>
      if isOctalDigit char then
        let digits := char :: (rest.take 2).takeWhile isOctalDigit
        (byteChar? (baseValue 8 digits)).map fun char => (char, digits.length)
      else some (char, 1)

/-- The text of an escaped string up to its closing quote, and what follows. An escape must not give
the null character. -/
def takeEscaped : List Char → Option (List Char × List Char)
  | [] => none
  | '\'' :: '\'' :: rest => (takeEscaped rest).map (push '\'')
  | '\'' :: rest => some ([], rest)
  | '\\' :: rest =>
      match escape rest with
      | none => none
      | some (char, used) =>
          if char.toNat = 0 then none else (takeEscaped (rest.drop used)).map (push char)
  | char :: rest => (takeEscaped rest).map (push char)
termination_by chars => chars.length
decreasing_by all_goals simp; try omega

def scanEscaped (letter : Char) (chars : List Char) : Step :=
  scanLiteral "E'" "'" .unterminatedEscapes (letter :: chars) (takeEscaped (chars.drop 1))

def hexChar (count : Nat) (chars : List Char) : Except LexicalFault Char :=
  let digits := (chars.take count).takeWhile isHexDigit
  let rest := chars.drop digits.length
  if digits.length < count then
    match rest with
    | [] => .error ⟨.missingHexDigit, 0⟩
    | char :: after => .error ⟨.invalidHexDigit char, after.length⟩
  else
    match charOf? (baseValue 16 digits) with
    | some char => .ok char
    | none => .error ⟨.invalidCodePoint (baseValue 16 digits), rest.length⟩

/-- The text of a string with Unicode escapes up to its closing quote, and what follows. -/
def takeUnicode : List Char → Except LexicalFault (List Char × List Char)
  | [] => .error ⟨.unterminatedUnicode, 0⟩
  | '\'' :: '\'' :: rest => (takeUnicode rest).map (push '\'')
  | '\'' :: rest => .ok ([], rest)
  | '\\' :: '\\' :: rest => (takeUnicode rest).map (push '\\')
  | '\\' :: '+' :: rest =>
      match hexChar 6 rest with
      | .ok char => (takeUnicode (rest.drop 6)).map (push char)
      | .error fault => .error fault
  | '\\' :: rest =>
      match hexChar 4 rest with
      | .ok char => (takeUnicode (rest.drop 4)).map (push char)
      | .error fault => .error fault
  | char :: rest => (takeUnicode rest).map (push char)
termination_by chars => chars.length
decreasing_by all_goals simp; try omega

def scanUnicode (chars : List Char) : Step :=
  match takeUnicode chars with
  | .ok (body, rest) => found (other ("U&'" ++ String.ofList body ++ "'")) rest
  | .error fault => .error fault

/-! ## Numbers -/

/-- The exponent in front of `chars`, empty if there is none, and what follows. -/
def takeExponent : List Char → List Char × List Char
  | letter :: next :: rest =>
      if letter = 'e' || letter = 'E' then
        if next.isDigit then
          (letter :: next :: rest.takeWhile Char.isDigit, rest.dropWhile Char.isDigit)
        else if (next = '+' || next = '-') && (rest.head?.any Char.isDigit) then
          (letter :: next :: rest.takeWhile Char.isDigit, rest.dropWhile Char.isDigit)
        else ([], letter :: next :: rest)
      else ([], letter :: next :: rest)
  | rest => ([], rest)

/-- A number with the letter `L` behind it, which belongs to the token but not to the number. -/
def scanLong (digits : List Char) : List Char → Step
  | 'L' :: rest => found (number (String.ofList digits) true) rest
  | rest => found (number (String.ofList digits) false) rest

/-- A number whose whole digits and point are taken: fraction, exponent, and `L`. A point alone is a
mark. -/
def scanFraction (taken rest : List Char) : Step :=
  let digits := taken ++ rest.takeWhile Char.isDigit
  let afterDigits := rest.dropWhile Char.isDigit
  if digits = ['.'] then found (mark .period) afterDigits
  else
    let (exponent, afterExponent) := takeExponent afterDigits
    scanLong (digits ++ exponent) afterExponent

/-- A number or a point. A zero and `x` start hexadecimal digits. -/
def scanNumber (chars : List Char) : Step :=
  let whole := chars.takeWhile Char.isDigit
  match chars.dropWhile Char.isDigit with
  | '.' :: rest => scanFraction (whole ++ ['.']) rest
  | 'x' :: rest =>
      if whole = ['0'] then
        found (other ("X'" ++ String.ofList (rest.takeWhile isHexDigit) ++ "'"))
          (rest.dropWhile isHexDigit)
      else scanFraction whole ('x' :: rest)
  | rest => scanFraction whole rest

/-! ## Comments -/

def skipLine (chars : List Char) : List Char :=
  (chars.dropWhile (· ≠ '\n')).drop 1

/-- The characters behind a block comment that is open `depth` times. Each character is taken together
with the one before it, so neighbouring pairs may share a character. -/
def skipBlock : Nat → Char → List Char → Option (List Char)
  | _, _, [] => none
  | depth, last, char :: rest =>
      if last = '/' && char = '*' then skipBlock (depth + 1) char rest
      else if last = '*' && char = '/' then
        if depth ≤ 1 then some rest else skipBlock (depth - 1) char rest
      else skipBlock depth char rest

def scanBlockComment (chars : List Char) : Step :=
  match skipBlock 1 ' ' chars with
  | some rest => .ok (none, rest)
  | none => fault .unterminatedComment []

/-! ## Dollar signs -/

def skipDollars : List Char → Option (List Char)
  | [] => none
  | [_] => none
  | first :: second :: rest =>
      if first = '$' && second = '$' then some rest else skipDollars (second :: rest)

/-- The characters behind the next `$tag$`. While a tag is being compared, `pending` holds what is
missing of it; the character that fails to match is not tried again. -/
def skipTag (tag : List Char) : Option (List Char) → List Char → Option (List Char)
  | _, [] => none
  | none, char :: rest => skipTag tag (if char = '$' then some tag else none) rest
  | some [], char :: rest => if char = '$' then some rest else skipTag tag none rest
  | some (expected :: pending), char :: rest =>
      skipTag tag (if char = expected then some pending else none) rest

def spelled (chars rest : List Char) : Step :=
  found (other (String.ofList (chars.take (chars.length - rest.length)))) rest

/-- A dollar-quoted string or a placeholder; `chars` starts with the dollar sign. -/
def scanDollar (chars : List Char) : Step :=
  let isTagPart (char : Char) : Bool :=
    Text.isAlphabetic char || Text.isNumeric char || char = '_'
  let behind := chars.drop 1
  let tag := behind.takeWhile isTagPart
  let afterTag := behind.dropWhile isTagPart
  if afterTag.head? = some '$' then
    let body := afterTag.drop 1
    if tag.isEmpty then
      match skipDollars body with
      | some rest => spelled chars rest
      | none => fault .unterminatedDollar []
    else
      match skipTag tag none body with
      | some rest => spelled chars rest
      | none => fault .unterminatedDollarTag []
  else spelled chars afterTag

/-! ## Marks -/

/-- Spellings of marks, the longer ones in front of their beginnings. -/
def marks : List (List Char × Token) :=
  [("!~~*".toList, other "!~~*"),
   ("||/".toList, other "||/"), ("!~*".toList, other "!~*"), ("!~~".toList, other "!~~"),
   ("<=>".toList, other "<=>"), ("~~*".toList, other "~~*"), ("->>".toList, other "->>"),
   ("#>>".toList, other "#>>"),
   ("|/".toList, other "|/"), ("||".toList, other "||"), ("=>".toList, other "=>"),
   ("==".toList, mark .doubleEqual), ("!=".toList, mark .notEqual), ("!!".toList, other "!!"),
   ("!~".toList, other "!~"), ("<=".toList, mark .lessEqual), ("<>".toList, mark .notEqual),
   ("<<".toList, other "<<"), ("<@".toList, other "<@"), (">=".toList, mark .greaterEqual),
   (">>".toList, other ">>"), ("::".toList, other "::"), (":=".toList, other ":="),
   ("&&".toList, other "&&"), ("^@".toList, other "^@"), ("~*".toList, other "~*"),
   ("~~".toList, other "~~"), ("->".toList, other "->"), ("//".toList, other "//"),
   ("#-".toList, other "#-"), ("#>".toList, other "#>"), ("@>".toList, other "@>"),
   ("@?".toList, other "@?"),
   ("(".toList, mark .leftParen), (")".toList, mark .rightParen), (",".toList, mark .comma),
   ("+".toList, mark .plus), ("-".toList, mark .minus), ("*".toList, mark .star),
   ("/".toList, mark .slash), ("%".toList, mark .percent), ("=".toList, mark .equal),
   ("<".toList, mark .less), (">".toList, mark .greater), (":".toList, mark .colon),
   (";".toList, mark .semicolon)]

/-- A mark of the table, or a token of one character. -/
def scanMark (char : Char) (rest : List Char) : Step :=
  match marks.find? fun (spelling, _) => spelling.isPrefixOf (char :: rest) with
  | some (spelling, token) => found token (rest.drop (spelling.length - 1))
  | none => found (other (String.singleton char)) rest

/-- A number sign or an at sign that starts none of its marks: alone in front of a space or the end,
otherwise the start of a word that takes the next character whatever it is. -/
def scanSigil (sigil : List Char) : List Char → Step
  | [] => found (other (String.ofList sigil)) []
  | next :: rest =>
      if next = ' ' then found (other (String.ofList sigil)) (next :: rest)
      else scanWord (sigil ++ [next]) rest

/-! ## One step and the whole text -/

/-- A word, or a literal that its first letter announces. -/
def scanLetter (letter : Char) (rest : List Char) : Step :=
  let next := rest.head?
  let kind := letter.toLower
  if kind = 'b' && next = some '\'' then scanBytes '\'' rest
  else if kind = 'b' && next = some '"' then scanBytes '"' rest
  else if kind = 'r' && next = some '\'' then scanRaw '\'' rest
  else if kind = 'r' && next = some '"' then scanRaw '"' rest
  else if kind = 'n' && next = some '\'' then scanPrefixed "N" rest
  else if kind = 'x' && next = some '\'' then scanPrefixed "X" rest
  else if kind = 'e' && next = some '\'' then scanEscaped letter rest
  else if kind = 'u' && "&'".toList.isPrefixOf rest then scanUnicode (rest.drop 2)
  else scanWord [letter] rest

def step (char : Char) (rest : List Char) : Step :=
  if Text.isBlank char then .ok (none, rest)
  else if isWordStart char then scanLetter char rest
  else if char = '\'' then
    match takeQuoted '\'' rest with
    | some (value, behind) => found (string (String.ofList value)) behind
    | none => fault .unterminatedString (char :: rest)
  else if char = '"' || char = '`' then
    match takeQuoted char rest with
    | some (name, behind) => found (word (String.ofList name) (some char)) behind
    | none => fault (.unclosedQuote char) (char :: rest)
  else if char.isDigit || char = '.' then scanNumber (char :: rest)
  else if char = '-' && rest.head? = some '-' then .ok (none, skipLine rest)
  else if char = '/' && rest.head? = some '*' then scanBlockComment (rest.drop 1)
  else if char = '?' then spelled (char :: rest) (rest.dropWhile Text.isNumeric)
  else if char = '$' then scanDollar (char :: rest)
  else if char = '@' && rest.head? = some '@' then scanSigil ['@', '@'] (rest.drop 1)
  else if char = '@' && rest.head?.all fun next => next ≠ '>' && next ≠ '?' then
    scanSigil ['@'] rest
  else if char = '#' && rest.head?.all fun next => next ≠ '-' && next ≠ '>' then
    scanSigil ['#'] rest
  else scanMark char rest

/-! ## Progress

What a step leaves is a suffix of the characters behind the first one. -/

theorem takeQuoted_suffix {quote : Char} {chars text rest : List Char}
    (taken : takeQuoted quote chars = some (text, rest)) : rest <:+ chars := by
  fun_induction takeQuoted quote chars generalizing text rest with
  | case1 => simp at taken
  | case2 => simp_all
  | case3 => simp at taken
  | case4 behind ih =>
      simp only [Option.map_eq_some_iff, push] at taken
      obtain ⟨⟨inner, left⟩, given, same⟩ := taken
      cases same
      exact (ih given).trans ((List.suffix_cons _ _).trans (List.suffix_cons _ _))
  | case5 => simp_all
  | case6 char next behind _ ih =>
      simp only [Option.map_eq_some_iff, push] at taken
      obtain ⟨⟨inner, left⟩, given, same⟩ := taken
      cases same
      exact (ih given).trans (List.suffix_cons _ _)

theorem takeBackslashed_suffix {chars text rest : List Char}
    (taken : takeBackslashed chars = some (text, rest)) : rest <:+ chars := by
  fun_induction takeBackslashed chars generalizing text rest with
  | case1 => simp at taken
  | case2 => simp_all
  | case3 => simp at taken
  | case4 behind ih | case6 _ behind _ ih =>
      simp only [Option.map_eq_some_iff, push] at taken
      obtain ⟨⟨inner, left⟩, given, same⟩ := taken
      cases same
      exact (ih given).trans ((List.suffix_cons _ _).trans (List.suffix_cons _ _))
  | case5 => simp_all
  | case7 char next behind _ _ ih =>
      simp only [Option.map_eq_some_iff, push] at taken
      obtain ⟨⟨inner, left⟩, given, same⟩ := taken
      cases same
      exact (ih given).trans (List.suffix_cons _ _)

theorem takeTripled_suffix {quote : Char} {chars text rest : List Char}
    (taken : takeTripled quote chars = some (text, rest)) : rest <:+ chars := by
  fun_induction takeTripled quote chars generalizing text rest with
  | case1 => simp at taken
  | case2 char behind _ =>
      simp only [Option.some.injEq, Prod.mk.injEq] at taken
      exact taken.2 ▸ List.drop_suffix _ _
  | case3 char behind _ ih =>
      simp only [Option.map_eq_some_iff, push] at taken
      obtain ⟨⟨inner, left⟩, given, same⟩ := taken
      cases same
      exact (ih given).trans (List.suffix_cons _ _)

theorem takeEscaped_suffix {chars text rest : List Char}
    (taken : takeEscaped chars = some (text, rest)) : rest <:+ chars := by
  fun_induction takeEscaped chars generalizing text rest with
  | case1 => simp at taken
  | case2 behind ih =>
      simp only [Option.map_eq_some_iff, push] at taken
      obtain ⟨⟨inner, left⟩, given, same⟩ := taken
      cases same
      exact (ih given).trans ((List.suffix_cons _ _).trans (List.suffix_cons _ _))
  | case3 => simp_all
  | case4 => simp at taken
  | case5 => simp at taken
  | case6 behind char used _ _ ih =>
      simp only [Option.map_eq_some_iff, push] at taken
      obtain ⟨⟨inner, left⟩, given, same⟩ := taken
      cases same
      exact (ih given).trans ((List.drop_suffix _ _).trans (List.suffix_cons _ _))
  | case7 char behind _ _ _ ih =>
      simp only [Option.map_eq_some_iff, push] at taken
      obtain ⟨⟨inner, left⟩, given, same⟩ := taken
      cases same
      exact (ih given).trans (List.suffix_cons _ _)

theorem map_push_ok {char : Char} {read : Except LexicalFault (List Char × List Char)}
    {text rest : List Char} (mapped : read.map (push char) = .ok (text, rest)) :
    ∃ inner, read = .ok (inner, rest) := by
  cases read with
  | error problem => cases mapped
  | ok pair =>
      cases mapped
      exact ⟨pair.1, rfl⟩

theorem takeUnicode_suffix {chars text rest : List Char}
    (taken : takeUnicode chars = .ok (text, rest)) : rest <:+ chars := by
  fun_induction takeUnicode chars generalizing text rest with
  | case1 => cases taken
  | case2 behind ih | case4 behind ih =>
      obtain ⟨inner, given⟩ := map_push_ok taken
      exact (ih given).trans ((List.suffix_cons _ _).trans (List.suffix_cons _ _))
  | case3 => cases taken; exact List.suffix_cons _ _
  | case5 behind char _ ih =>
      obtain ⟨inner, given⟩ := map_push_ok taken
      exact (ih given).trans ((List.drop_suffix _ _).trans
        ((List.suffix_cons _ _).trans (List.suffix_cons _ _)))
  | case6 => cases taken
  | case7 behind _ _ char _ ih =>
      obtain ⟨inner, given⟩ := map_push_ok taken
      exact (ih given).trans ((List.drop_suffix _ _).trans (List.suffix_cons _ _))
  | case8 => cases taken
  | case9 char behind _ _ _ _ _ ih =>
      obtain ⟨inner, given⟩ := map_push_ok taken
      exact (ih given).trans (List.suffix_cons _ _)

theorem takeExponent_suffix (chars : List Char) : (takeExponent chars).2 <:+ chars := by
  fun_cases takeExponent chars with
  | case1 letter next rest | case2 letter next rest =>
      exact (List.dropWhile_suffix _).trans ((List.suffix_cons _ _).trans (List.suffix_cons _ _))
  | case3 | case4 | case5 => exact List.suffix_refl _

theorem skipBlock_suffix {depth : Nat} {last : Char} {chars rest : List Char}
    (skipped : skipBlock depth last chars = some rest) : rest <:+ chars := by
  fun_induction skipBlock depth last chars generalizing rest with
  | case1 => simp at skipped
  | case3 => simp_all
  | case2 _ _ _ _ _ ih | case4 _ _ _ _ _ _ _ ih | case5 _ _ _ _ _ _ ih =>
      exact (ih skipped).trans (List.suffix_cons _ _)

theorem skipDollars_suffix {chars rest : List Char}
    (skipped : skipDollars chars = some rest) : rest <:+ chars := by
  fun_induction skipDollars chars generalizing rest with
  | case1 => simp at skipped
  | case2 => simp at skipped
  | case3 first second behind _ =>
      cases skipped
      exact (List.suffix_cons _ _).trans (List.suffix_cons _ _)
  | case4 first second behind _ ih => exact (ih skipped).trans (List.suffix_cons _ _)

theorem skipTag_suffix {tag chars rest : List Char} {pending : Option (List Char)}
    (skipped : skipTag tag pending chars = some rest) : rest <:+ chars := by
  fun_induction skipTag tag pending chars generalizing rest with
  | case1 => simp at skipped
  | case3 => simp_all
  | case2 _ _ ih | case4 _ _ _ ih | case5 _ _ _ _ ih =>
      exact (ih skipped).trans (List.suffix_cons _ _)

/-- The step leaves a suffix of the given characters if it succeeds. -/
def Leaves (chars : List Char) (result : Step) : Prop :=
  ∀ token rest, result = .ok (token, rest) → rest <:+ chars

theorem leaves_ok {chars rest : List Char} {token : Option Token} (suffix : rest <:+ chars) :
    Leaves chars (.ok (token, rest)) := by
  intro _ _ same
  cases same
  exact suffix

theorem leaves_error {chars : List Char} {problem : LexicalFault} :
    Leaves chars (.error problem) := by
  intro _ _ same
  cases same

theorem leaves_ite {chars : List Char} {test : Prop} [Decidable test] {first second : Step}
    (then_ : test → Leaves chars first) (else_ : ¬ test → Leaves chars second) :
    Leaves chars (if test then first else second) := by
  by_cases holds : test
  · simpa only [if_pos holds] using then_ holds
  · simpa only [if_neg holds] using else_ holds

theorem leaves_word {taken rest chars : List Char} (suffix : rest <:+ chars) :
    Leaves chars (scanWord taken rest) :=
  leaves_ok ((List.dropWhile_suffix _).trans suffix)

theorem leaves_literal {opening closing : String} {problem : LexicalProblem}
    {place chars : List Char} {body : Option (List Char × List Char)}
    (suffix : ∀ text rest, body = some (text, rest) → rest <:+ chars) :
    Leaves chars (scanLiteral opening closing problem place body) := by
  cases body with
  | none => exact leaves_error
  | some pair => exact leaves_ok (suffix pair.1 pair.2 rfl)

theorem leaves_letter (letter : Char) (rest : List Char) :
    Leaves rest (scanLetter letter rest) := by
  have quoted (count : Nat) (quote : Char) (text left : List Char)
      (taken : takeQuoted quote (rest.drop count) = some (text, left)) : left <:+ rest :=
    (takeQuoted_suffix taken).trans (List.drop_suffix _ _)
  have raw (quote : Char) : Leaves rest (scanRaw quote rest) := by
    unfold scanRaw
    split
    · exact leaves_literal fun _ _ taken =>
        (takeTripled_suffix taken).trans (List.drop_suffix _ _)
    · split
      · exact leaves_ok (List.drop_suffix _ _)
      · exact leaves_literal (quoted 1 quote)
  have letters (name : String) : Leaves rest (scanPrefixed name rest) :=
    leaves_literal fun _ _ taken =>
      (takeBackslashed_suffix taken).trans (List.drop_suffix _ _)
  have unicode : Leaves rest (scanUnicode (rest.drop 2)) := by
    unfold scanUnicode
    split
    · next given => exact leaves_ok ((takeUnicode_suffix given).trans (List.drop_suffix _ _))
    · exact leaves_error
  exact leaves_ite (fun _ => leaves_literal (quoted 1 _)) fun _ =>
    leaves_ite (fun _ => leaves_literal (quoted 1 _)) fun _ =>
    leaves_ite (fun _ => raw _) fun _ =>
    leaves_ite (fun _ => raw _) fun _ =>
    leaves_ite (fun _ => letters _) fun _ =>
    leaves_ite (fun _ => letters _) fun _ =>
    leaves_ite (fun _ => leaves_literal fun _ _ taken =>
      (takeEscaped_suffix taken).trans (List.drop_suffix _ _)) fun _ =>
    leaves_ite (fun _ => unicode) fun _ => leaves_word (List.suffix_refl _)

theorem leaves_fraction {taken rest chars : List Char} (suffix : rest <:+ chars) :
    Leaves chars (scanFraction taken rest) := by
  have digits : rest.dropWhile Char.isDigit <:+ chars :=
    (List.dropWhile_suffix _).trans suffix
  unfold scanFraction
  simp only
  split
  · exact leaves_ok digits
  · have exponent := (takeExponent_suffix (rest.dropWhile Char.isDigit)).trans digits
    unfold scanLong
    split
    · next behind same =>
        exact leaves_ok ((List.suffix_cons _ _).trans (same ▸ exponent))
    · exact leaves_ok exponent

theorem leaves_number {char : Char} {rest : List Char} (start : char.isDigit || char = '.') :
    Leaves rest (scanNumber (char :: rest)) := by
  have behind : ∃ behind, (char :: rest).dropWhile Char.isDigit = behind ∧
      (behind <:+ rest ∨ behind = '.' :: rest) := by
    by_cases digit : char.isDigit = true
    · exact ⟨_, rfl, .inl (by simp [digit, List.dropWhile_suffix])⟩
    · have point : char = '.' := by simpa [digit] using start
      exact ⟨_, rfl, .inr (by simp [point])⟩
  obtain ⟨behind, same, shape⟩ := behind
  unfold scanNumber
  simp only [same]
  split
  · next left =>
      refine leaves_fraction ?_
      rcases shape with suffix | whole
      · exact (List.suffix_cons _ _).trans suffix
      · simp only [List.cons.injEq, true_and] at whole
        exact whole ▸ List.suffix_refl _
  · next left =>
      have suffix : 'x' :: left <:+ rest := by
        rcases shape with suffix | whole
        · exact suffix
        · simp at whole
      split
      · exact leaves_ok ((List.dropWhile_suffix _).trans ((List.suffix_cons _ _).trans suffix))
      · exact leaves_fraction suffix
  · next left notPoint _ =>
      rcases shape with suffix | whole
      · exact leaves_fraction suffix
      · exact absurd whole (notPoint _)

theorem leaves_sigil {sigil rest chars : List Char} (suffix : rest <:+ chars) :
    Leaves chars (scanSigil sigil rest) := by
  unfold scanSigil
  split
  · exact leaves_ok suffix
  · split
    · exact leaves_ok suffix
    · exact leaves_word ((List.suffix_cons _ _).trans suffix)

theorem leaves_dollar (char : Char) (rest : List Char) :
    Leaves rest (scanDollar (char :: rest)) := by
  unfold scanDollar
  simp only [List.drop_succ_cons, List.drop_zero]
  repeat' split
  · next skipped =>
      exact leaves_ok ((skipDollars_suffix skipped).trans
        ((List.drop_suffix _ _).trans (List.dropWhile_suffix _)))
  · exact leaves_error
  · next skipped =>
      exact leaves_ok ((skipTag_suffix skipped).trans
        ((List.drop_suffix _ _).trans (List.dropWhile_suffix _)))
  · exact leaves_error
  · exact leaves_ok (List.dropWhile_suffix _)

theorem leaves_quoted (quote : Char) (rest place : List Char) (problem : LexicalProblem)
    (make : String → Token) :
    Leaves rest (match takeQuoted quote rest with
      | some (text, behind) => found (make (String.ofList text)) behind
      | none => fault problem place) := by
  split
  · next taken => exact leaves_ok (takeQuoted_suffix taken)
  · exact leaves_error

theorem leaves_blockComment (rest : List Char) :
    Leaves rest (scanBlockComment (rest.drop 1)) := by
  unfold scanBlockComment
  split
  · next skipped => exact leaves_ok ((skipBlock_suffix skipped).trans (List.drop_suffix _ _))
  · exact leaves_error

theorem leaves_mark (char : Char) (rest : List Char) : Leaves rest (scanMark char rest) := by
  unfold scanMark
  split
  · exact leaves_ok (List.drop_suffix _ _)
  · exact leaves_ok (List.suffix_refl _)

theorem leaves_step (char : Char) (rest : List Char) : Leaves rest (step char rest) :=
  leaves_ite (fun _ => leaves_ok (List.suffix_refl _)) fun _ =>
    leaves_ite (fun _ => leaves_letter _ _) fun _ =>
    leaves_ite (fun _ => leaves_quoted _ _ _ _ string) fun _ =>
    leaves_ite (fun _ => leaves_quoted _ _ _ _ (word · (some char))) fun _ =>
    leaves_ite (fun start => leaves_number start) fun _ =>
    leaves_ite (fun _ => leaves_ok ((List.drop_suffix _ _).trans (List.dropWhile_suffix _))) fun _ =>
    leaves_ite (fun _ => leaves_blockComment _) fun _ =>
    leaves_ite (fun _ => leaves_ok (List.dropWhile_suffix _)) fun _ =>
    leaves_ite (fun _ => leaves_dollar _ _) fun _ =>
    leaves_ite (fun _ => leaves_sigil (List.drop_suffix _ _)) fun _ =>
    leaves_ite (fun _ => leaves_sigil (List.suffix_refl _)) fun _ =>
    leaves_ite (fun _ => leaves_sigil (List.suffix_refl _)) fun _ => leaves_mark _ _

theorem step_length {char : Char} {rest left : List Char} {token : Option Token}
    (stepped : step char rest = .ok (token, left)) : left.length < rest.length + 1 :=
  Nat.lt_succ_of_le (leaves_step char rest token left stepped).length_le

def scan : List Char → Except LexicalFault (List Token)
  | [] => .ok []
  | char :: rest =>
      match _ : step char rest with
      | .error problem => .error problem
      | .ok (token, left) => (scan left).map fun tokens => token.toList ++ tokens
termination_by chars => chars.length
decreasing_by exact step_length (by assumption)

end TabularSql.Token
