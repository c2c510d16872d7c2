import TabularSql.Number.Word

/-!
# Lexical faults

What can be wrong with the characters of a text, and where. A fault is placed by the number of
characters from its place to the end of the text; lines and columns start at one.
-/

namespace TabularSql

set_option autoImplicit false

inductive LexicalProblem where
  | unterminatedString
  | unclosedQuote (quote : Char)
  | unterminatedEscapes
  | unterminatedUnicode
  | missingHexDigit
  | invalidHexDigit (digit : Char)
  | invalidCodePoint (code : Nat)
  | unterminatedComment
  | unterminatedDollar
  | unterminatedDollarTag
  deriving DecidableEq, Repr

namespace LexicalProblem

def message : LexicalProblem → String
  | unterminatedString => "Unterminated string literal"
  | unclosedQuote quote =>
      "Expected close delimiter '" ++ String.singleton quote ++ "' before EOF."
  | unterminatedEscapes => "Unterminated encoded string literal"
  | unterminatedUnicode => "Unterminated unicode encoded string literal"
  | missingHexDigit => "Unexpected EOF while parsing hex digit in escaped unicode string."
  | invalidHexDigit digit =>
      "Invalid hex digit in escaped unicode string: " ++ String.singleton digit
  | invalidCodePoint code =>
      "Invalid unicode character: " ++ String.ofList (Nat.toDigits 16 code)
  | unterminatedComment => "Unexpected EOF while in a multi-line comment"
  | unterminatedDollar => "Unterminated dollar-quoted string"
  | unterminatedDollarTag => "Unterminated dollar-quoted, expected $"

end LexicalProblem

structure LexicalFault where
  problem : LexicalProblem
  /-- Characters from the place of the fault to the end of the text. -/
  left : Nat
  deriving DecidableEq, Repr

structure Place where
  line : Nat := 1
  column : Nat := 1
  deriving DecidableEq, Repr

namespace Place

def after (place : Place) (char : Char) : Place :=
  if char = '\n' then { line := place.line + 1 } else { place with column := place.column + 1 }

def ofConsumed (chars : List Char) : Place :=
  chars.foldl after {}

def text (place : Place) : String :=
  "Line: " ++ Number.decimal place.line ++ ", Column: " ++ Number.decimal place.column

end Place

def LexicalFault.place (fault : LexicalFault) (chars : List Char) : Place :=
  Place.ofConsumed (chars.take (chars.length - fault.left))

end TabularSql
