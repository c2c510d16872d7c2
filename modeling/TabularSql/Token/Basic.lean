/-!
# Tokens

The words, numbers, string literals and marks that query text is made of. Marks that the grammar
knows have names; every other lexical element is kept by its spelling only, so that a message can
quote it.
-/

namespace TabularSql

set_option autoImplicit false

inductive Mark where
  | leftParen
  | rightParen
  | comma
  | plus
  | minus
  | star
  | slash
  | percent
  | equal
  | doubleEqual
  | notEqual
  | less
  | lessEqual
  | greater
  | greaterEqual
  | colon
  | semicolon
  | period
  deriving DecidableEq, Repr, Inhabited

namespace Mark

def text : Mark → String
  | leftParen => "("
  | rightParen => ")"
  | comma => ","
  | plus => "+"
  | minus => "-"
  | star => "*"
  | slash => "/"
  | percent => "%"
  | equal => "="
  | doubleEqual => "=="
  | notEqual => "<>"
  | less => "<"
  | lessEqual => "<="
  | greater => ">"
  | greaterEqual => ">="
  | colon => ":"
  | semicolon => ";"
  | period => "."

end Mark

inductive Token where
  | word (name : String) (quote : Option Char)
  /-- A number as written, and whether the letter `L` followed it. -/
  | number (digits : String) (long : Bool)
  | string (value : String)
  | mark (known : Mark)
  /-- Anything the grammar has no use for. -/
  | other (spelling : String)
  deriving DecidableEq, Repr, Inhabited

namespace Token

/-- The token as a message quotes it: quotes inside quoted text are not doubled again. -/
def text : Token → String
  | word name none => name
  | word name (some quote) => String.singleton quote ++ name ++ String.singleton quote
  | number digits false => digits
  | number digits true => digits ++ "L"
  | string value => "'" ++ value ++ "'"
  | mark known => known.text
  | other spelling => spelling

end Token

end TabularSql
