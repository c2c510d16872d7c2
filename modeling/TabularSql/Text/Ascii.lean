/-!
# ASCII case

Keywords, type names and metadata columns are compared without regard to the case of ASCII letters;
every other character has to match exactly.
-/

namespace TabularSql.Text

set_option autoImplicit false

def upper (text : String) : String :=
  String.ofList (text.toList.map Char.toUpper)

def sameWord (left right : String) : Bool :=
  upper left == upper right

def listed (words : List String) (word : String) : Bool :=
  words.any fun listed => sameWord listed word

end TabularSql.Text
