/-!
# Quoted text

A quote inside quoted text is written twice. String literals use the single quote, delimited
identifiers the double quote or the back quote.
-/

namespace TabularSql.Text

set_option autoImplicit false

/-- The characters with every `quote` written twice. -/
def doubled (quote : Char) : List Char → List Char
  | [] => []
  | char :: rest =>
      if char = quote then quote :: quote :: doubled quote rest
      else char :: doubled quote rest

def enclosed (quote : Char) (text : String) : String :=
  String.ofList (quote :: doubled quote text.toList ++ [quote])

end TabularSql.Text
