/-!
# Quoted names and quoted text

A name stands between double quotes and a text between single quotes; the quote itself is
written twice.  A text with a backslash takes the escape form, with backslashes written twice,
so that it reads the same whichever way the server treats backslashes.
-/

namespace TypedQuery
namespace Text

def doubled (quote : Char) : List Char -> List Char
  | [] => []
  | c :: rest => if c = quote then quote :: quote :: doubled quote rest else c :: doubled quote rest

def quoteIdent (name : String) : String :=
  "\"" ++ String.ofList (doubled '"' name.toList) ++ "\""

theorem toList_quoteIdent (name : String) :
    (quoteIdent name).toList = '"' :: doubled '"' name.toList ++ ['"'] := by
  simp [quoteIdent]

def quoteLiteral (text : String) : String :=
  let escaped := doubled '\'' text.toList
  if '\\' ∈ escaped then "E'" ++ String.ofList (doubled '\\' escaped) ++ "'"
  else "'" ++ String.ofList escaped ++ "'"

/-- A schema and a name, or the name alone. -/
def qualifiedIdent (schema : Option String) (name : String) : String :=
  match schema with
  | some schema => quoteIdent schema ++ "." ++ quoteIdent name
  | none => quoteIdent name

end Text
end TypedQuery
