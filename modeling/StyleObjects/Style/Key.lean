import StyleObjects.Text.Case
import StyleObjects.Text.Split

/-!
# Keys of styles

The key of a property is its name with the hyphens left out and every word but the first
capitalised.  In the name of a vendor's property, which starts with a hyphen, the first word is
capitalised too.  Custom properties keep their names.
-/

namespace StyleObjects

open Text

/-- The key of the characters of a property's name. -/
def camelCase (name : List Char) : List Char :=
  if name.take 2 = ['-', '-'] then name
  else
    match (splitAt '-' name).filter (!·.isEmpty) with
    | [] => name
    | word :: words =>
      (if name.head? = some '-' then capitalize word else word) ++ words.flatMap capitalize

/-- The key of a property. -/
def styleKey (property : String) : String :=
  String.ofList (camelCase property.toList)

end StyleObjects
