import LoxLang.Json.Value
import LoxLang.Number.Layout
import LoxLang.Text.Quoted

/-!
# Described documents

The form in which a document is named inside a message: `None` for null, `True` and `False`, exact
numbers, and strings in quotes. A string that is the whole of what is described stands as it is.
-/

namespace LoxLang.Json

mutual

/-- A document inside a message. -/
def described : Json → String
  | null => "None"
  | bool value => if value then "True" else "False"
  | integer value => toString value
  | number value => Number.text value
  | string value => Text.quoted value
  | array items => "[" ++ ", ".intercalate (describedItems items) ++ "]"
  | object fields => "\x7b" ++ ", ".intercalate (describedFields fields) ++ "\x7d"

/-- The items of a list inside a message. -/
def describedItems : List Json → List String
  | [] => []
  | item :: items => item.described :: describedItems items

/-- The fields of an object inside a message. -/
def describedFields : List (String × Json) → List String
  | [] => []
  | (name, value) :: fields =>
    (Text.quoted name ++ ": " ++ value.described) :: describedFields fields

end

/-- A document that is the whole of what is described. -/
def plain : Json → String
  | string value => value
  | document => document.described

end LoxLang.Json
