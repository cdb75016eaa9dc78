import LoxLang.Json.Value
import LoxLang.Number.Layout
import LoxLang.Text.Quoted

/-!
# JSON text

How a document is written. A line is broken, or not, wherever an item begins or a list ends; the gap
that is put there is a parameter, so that the indented form and the form on one line are the same
writer.
-/

namespace LoxLang.Json

/-- Doubles in JSON text: the exact form, with the names of the values that are no decimals. -/
def numberLayout : Number.Layout :=
  { Number.exactLayout with notANumber := "NaN", infinity := "Infinity" }

/-- One character inside a JSON string. Only the quote, the backslash and the ASCII controls are
escaped. -/
def escaped (character : Char) : List Char :=
  if character = '"' ∨ character = '\\' then ['\\', character]
  else if character = '\n' then ['\\', 'n']
  else if character = '\r' then ['\\', 'r']
  else if character = '\t' then ['\\', 't']
  else if character = '\x08' then ['\\', 'b']
  else if character = '\x0c' then ['\\', 'f']
  else if character.toNat < 0x20 then '\\' :: 'u' :: Text.hexDigits 4 character.toNat
  else [character]

/-- A JSON string. -/
def stringText (string : String) : List Char :=
  '"' :: string.toList.flatMap escaped ++ ['"']

mutual

/-- The text of a document at the given depth, with a gap for each depth. -/
def characters (gap : Nat → List Char) (depth : Nat) : Json → List Char
  | null => "null".toList
  | bool value => (if value then "true" else "false").toList
  | integer value => (toString value).toList
  | number value => numberLayout.characters value
  | string value => stringText value
  | array [] => ['[', ']']
  | array (item :: items) =>
    '[' :: gap (depth + 1) ++ characters gap (depth + 1) item ++ itemsText gap (depth + 1) items
      ++ gap depth ++ [']']
  | object [] => ['\x7b', '\x7d']
  | object ((name, value) :: fields) =>
    '\x7b' :: gap (depth + 1) ++ stringText name ++ ':' :: ' ' ::
      characters gap (depth + 1) value ++ fieldsText gap (depth + 1) fields ++ gap depth
      ++ ['\x7d']

/-- The further items of a list, each after a comma. -/
def itemsText (gap : Nat → List Char) (depth : Nat) : List Json → List Char
  | [] => []
  | item :: items =>
    ',' :: gap depth ++ characters gap depth item ++ itemsText gap depth items

/-- The further fields of an object, each after a comma. -/
def fieldsText (gap : Nat → List Char) (depth : Nat) : List (String × Json) → List Char
  | [] => []
  | (name, value) :: fields =>
    ',' :: gap depth ++ stringText name ++ ':' :: ' ' :: characters gap depth value
      ++ fieldsText gap depth fields

end

/-- A line feed and two blanks for each level. -/
def indentation (depth : Nat) : List Char := '\n' :: List.replicate (2 * depth) ' '

/-- The document with every item on a line of its own. -/
def indented (document : Json) : String := .ofList (characters indentation 0 document)

/-- The document on one line. -/
def onOneLine (document : Json) : String := .ofList (characters (fun _ => []) 0 document)

end LoxLang.Json
