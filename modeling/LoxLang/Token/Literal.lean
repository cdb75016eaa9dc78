import LoxLang.Number.Layout

/-!
# Literal values

The values that can stand in a program text: numbers, strings, booleans and nil. A token whose
lexeme denotes no value carries nil.
-/

namespace LoxLang

/-- A value that a token or a literal expression denotes. -/
inductive Literal where
  | nil
  | bool (value : Bool)
  | number (value : Float)
  | text (value : String)
deriving DecidableEq

namespace Literal

/-- Equality of kind and value; numbers are compared as numbers, so the two zeros agree and a NaN
agrees with nothing. -/
def agrees : Literal → Literal → Bool
  | nil, nil => true
  | bool left, bool right => left == right
  | number left, number right => left == right
  | text left, text right => left == right
  | _, _ => false

/-- The form of a literal in the description of its token. -/
def described : Literal → String
  | nil => ""
  | bool value => if value then "True" else "False"
  | number value => Number.text value
  | text value => value

end Literal
end LoxLang
