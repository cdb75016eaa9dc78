import LoxLang.Text.Printable

/-!
# Quoted text

How a string is shown inside quotes when a value is described rather than printed. Single quotes
are used, unless the string holds a single quote and no double quote. The quote and the backslash
are escaped; line feed, carriage return and tab have short escapes; every other unprintable
character is written as its code point in two, four or eight hexadecimal digits.
-/

namespace LoxLang.Text

/-- The lower-case hexadecimal digits of a code point, filled up to a width. -/
def hexDigits (width point : Nat) : List Char :=
  let written := Nat.toDigits 16 point
  List.replicate (width - written.length) '0' ++ written

/-- The code point of an unprintable character, by the narrowest escape that holds it. -/
def escapedPoint (point : Nat) : List Char :=
  if point < 0x100 then '\\' :: 'x' :: hexDigits 2 point
  else if point < 0x10000 then '\\' :: 'u' :: hexDigits 4 point
  else '\\' :: 'U' :: hexDigits 8 point

/-- One character inside the given quotes. -/
def quotedCharacter (quote character : Char) : List Char :=
  if character = quote ∨ character = '\\' then ['\\', character]
  else if character = '\n' then ['\\', 'n']
  else if character = '\r' then ['\\', 'r']
  else if character = '\t' then ['\\', 't']
  else if isPrintable character then [character]
  else escapedPoint character.toNat

/-- The quote that surrounds a string. -/
def quoteFor (characters : List Char) : Char :=
  if characters.contains '\'' && !characters.contains '"' then '"' else '\''

/-- The string in quotes. -/
def quoted (string : String) : String :=
  let characters := string.toList
  let quote := quoteFor characters
  .ofList (quote :: characters.flatMap (quotedCharacter quote) ++ [quote])

end LoxLang.Text
