import LoxLang.Number.Binary64

/-!
# Decimal numerals

A decimal is a coefficient with a power of ten. `Decimal.rank` rounds it to a double; `Numeral` is a
written decimal with its sign, and `Numeral.ofText?` reads one.
-/

namespace LoxLang.Number

/-- The nonnegative decimal `coefficient * 10 ^ exponent`. -/
structure Decimal where
  coefficient : Nat
  exponent : Int
deriving DecidableEq, Repr

namespace Decimal

/-- The rank of the nearest double. Exponents that put the value far outside the range of doubles
are settled without forming the power of ten. -/
def rank (decimal : Decimal) : Nat :=
  if decimal.coefficient = 0 then 0
  else if 310 < decimal.exponent then infiniteRank
  else if decimal.exponent < -(decimal.coefficient.log2 + 400 : Nat) then 0
  else if 0 ≤ decimal.exponent then
    nearestRank (decimal.coefficient * Nat.pow 10 decimal.exponent.toNat) 1
  else
    nearestRank decimal.coefficient (Nat.pow 10 (-decimal.exponent).toNat)

/-- The nearest double. -/
def toFloat (decimal : Decimal) (negative : Bool) : Float := ofRank negative decimal.rank

end Decimal

/-- An ASCII decimal digit. -/
def isDigit (character : Char) : Bool := '0' ≤ character && character ≤ '9'

/-- The value of an ASCII digit. -/
def digitValue (character : Char) : Nat := character.toNat - '0'.toNat

/-- The number that digits spell, after the digits already read. -/
def digitsFrom (read : Nat) (digits : List Char) : Nat :=
  digits.foldl (fun total digit => total * 10 + digitValue digit) read

/-- The number that digits spell. -/
def ofDigits (digits : List Char) : Nat := digitsFrom 0 digits

/-- The decimal written as whole digits, a point and fraction digits. -/
def Decimal.ofParts (whole fraction : List Char) (exponent : Int) : Decimal :=
  ⟨ofDigits (whole ++ fraction), exponent - fraction.length⟩

/-- Reads digits with an optional point and more digits, as a number literal is spelled. -/
def Decimal.ofLiteral (text : List Char) : Decimal :=
  let whole := text.takeWhile isDigit
  let fraction := (text.dropWhile isDigit).drop 1
  .ofParts whole fraction 0

/-- A sign, if one stands in front. -/
def splitSign : List Char → Bool × List Char
  | '-' :: rest => (true, rest)
  | '+' :: rest => (false, rest)
  | text => (false, text)

/-- An exponent mark with its digits: the exponent, or nothing if the text is no exponent. The empty
text is the exponent zero. -/
def exponentOfText? : List Char → Option Int
  | [] => some 0
  | mark :: rest =>
    if mark = 'e' ∨ mark = 'E' then
      let (negative, digits) := splitSign rest
      if digits.isEmpty ∨ !digits.all isDigit then none
      else some (if negative then -(ofDigits digits : Int) else ofDigits digits)
    else none

/-- Reads an unsigned numeral: digits, a point with digits, or both, then an optional exponent. -/
def Decimal.ofText? (text : List Char) : Option Decimal :=
  let whole := text.takeWhile isDigit
  let rest := text.dropWhile isDigit
  let (fraction, mark) := match rest with
    | '.' :: tail => (tail.takeWhile isDigit, tail.dropWhile isDigit)
    | _ => ([], rest)
  if whole.isEmpty ∧ fraction.isEmpty then none
  else (exponentOfText? mark).map (.ofParts whole fraction ·)

/-- Reads a number: an optional sign before a numeral, `inf` or `nan`. -/
def ofText? (text : String) : Option Float :=
  let (negative, body) := splitSign text.toList
  if body = "inf".toList then some (infinity negative)
  else if body = "nan".toList then some notANumber
  else (Decimal.ofText? body).map (·.toFloat negative)

end LoxLang.Number
