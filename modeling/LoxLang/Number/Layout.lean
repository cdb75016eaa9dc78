import LoxLang.Number.Shortest

/-!
# Number text

How a shortest decimal is laid out: which magnitudes are written positionally, how an exponent is
written, and what stands for the values that are no decimals. `text` is the exact form, `display`
the form a program prints.
-/

namespace LoxLang.Number

/-- The decisions of a number format. -/
structure Layout where
  /-- Magnitudes from ten to this power on are written positionally. -/
  leastPower : Int
  /-- Magnitudes below ten to this power are written positionally. -/
  pastPower : Int
  /-- The least number of exponent digits. -/
  exponentDigits : Nat
  /-- The ending of a positional whole number. -/
  wholeEnding : String
  notANumber : String
  infinity : String

/-- Numbers from `0.0001` up to `10 ^ 16` are positional and whole ones end in `.0`; an exponent has
a sign and at least two digits. -/
def exactLayout : Layout := ⟨-4, 16, 2, ".0", "nan", "inf"⟩

/-- A decimal as its digits, without zeros at the end, with the power of ten of the first digit. -/
def leading (decimal : Decimal) : List Char × Int :=
  let all := digits decimal.coefficient
  ((all.reverse.dropWhile (· = '0')).reverse, all.length - 1 + decimal.exponent)

namespace Layout

/-- The exponent with its sign, filled up with zeros. -/
def exponentText (layout : Layout) (power : Int) : List Char :=
  let magnitude := digits power.natAbs
  'e' :: (if power < 0 then '-' else '+') ::
    (List.replicate (layout.exponentDigits - magnitude.length) '0' ++ magnitude)

/-- Digits around a point: the first digit stands for ten to the given power. -/
def positional (layout : Layout) (figures : List Char) (power : Int) : List Char :=
  if power < 0 then
    "0.".toList ++ List.replicate (-power - 1).toNat '0' ++ figures
  else
    let wholes := power.toNat + 1
    if figures.length ≤ wholes then
      figures ++ List.replicate (wholes - figures.length) '0' ++ layout.wholeEnding.toList
    else figures.take wholes ++ '.' :: figures.drop wholes

/-- One digit, a point if more digits follow, and the exponent. -/
def scientific (layout : Layout) (figures : List Char) (power : Int) : List Char :=
  figures.take 1 ++ (if figures.length ≤ 1 then [] else '.' :: figures.drop 1)
    ++ layout.exponentText power

/-- The text of a magnitude that is not zero. -/
def decimal (layout : Layout) (value : Decimal) : List Char :=
  let (figures, power) := leading value
  if layout.leastPower ≤ power ∧ power < layout.pastPower then layout.positional figures power
  else layout.scientific figures power

/-- The text of a magnitude. -/
def magnitude (layout : Layout) (rank : Nat) : List Char :=
  if rank = 0 then '0' :: layout.wholeEnding.toList
  else if rank = infiniteRank then layout.infinity.toList
  else layout.decimal (shortest rank)

/-- The characters of a number; a zero keeps its sign. -/
def characters (layout : Layout) (number : Float) : List Char :=
  match shape number with
  | .notANumber => layout.notANumber.toList
  | .signed negative rank => (if negative then ['-'] else []) ++ layout.magnitude rank

end Layout

/-- The exact text of a number: the fewest digits that read back as the same number. -/
def text (number : Float) : String := .ofList (exactLayout.characters number)

/-- The layout of printed numbers: as the exact one, and whole numbers have no ending. -/
def displayLayout : Layout := { exactLayout with wholeEnding := "" }

/-- The text a program prints for a number. -/
def display (number : Float) : String := .ofList (displayLayout.characters number)

end LoxLang.Number
