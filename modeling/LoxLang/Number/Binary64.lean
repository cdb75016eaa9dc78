/-!
# Binary floating point numbers by rank

A nonnegative double is known by its *rank*: the number its exponent and fraction bits spell. Ranks
are ordered as the doubles are, so "the next double" is "the next rank". Every finite double is a
whole multiple of `2 ^ -1074`, and `scaled` gives that multiple, so that questions about doubles are
questions about natural numbers.

`nearestRank` rounds a ratio of natural numbers to the nearest double, a tie to the even rank. This
is authoritative for every decimal numeral that is read.
-/

namespace LoxLang.Number

/-- The number of fraction bits spans this many consecutive ranks. -/
def binade : Nat := Nat.pow 2 52

/-- The rank of infinity: one past the largest finite double. -/
def infiniteRank : Nat := 2047 * binade

/-- The significand of the double of a rank, the leading bit of a normal number included. -/
def significand (rank : Nat) : Nat :=
  if rank < binade then rank else rank % binade + binade

/-- How often the significand is doubled, counted from the finest grid `2 ^ -1074`. -/
def doublings (rank : Nat) : Nat := rank / binade - 1

/-- The value of the double of a finite rank, in units of `2 ^ -1074`. -/
def scaled (rank : Nat) : Nat := significand rank * Nat.pow 2 (doublings rank)

/-- The quotient rounded to the nearest natural number, a tie to the even one. -/
def roundedQuotient (numerator denominator : Nat) : Nat :=
  let quotient := numerator / denominator
  let remainder := numerator % denominator
  if 2 * remainder < denominator then quotient
  else if denominator < 2 * remainder then quotient + 1
  else quotient + quotient % 2

/-- The rank of the double nearest to `numerator / denominator`, a tie to the even rank. A ratio
beyond the largest double has a rank at or above `infiniteRank`. -/
def nearestRank (numerator denominator : Nat) : Nat :=
  let units := numerator * Nat.pow 2 1074
  let shift := (units / denominator).log2 - 52
  shift * binade + roundedQuotient units (denominator * Nat.pow 2 shift)

/-- The weight of the sign bit. -/
def signWeight : Nat := Nat.pow 2 63

/-- The double with the given sign and rank; every rank past `infiniteRank` gives infinity. -/
def ofRank (negative : Bool) (rank : Nat) : Float :=
  .ofBits (.ofNat (min rank infiniteRank + if negative then signWeight else 0))

/-- What a double is: not a number, or a sign with a rank. -/
inductive Shape where
  | notANumber
  | signed (negative : Bool) (rank : Nat)
deriving DecidableEq, Repr

/-- Reads the sign and the rank off the bits. -/
def shape (number : Float) : Shape :=
  let bits := number.toBits.toNat
  let rank := bits % signWeight
  if infiniteRank < rank then .notANumber else .signed (signWeight ≤ bits) rank

/-- The double that is not a number. -/
def notANumber : Float := .ofBits 0x7FF8000000000000

/-- The infinity of the given sign. -/
def infinity (negative : Bool) : Float := ofRank negative infiniteRank

end LoxLang.Number
