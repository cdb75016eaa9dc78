import LoxLang.Number.Decimal

/-!
# The shortest decimal that reads back

A finite double is a whole multiple of a power of ten, so its digits are those of one natural
number. `shortest` cuts these digits after 1, 2, … places and takes the first cut at which one of
the two neighbours on that decimal grid reads back as the double; of two such neighbours the nearer
one, and the even one if they are equally near. Cutting after the last place gives the double
itself, so a cut is always found.
-/

namespace LoxLang.Number

/-- How many decimal places the double of a finite rank is written with in full. -/
def fullPlaces (rank : Nat) : Nat := 1074 - doublings rank

/-- The value of the double of a finite rank, in units of its last decimal place. -/
def decimalUnits (rank : Nat) : Nat :=
  significand rank * Nat.pow 2 (doublings rank - 1074) * Nat.pow 5 (fullPlaces rank)

/-- The neighbours of `units` on the grid of multiples of `10 ^ places`, the preferred one first;
the last place of `units` stands for ten to the power `unit`. -/
def neighbours (unit : Int) (units places : Nat) : Decimal × Decimal :=
  let step := Nat.pow 10 places
  let below := units / step
  let past := units % step
  let lower : Decimal := ⟨below, unit + places⟩
  let upper : Decimal := ⟨below + 1, unit + places⟩
  if 2 * past < step ∨ (2 * past = step ∧ below % 2 = 0) then (lower, upper) else (upper, lower)

/-- The neighbour that reads back as the double of this rank, if one does. -/
def readsBack? (rank : Nat) (unit : Int) (units places : Nat) : Option Decimal :=
  let (preferred, other) := neighbours unit units places
  if preferred.rank = rank then some preferred
  else if other.rank = rank then some other
  else none

/-- Searches ever finer grids, ending at the exact value. -/
def coarsest (rank : Nat) (unit : Int) (units : Nat) : Nat → Decimal
  | 0 => ⟨units, unit⟩
  | places + 1 => (readsBack? rank unit units places).getD (coarsest rank unit units places)

/-- The decimal digits of a natural number. -/
def digits (number : Nat) : List Char := Nat.toDigits 10 number

/-- The shortest decimal that reads back as the double of a finite rank. -/
def shortest (rank : Nat) : Decimal :=
  let units := decimalUnits rank
  coarsest rank (-(fullPlaces rank : Int)) units (digits units).length

end LoxLang.Number
