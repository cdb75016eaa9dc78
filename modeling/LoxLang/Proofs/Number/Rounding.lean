import Mathlib.Algebra.Group.Nat.Defs
import LoxLang.Number.Shortest

/-!
# Rounding to a double

`nearestRank` depends on the ratio alone and is exact on the doubles themselves. The shortcuts of
`Decimal.rank` for extreme exponents agree with it as far as a double can tell, so two decimals of
one value have the same double, and the shortest decimal of a double reads back as that double.
-/

namespace LoxLang.Number

/-- A rounded quotient depends on the ratio alone. -/
theorem roundedQuotient_mul_right (numerator denominator : Nat) {factor : Nat}
    (positive : 0 < factor) :
    roundedQuotient (numerator * factor) (denominator * factor) =
      roundedQuotient numerator denominator := by
  have below (left right : Nat) : left * factor < right * factor ↔ left < right :=
    Nat.mul_lt_mul_right positive
  simp only [roundedQuotient, Nat.mul_div_mul_right _ _ positive, Nat.mul_mod_mul_right,
    ← Nat.mul_assoc, below]

/-- A multiple of the denominator is divided without rounding. -/
theorem roundedQuotient_exact (quotient : Nat) {denominator : Nat} (positive : 0 < denominator) :
    roundedQuotient (quotient * denominator) denominator = quotient := by
  simp [roundedQuotient, Nat.mul_div_cancel _ positive, positive]

/-- A quotient that is no more than a natural number is not rounded beyond it. -/
theorem roundedQuotient_le {numerator denominator bound : Nat} (positive : 0 < denominator)
    (most : numerator ≤ bound * denominator) : roundedQuotient numerator denominator ≤ bound := by
  have quotientLe : numerator / denominator ≤ bound := 
    Nat.div_le_of_le_mul (Nat.mul_comm bound denominator ▸ most)
  have split := Nat.div_add_mod' numerator denominator
  by_cases isBound : numerator / denominator = bound
  · have isExact : numerator % denominator = 0 := by
      rw [isBound] at split
      omega
    simp [roundedQuotient, isBound, isExact, positive]
  · unfold roundedQuotient
    dsimp only
    split
    · omega
    · split <;> omega

/-- A quotient that is no less than a natural number is not rounded below it. -/
theorem le_roundedQuotient {numerator denominator bound : Nat} (positive : 0 < denominator)
    (least : bound * denominator ≤ numerator) : bound ≤ roundedQuotient numerator denominator := by
  have leQuotient : bound ≤ numerator / denominator := (Nat.le_div_iff_mul_le positive).mpr least
  unfold roundedQuotient
  dsimp only
  split
  · exact leQuotient
  · split <;> omega

/-- Rounding keeps the order of quotients. -/
theorem roundedQuotient_mono {lesser greater denominator : Nat} (positive : 0 < denominator)
    (ordered : lesser ≤ greater) :
    roundedQuotient lesser denominator ≤ roundedQuotient greater denominator := by
  have quotients : lesser / denominator ≤ greater / denominator := Nat.div_le_div_right ordered
  by_cases same : lesser / denominator = greater / denominator
  · have lesserSplit := Nat.div_add_mod lesser denominator
    have greaterSplit := Nat.div_add_mod greater denominator
    rw [same] at lesserSplit
    unfold roundedQuotient
    dsimp only
    rw [same]
    repeat' split
    all_goals omega
  · have next : lesser ≤ (lesser / denominator + 1) * denominator := by
      rw [Nat.mul_comm]
      exact Nat.le_of_lt (Nat.lt_mul_div_succ lesser positive)
    have reached : (greater / denominator) * denominator ≤ greater :=
      Nat.div_mul_le_self greater denominator
    have lesserLe := roundedQuotient_le positive next
    have leGreater := le_roundedQuotient positive reached
    omega

/-- The nearest double depends on the ratio alone. -/
theorem nearestRank_mul_right (numerator denominator : Nat) {factor : Nat}
    (positive : 0 < factor) :
    nearestRank (numerator * factor) (denominator * factor) =
      nearestRank numerator denominator := by
  have reorder (left right : Nat) : left * factor * right = left * right * factor :=
    Nat.mul_right_comm left factor right
  simp only [nearestRank, reorder, Nat.mul_div_mul_right _ _ positive,
    roundedQuotient_mul_right _ _ positive]

/-- The number of steps of the finest grid in one. -/
def gridSteps : Nat := Nat.pow 2 1074

/-- There is at least one step of the finest grid. -/
theorem gridSteps_pos : 0 < gridSteps := by
  unfold gridSteps
  generalize 1074 = exponent
  exact Nat.two_pow_pos exponent

/-- There is at least one rank in a binade. -/
theorem binade_pos : 0 < binade := Nat.two_pow_pos 52

/-- How often the finest grid is coarsened for a number of its steps. -/
private def coarsenings (steps : Nat) : Nat := steps.log2 - 52

/-- The nearest rank counts the binades below, and in its own binade the steps of a grid as coarse.
-/
private theorem nearestRank_eq (numerator denominator : Nat) :
    nearestRank numerator denominator =
      coarsenings (numerator * gridSteps / denominator) * binade +
        roundedQuotient (numerator * gridSteps)
          (denominator * Nat.pow 2 (coarsenings (numerator * gridSteps / denominator))) := by
  unfold nearestRank gridSteps
  generalize Nat.pow 2 1074 = steps
  rfl

/-- The nearest double to a number on the finest grid. -/
private theorem nearestRank_grid (steps : Nat) :
    nearestRank steps gridSteps =
      coarsenings steps * binade + roundedQuotient steps (Nat.pow 2 (coarsenings steps)) := by
  rw [nearestRank_eq, Nat.mul_div_cancel _ gridSteps_pos, Nat.mul_comm gridSteps,
    roundedQuotient_mul_right _ _ gridSteps_pos]

/-- A significand with its leading bit keeps that bit at the same place when it is doubled. -/
private theorem log2_normal {lead : Nat} (least : binade ≤ lead) (past : lead < 2 * binade)
    (doublings : Nat) : (lead * 2 ^ doublings).log2 = 52 + doublings := by
  have positive := Nat.two_pow_pos doublings
  have nonzero : lead * 2 ^ doublings ≠ 0 := by
    have := Nat.mul_pos (Nat.lt_of_lt_of_le binade_pos least) positive
    omega
  rw [Nat.log2_eq_iff nonzero, Nat.add_right_comm, Nat.pow_add, Nat.pow_add]
  constructor
  · exact Nat.mul_le_mul_right _ least
  · rw [Nat.pow_succ, Nat.mul_comm _ 2]
    exact Nat.mul_lt_mul_of_pos_right past positive

/-- Rounding a double gives the double itself. -/
theorem nearestRank_scaled (rank : Nat) : nearestRank (scaled rank) gridSteps = rank := by
  rw [nearestRank_grid]
  have split := Nat.div_add_mod rank binade
  by_cases small : rank < binade
  · have same : scaled rank = rank := by
      rw [scaled, significand, if_pos small, doublings, Nat.div_eq_of_lt small]
      exact Nat.mul_one rank
    have short : coarsenings rank = 0 := by
      unfold coarsenings
      by_cases isZero : rank = 0
      · rw [isZero]
        decide
      · have := (Nat.log2_lt isZero).mpr small
        omega
    have exact := roundedQuotient_exact rank Nat.one_pos
    rw [Nat.mul_one] at exact
    rw [same, short, Nat.zero_mul, Nat.zero_add, Nat.pow_eq, Nat.pow_zero, exact]
  · have large := Nat.le_of_not_lt small
    have bound := Nat.mod_lt rank binade_pos
    have quotient : 0 < rank / binade := Nat.div_pos large binade_pos
    have value : scaled rank = (rank % binade + binade) * 2 ^ (rank / binade - 1) := by
      rw [scaled, significand, if_neg small, doublings]
      rfl
    rw [value, coarsenings, log2_normal (by omega) (by omega), Nat.add_sub_cancel_left, Nat.pow_eq,
      roundedQuotient_exact _ (Nat.two_pow_pos _)]
    have fewer : (rank / binade - 1) * binade + binade = binade * (rank / binade) := by
      rw [← Nat.succ_mul, Nat.succ_eq_add_one, Nat.sub_add_cancel quotient, Nat.mul_comm]
    omega

/-- Equal ratios have the same nearest double. -/
theorem nearestRank_congr {first firstUnder second secondUnder : Nat}
    (firstPositive : 0 < firstUnder) (secondPositive : 0 < secondUnder)
    (cross : first * secondUnder = second * firstUnder) :
    nearestRank first firstUnder = nearestRank second secondUnder := by
  rw [← nearestRank_mul_right first firstUnder secondPositive, cross, Nat.mul_comm firstUnder,
    nearestRank_mul_right second secondUnder firstPositive]

/-- The significand on the coarsened grid has at most 53 bits, and all of them if the grid was
coarsened. -/
private theorem coarsened (steps : Nat) :
    steps < 2 * binade * 2 ^ coarsenings steps ∧
      (0 < coarsenings steps → binade * 2 ^ coarsenings steps ≤ steps) := by
  have pastBits : 2 * binade * 2 ^ coarsenings steps = 2 ^ (53 + coarsenings steps) := by
    rw [Nat.pow_add]
    rfl
  have leadingBit : binade * 2 ^ coarsenings steps = 2 ^ (52 + coarsenings steps) := by
    rw [Nat.pow_add]
    rfl
  rw [pastBits, leadingBit]
  constructor
  · have short : steps.log2 + 1 ≤ 53 + coarsenings steps := by
      unfold coarsenings
      omega
    exact Nat.lt_of_lt_of_le Nat.lt_log2_self (Nat.pow_le_pow_right (by decide) short)
  · intro coarse
    have nonzero : steps ≠ 0 := by
      rintro rfl
      exact absurd coarse (by decide)
    have long : 52 + coarsenings steps ≤ steps.log2 := by
      unfold coarsenings at coarse ⊢
      omega
    exact (Nat.le_log2 nonzero).mp long

/-- What is larger is coarsened as often or more. -/
private theorem coarsenings_mono {lesser greater : Nat} (ordered : lesser ≤ greater) :
    coarsenings lesser ≤ coarsenings greater := by
  by_cases isZero : lesser = 0
  · rw [isZero]
    exact Nat.zero_le _
  · have nonzero : greater ≠ 0 := by omega
    exact Nat.sub_le_sub_right
      ((Nat.le_log2 nonzero).mpr (Nat.le_trans (Nat.log2_self_le isZero) ordered)) 52

/-- Ratios with one denominator are rounded to doubles in their order. -/
private theorem nearestRank_mono_left {lesser greater denominator : Nat}
    (positive : 0 < denominator) (ordered : lesser ≤ greater) :
    nearestRank lesser denominator ≤ nearestRank greater denominator := by
  rw [nearestRank_eq, nearestRank_eq]
  have steps : lesser * gridSteps ≤ greater * gridSteps := Nat.mul_le_mul_right gridSteps ordered
  generalize lesser * gridSteps = lesserSteps at steps ⊢
  generalize greater * gridSteps = greaterSteps at steps ⊢
  have coarser := coarsenings_mono (Nat.div_le_div_right (c := denominator) steps)
  obtain ⟨fits, -⟩ := coarsened (lesserSteps / denominator)
  obtain ⟨-, leads⟩ := coarsened (greaterSteps / denominator)
  generalize coarsenings (lesserSteps / denominator) = fewer at coarser fits ⊢
  generalize coarsenings (greaterSteps / denominator) = more at coarser leads ⊢
  have scaledPositive (count : Nat) : 0 < denominator * 2 ^ count :=
    Nat.mul_pos positive (Nat.two_pow_pos count)
  rcases Nat.eq_or_lt_of_le coarser with rfl | coarser
  · exact Nat.add_le_add_left (roundedQuotient_mono (scaledPositive fewer) steps) _
  · -- The lesser ratio is rounded to the end of its binade at most, where a later one begins.
    have most : roundedQuotient lesserSteps (denominator * 2 ^ fewer) ≤ 2 * binade := by
      refine roundedQuotient_le (scaledPositive fewer) (Nat.le_of_lt ?_)
      rw [Nat.div_lt_iff_lt_mul positive] at fits
      rwa [Nat.mul_comm denominator, ← Nat.mul_assoc]
    have least : binade ≤ roundedQuotient greaterSteps (denominator * 2 ^ more) := by
      refine le_roundedQuotient (scaledPositive more) ?_
      have begins := leads (by omega)
      rw [Nat.le_div_iff_mul_le positive] at begins
      rwa [Nat.mul_comm denominator, ← Nat.mul_assoc]
    calc fewer * binade + roundedQuotient lesserSteps (denominator * 2 ^ fewer)
        ≤ fewer * binade + 2 * binade := Nat.add_le_add_left most _
      _ = (fewer + 1) * binade + binade := by rw [Nat.two_mul, Nat.succ_mul, Nat.add_assoc]
      _ ≤ more * binade + roundedQuotient greaterSteps (denominator * 2 ^ more) :=
        Nat.add_le_add (Nat.mul_le_mul_right binade coarser) least

/-- Rounding to a double keeps the order of ratios. -/
theorem nearestRank_mono {lesser lesserUnder greater greaterUnder : Nat}
    (lesserPositive : 0 < lesserUnder) (greaterPositive : 0 < greaterUnder)
    (ordered : lesser * greaterUnder ≤ greater * lesserUnder) :
    nearestRank lesser lesserUnder ≤ nearestRank greater greaterUnder := by
  rw [← nearestRank_mul_right lesser lesserUnder greaterPositive,
    ← nearestRank_mul_right greater greaterUnder lesserPositive, Nat.mul_comm lesserUnder]
  exact nearestRank_mono_left (Nat.mul_pos greaterPositive lesserPositive) ordered

/-- A ratio below half of the finest step is rounded to zero. -/
private theorem nearestRank_tiny {numerator denominator : Nat}
    (tiny : 2 * (numerator * gridSteps) < denominator) : nearestRank numerator denominator = 0 := by
  have quotient : numerator * gridSteps / denominator = 0 := Nat.div_eq_of_lt (by omega)
  have remainder : numerator * gridSteps % denominator = numerator * gridSteps :=
    Nat.mod_eq_of_lt (by omega)
  have unscaled : denominator * Nat.pow 2 (coarsenings 0) = denominator := Nat.mul_one denominator
  rw [nearestRank_eq, quotient, unscaled, roundedQuotient]
  simp only [quotient, remainder, tiny, if_true]
  decide

/-- The exponent is given as a variable, so that no proof evaluates the power. -/
private theorem gridSteps_eq_pow : ∃ exponent, exponent = 1074 ∧ gridSteps = 2 ^ exponent := by
  unfold gridSteps
  generalize isGrid : 1074 = exponent
  exact ⟨exponent, rfl, Nat.pow_eq⟩

/-- A number this large is rounded to infinity or beyond. -/
private theorem infiniteRank_le_nearestRank {numerator exponent : Nat} (isLarge : 1025 ≤ exponent)
    (large : 2 ^ exponent ≤ numerator) : infiniteRank ≤ nearestRank numerator 1 := by
  obtain ⟨gridExponent, isGrid, gridSteps_eq⟩ := gridSteps_eq_pow
  have steps : 2 ^ (exponent + gridExponent) ≤ numerator * gridSteps := by
    rw [Nat.pow_add, gridSteps_eq]
    exact Nat.mul_le_mul_right _ large
  have nonzero : numerator * gridSteps ≠ 0 := by
    have := Nat.two_pow_pos (exponent + gridExponent)
    omega
  have long : 2047 ≤ coarsenings (numerator * gridSteps) := by
    have := (Nat.le_log2 nonzero).mpr steps
    unfold coarsenings
    omega
  rw [nearestRank_eq, Nat.div_one]
  exact Nat.le_trans (Nat.mul_le_mul_right binade long) (Nat.le_add_right _ _)

namespace Decimal

/-- The value of a decimal is this number … -/
def numerator (decimal : Decimal) : Nat := decimal.coefficient * 10 ^ decimal.exponent.toNat

/-- … divided by this one. -/
def denominator (decimal : Decimal) : Nat := 10 ^ (-decimal.exponent).toNat

/-- No decimal is a fraction over nothing. -/
theorem denominator_pos (decimal : Decimal) : 0 < decimal.denominator :=
  Nat.pow_pos (by decide)

/-- A decimal without a positive exponent is its coefficient over a power of ten. -/
theorem numerator_of_nonpos {decimal : Decimal} (isFraction : decimal.exponent ≤ 0) :
    decimal.numerator = decimal.coefficient := by
  rw [numerator, Int.toNat_of_nonpos isFraction, Nat.pow_zero, Nat.mul_one]

/-- A decimal without a negative exponent is a whole number. -/
theorem denominator_of_nonneg {decimal : Decimal} (isWhole : 0 ≤ decimal.exponent) :
    decimal.denominator = 1 := by
  rw [denominator, Int.toNat_of_nonpos (Int.neg_nonpos_of_nonneg isWhole), Nat.pow_zero]

/-- Ten to a large power is beyond a power of two that is easy to compare with. -/
private theorem ten_pow_large (blocks : Nat) :
    2 ^ (33 * blocks + 2) ≤ 10 ^ (10 * blocks + 1) := by
  rw [Nat.pow_add, Nat.pow_mul, Nat.pow_add, Nat.pow_mul]
  exact Nat.mul_le_mul (Nat.pow_le_pow_left (by decide) blocks) (by decide)

/-- A decimal with a large exponent is beyond all finite ranks. -/
private theorem large_numerator {decimal : Decimal} (nonzero : decimal.coefficient ≠ 0)
    (large : 310 < decimal.exponent) : infiniteRank ≤ nearestRank decimal.numerator 1 := by
  -- A variable here too: the power would be evaluated.
  obtain ⟨blocks, isLarge⟩ : ∃ blocks, blocks = 31 := ⟨31, rfl⟩
  have power : 2 ^ (33 * blocks + 2) ≤ decimal.numerator :=
    calc 2 ^ (33 * blocks + 2) ≤ 10 ^ (10 * blocks + 1) := ten_pow_large blocks
      _ ≤ 10 ^ decimal.exponent.toNat := Nat.pow_le_pow_right (by decide) (by omega)
      _ ≤ decimal.numerator := Nat.le_mul_of_pos_left _ (Nat.pos_of_ne_zero nonzero)
  exact infiniteRank_le_nearestRank (by omega) power

/-- A decimal with a very negative exponent is below half a step of the finest grid. -/
private theorem tiny_numerator {decimal : Decimal}
    (tiny : decimal.exponent < -(decimal.coefficient.log2 + 400 : Nat)) :
    2 * (decimal.numerator * gridSteps) < decimal.denominator := by
  obtain ⟨gridExponent, isGrid, gridSteps_eq⟩ := gridSteps_eq_pow
  have same : decimal.numerator = decimal.coefficient := numerator_of_nonpos (by omega)
  have below : decimal.coefficient < 2 ^ (decimal.coefficient.log2 + 1) := Nat.lt_log2_self
  calc 2 * (decimal.numerator * gridSteps)
      < 2 ^ 1 * (2 ^ (decimal.coefficient.log2 + 1) * gridSteps) := by
        rw [same]
        exact Nat.mul_lt_mul_of_pos_left (Nat.mul_lt_mul_of_pos_right below gridSteps_pos)
          (by decide)
    _ = 2 ^ (1 + (decimal.coefficient.log2 + 1 + gridExponent)) := by
        rw [gridSteps_eq, ← Nat.pow_add, ← Nat.pow_add]
    _ ≤ 2 ^ (3 * (decimal.coefficient.log2 + 401)) :=
        Nat.pow_le_pow_right (by decide) (by omega)
    _ = (2 ^ 3) ^ (decimal.coefficient.log2 + 401) := Nat.pow_mul 2 3 _
    _ ≤ 10 ^ (decimal.coefficient.log2 + 401) := Nat.pow_le_pow_left (by decide) _
    _ ≤ decimal.denominator := Nat.pow_le_pow_right (by decide) (by omega)

/-- As far as a double can tell, the rank of a decimal is that of its value. -/
theorem min_rank (decimal : Decimal) :
    min decimal.rank infiniteRank =
      min (nearestRank decimal.numerator decimal.denominator) infiniteRank := by
  unfold rank
  split
  next isZero =>
    have noValue : decimal.numerator = 0 := by rw [numerator, isZero, Nat.zero_mul]
    have tiny : 2 * (decimal.numerator * gridSteps) < decimal.denominator := by
      rw [noValue, Nat.zero_mul]
      exact decimal.denominator_pos
    rw [nearestRank_tiny tiny]
  next nonzero =>
    split
    next large =>
      have whole : decimal.denominator = 1 := denominator_of_nonneg (by omega)
      rw [whole, Nat.min_self, Nat.min_eq_right (large_numerator nonzero large)]
    next =>
      split
      next tiny => rw [nearestRank_tiny (tiny_numerator tiny)]
      next =>
        split
        next isWhole =>
          rw [denominator_of_nonneg isWhole]
          rfl
        next isFraction =>
          rw [numerator_of_nonpos (Int.le_of_not_le isFraction)]
          rfl

/-- As far as a double can tell, decimals are ranked in the order of their values. -/
theorem min_rank_mono {lesser greater : Decimal}
    (ordered : lesser.numerator * greater.denominator ≤ greater.numerator * lesser.denominator) :
    min lesser.rank infiniteRank ≤ min greater.rank infiniteRank := by
  have nearest := nearestRank_mono lesser.denominator_pos greater.denominator_pos ordered
  rw [min_rank, min_rank]
  omega

/-- Zeros at the end of the coefficient can be counted in the exponent instead. -/
theorem min_rank_shift (coefficient zeros : Nat) (exponent : Int) :
    min (rank ⟨coefficient * 10 ^ zeros, exponent⟩) infiniteRank =
      min (rank ⟨coefficient, exponent + zeros⟩) infiniteRank := by
  have cross : numerator ⟨coefficient * 10 ^ zeros, exponent⟩ *
      denominator ⟨coefficient, exponent + zeros⟩ =
      numerator ⟨coefficient, exponent + zeros⟩ *
        denominator ⟨coefficient * 10 ^ zeros, exponent⟩ := by
    simp only [numerator, denominator, Nat.mul_assoc, ← Nat.pow_add]
    congr 2
    omega
  rw [min_rank, min_rank,
    nearestRank_congr (denominator_pos _) (denominator_pos _) cross]

/-- A decimal with places behind the point has its digits as its numerator. -/
private theorem numerator_places (units places : Nat) :
    numerator ⟨units, -(places : Int)⟩ = units :=
  numerator_of_nonpos (Int.neg_nonpos_of_nonneg (Int.natCast_nonneg places))

/-- A decimal with places behind the point has a power of ten as its denominator. -/
private theorem denominator_places (units places : Nat) :
    denominator ⟨units, -(places : Int)⟩ = 10 ^ places := by
  rw [denominator, show (-(-(places : Int))).toNat = places by omega]

/-- The decimal that gives a double in full reads back as this double. -/
theorem rank_full {rank : Nat} (isFinite : rank < infiniteRank) :
    Decimal.rank ⟨decimalUnits rank, -(fullPlaces rank : Int)⟩ = rank := by
  have cross : numerator ⟨decimalUnits rank, -(fullPlaces rank : Int)⟩ * gridSteps =
      scaled rank * denominator ⟨decimalUnits rank, -(fullPlaces rank : Int)⟩ := by
    obtain ⟨gridExponent, isGrid, gridSteps_eq⟩ := gridSteps_eq_pow
    have exponents :
        doublings rank - 1074 + gridExponent = doublings rank + fullPlaces rank := by
      unfold fullPlaces
      omega
    have tens : 10 ^ fullPlaces rank = 2 ^ fullPlaces rank * 5 ^ fullPlaces rank :=
      Nat.mul_pow 2 5 _
    have twos : 2 ^ (doublings rank - 1074) * 2 ^ gridExponent =
        2 ^ doublings rank * 2 ^ fullPlaces rank := by
      rw [← Nat.pow_add, exponents, Nat.pow_add]
    rw [numerator_places, denominator_places, decimalUnits, scaled, tens, gridSteps_eq]
    simp only [Nat.pow_eq]
    generalize 2 ^ (doublings rank - 1074) = excess at twos ⊢
    calc significand rank * excess * 5 ^ fullPlaces rank * 2 ^ gridExponent
        = significand rank * (excess * 2 ^ gridExponent) * 5 ^ fullPlaces rank := by ac_rfl
      _ = significand rank * 2 ^ doublings rank *
            (2 ^ fullPlaces rank * 5 ^ fullPlaces rank) := by rw [twos]; ac_rfl
  have nearest := min_rank ⟨decimalUnits rank, -(fullPlaces rank : Int)⟩
  rw [nearestRank_congr (denominator_pos _) gridSteps_pos cross, nearestRank_scaled] at nearest
  omega

end Decimal

/-- Every cut of the digits that is taken reads back. -/
private theorem coarsest_rank {rank units : Nat} {unit : Int}
    (full : Decimal.rank ⟨units, unit⟩ = rank) (places : Nat) :
    (coarsest rank unit units places).rank = rank := by
  induction places with
  | zero => exact full
  | succ places inductionHypothesis =>
    rw [coarsest]
    cases found : readsBack? rank unit units places with
    | none => exact inductionHypothesis
    | some decimal =>
      simp only [readsBack?] at found
      split at found
      next same => exact Option.some.inj found ▸ same
      next =>
        split at found
        next same => exact Option.some.inj found ▸ same
        next => cases found

/-- The shortest decimal of a double reads back as this double. -/
theorem shortest_rank {rank : Nat} (isFinite : rank < infiniteRank) :
    (shortest rank).rank = rank :=
  coarsest_rank (Decimal.rank_full isFinite) _

end LoxLang.Number
