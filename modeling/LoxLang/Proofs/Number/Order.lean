import Mathlib
import LoxLang.Proofs.Number.Bits

/-!
# The order of doubles

Doubles are ordered as their ranks, those of negative doubles counted downwards from zero. So a
comparison of doubles is a comparison of whole numbers.
-/

namespace LoxLang.Number

open Float.Model Float.Model.UnpackedFloat

/-! ## The parts of a rank -/

/-- A rank is given by how often the significand is doubled and by the significand, which has its
leading bit if it is doubled at all. -/
theorem rank_parts (rank : Nat) :
    rank = doublings rank * binade + significand rank ∧ significand rank < 2 * binade ∧
      (0 < doublings rank → binade ≤ significand rank) := by
  have isBinade : binade = 0x10000000000000 := rfl
  unfold doublings significand
  rw [isBinade]
  split <;> omega

/-- Ranks are compared by their doublings first and then by their significands. -/
theorem compare_parts (rank other : Nat) (shift : Int) :
    (compare (doublings rank - shift) (doublings other - shift)).then
      (compare (significand rank) (significand other)) = compare (rank : Int) other := by
  have isBinade : binade = 0x10000000000000 := rfl
  obtain ⟨whole, fits, leads⟩ := rank_parts rank
  obtain ⟨otherWhole, otherFits, otherLeads⟩ := rank_parts other
  rw [isBinade] at whole fits leads otherWhole otherFits otherLeads
  rcases lt_trichotomy (doublings rank) (doublings other) with fewer | same | more
  · have below : (rank : Int) < other := by omega
    have shifted : (doublings rank : Int) - shift < doublings other - shift := by omega
    rw [compare_lt_iff_lt.mpr below, compare_lt_iff_lt.mpr shifted]
    rfl
  · rw [same, compare_eq_iff_eq.mpr rfl, Ordering.eq_then]
    rcases lt_trichotomy (significand rank) (significand other) with less | equal | greater
    · rw [compare_lt_iff_lt.mpr less, eq_comm, compare_lt_iff_lt]
      omega
    · rw [compare_eq_iff_eq.mpr equal, eq_comm, compare_eq_iff_eq]
      omega
    · rw [compare_gt_iff_gt.mpr greater, eq_comm, compare_gt_iff_gt]
      omega
  · have above : (rank : Int) > other := by omega
    have shifted : (doublings rank : Int) - shift > doublings other - shift := by omega
    rw [compare_gt_iff_gt.mpr above, compare_gt_iff_gt.mpr shifted]
    rfl

/-! ## Doubles taken apart -/

/-- The sign bit as a sign. -/
def signOf (negative : Bool) : Sign := if negative then .negative else .positive

/-- How a double with this sign and rank is taken apart. -/
inductive Unpacks (negative : Bool) : Nat → UnpackedFloat → Prop where
  | zero : Unpacks negative 0 (.zero (signOf negative))
  | finite {rank mantissa : Nat} {exponent : Int} (isFinite : rank < infiniteRank)
      (nonzero : rank ≠ 0) (positive : 0 < mantissa)
      (isSignificand : mantissa = significand rank)
      (isExponent : exponent = doublings rank - 1074) :
      Unpacks negative rank (.finite (signOf negative) mantissa exponent positive)
  | infinity : Unpacks negative infiniteRank (.infinity (signOf negative))

/-- The sign is told by the highest bit. -/
private theorem sign_of_bits (bits : BitVec Format.binary64.numBits) :
    Sign.ofBitVec (unpackSign bits) = signOf (decide (signWeight ≤ bits.toNat)) := by
  have isWeight : signWeight = 0x8000000000000000 := rfl
  have signValue : (unpackSign bits).toNat = bits.toNat / 2 ^ 63 % 2 := by
    simp [unpackSign, Nat.shiftRight_eq_div_pow]
  have bound : bits.toNat < 2 ^ 64 := bits.isLt
  have isBit : unpackSign bits = 0#1 ↔ ¬ signWeight ≤ bits.toNat := by
    rw [← BitVec.toNat_inj, signValue, isWeight]
    change bits.toNat / 2 ^ 63 % 2 = 0 ↔ _
    omega
  by_cases large : signWeight ≤ bits.toNat
  · rw [Sign.ofBitVec, if_neg (fun isZero => isBit.mp isZero large), decide_eq_true large]
    rfl
  · rw [Sign.ofBitVec, if_pos (isBit.mpr large), decide_eq_false large]
    rfl

/-- The fields of a double are its sign and the parts of its rank. -/
structure HasFields (bits : BitVec Format.binary64.numBits) (negative : Bool) (rank : Nat) :
    Prop where
  sign : Sign.ofBitVec (unpackSign bits) = signOf negative
  exponent : (unpackExponent bits).toNat = rank / binade
  mantissa : (unpackMantissa bits).toNat = rank % binade

/-- The bits of a double with a sign are that sign, with its rank below. -/
theorem hasFields_of_shape {number : Float} {negative : Bool} {rank : Nat}
    (isShape : shape number = .signed negative rank) :
    HasFields number.toModel.toBits.toBitVec negative rank := by
  have inside := (eq_ofRank_of_shape isShape).2
  simp only [shape] at isShape
  split at isShape
  next => cases isShape
  next =>
    obtain ⟨isNegative, isRank⟩ := Shape.signed.inj isShape
    obtain ⟨⟨⟨bits⟩, valid⟩⟩ := number
    change decide (signWeight ≤ bits.toNat) = negative at isNegative
    change bits.toNat % 0x8000000000000000 = rank at isRank
    change rank ≤ 0x7FF0000000000000 at inside
    have exponentValue := unpackExponent_toNat bits
    have mantissaValue := unpackMantissa_toNat bits
    refine ⟨isNegative ▸ sign_of_bits bits, ?_, ?_⟩
    · change (@unpackExponent Format.binary64 bits).toNat = rank / 0x10000000000000
      omega
    · change (@unpackMantissa Format.binary64 bits).toNat = rank % 0x10000000000000
      omega

/-- A double whose bits are a sign and a rank is unpacked as such. -/
theorem HasFields.unpacks {bits : BitVec Format.binary64.numBits} {negative : Bool} {rank : Nat}
    (fields : HasFields bits negative rank) (inside : rank ≤ infiniteRank) :
    Unpacks negative rank (UnpackedFloat.unpack Format.binary64 bits) := by
  obtain ⟨isSign, isExponent, isMantissa⟩ := fields
  have isInfinite : infiniteRank = 0x7FF0000000000000 := rfl
  have isBinade : binade = 0x10000000000000 := rfl
  rw [isBinade] at isExponent isMantissa
  have bias : (Format.binary64.exponentBias + Format.binary64.mantissaBitsWithoutImplicit : Int) =
      1075 := rfl
  unfold UnpackedFloat.unpack
  dsimp only
  rw [isSign]
  split
  next isAll =>
    have isLast : (unpackExponent bits).toNat = 2047 := congrArg BitVec.toNat isAll
    split
    next isZero =>
      have isWhole : (unpackMantissa bits).toNat = 0 := congrArg BitVec.toNat isZero
      obtain rfl : infiniteRank = rank := by omega
      exact .infinity
    next isNonzero =>
      have hasFraction : (unpackMantissa bits).toNat ≠ 0 :=
        fun isZero => isNonzero (BitVec.eq_of_toNat_eq isZero)
      omega
  next notAll =>
    have notLast : (unpackExponent bits).toNat ≠ 2047 :=
      fun isLast => notAll (BitVec.eq_of_toNat_eq isLast)
    have isFinite : rank < infiniteRank := by omega
    split
    next isNone =>
      have isFirst : (unpackExponent bits).toNat = 0 := congrArg BitVec.toNat isNone
      split
      next isZero =>
        have isWhole : (unpackMantissa bits).toNat = 0 := congrArg BitVec.toNat isZero
        obtain rfl : 0 = rank := by omega
        exact .zero
      next isNonzero =>
        have hasFraction : (unpackMantissa bits).toNat ≠ 0 :=
          fun isZero => isNonzero (BitVec.eq_of_toNat_eq isZero)
        refine .finite isFinite (by omega) _ ?_ ?_
        · rw [significand, isBinade, if_pos (by omega)]
          omega
        · rw [doublings, isBinade, bias]
          omega
    next isSome =>
      have notFirst : (unpackExponent bits).toNat ≠ 0 :=
        fun isFirst => isSome (BitVec.eq_of_toNat_eq isFirst)
      refine .finite isFinite (by omega) _ ?_ ?_
      · rw [significand, isBinade, if_neg (by omega), ← isMantissa, BitVec.toNat_append,
          ← Nat.shiftLeft_add_eq_or_of_lt (BitVec.isLt _), Nat.add_comm]
        rfl
      · rw [doublings, isBinade, bias]
        omega

/-- Doubles are taken apart by their shapes. -/
theorem unpacks_of_shape {number : Float} {negative : Bool} {rank : Nat}
    (isShape : shape number = .signed negative rank) :
    Unpacks negative rank number.toModel.unpack :=
  (hasFields_of_shape isShape).unpacks (eq_ofRank_of_shape isShape).2

/-- What is no number is unpacked as such. -/
theorem unpack_notANumber : notANumber.toModel.unpack = .notANumber :=
  rfl

/-! ## Comparisons -/

/-- The place of a double among all doubles: its rank, on the side of its sign. -/
def place (negative : Bool) (rank : Nat) : Int := if negative then -rank else rank

section Places

variable {negative otherNegative : Bool} {rank otherRank : Nat}

/-- A positive double stands at its rank. -/
@[simp] theorem place_false : place false rank = rank := rfl

/-- A negative double stands below zero by its rank. -/
@[simp] theorem place_true : place true rank = -rank := rfl

/-- Of two doubles the one with the greater rank settles the order by its sign. -/
private theorem compare_place_of_lt (less : rank < otherRank) :
    compare (place negative rank) (place otherNegative otherRank) =
      if otherNegative then .gt else .lt := by
  cases otherNegative with
  | false =>
    refine compare_lt_iff_lt.mpr ?_
    cases negative <;> simp only [place_false, place_true] <;> omega
  | true =>
    refine compare_gt_iff_gt.mpr ?_
    cases negative <;> simp only [place_false, place_true] <;> omega

/-- Places compare by the larger rank where that is on the left. -/
private theorem compare_place_of_gt (greater : otherRank < rank) :
    compare (place negative rank) (place otherNegative otherRank) =
      if negative then .lt else .gt := by
  rw [Std.OrientedOrd.eq_swap, compare_place_of_lt greater]
  cases negative <;> rfl

/-- Places on one side of zero compare as their ranks, or the other way on the negative side. -/
private theorem compare_place_of_eq_sign :
    compare (place negative rank) (place negative otherRank) =
      if negative then (compare (rank : Int) otherRank).swap
      else compare (rank : Int) otherRank := by
  cases negative with
  | false => rfl
  | true =>
    rw [if_pos rfl, ← Std.OrientedOrd.eq_swap, place_true, place_true]
    rcases lt_trichotomy rank otherRank with less | rfl | greater
    · rw [compare_gt_iff_gt.mpr (by omega), compare_gt_iff_gt.mpr (by omega)]
    · rw [compare_eq_iff_eq.mpr rfl, compare_eq_iff_eq.mpr rfl]
    · rw [compare_lt_iff_lt.mpr (by omega), compare_lt_iff_lt.mpr (by omega)]

/-- A place that is not zero compares with one on the other side by its sign. -/
private theorem compare_place_opposite (nonzero : rank ≠ 0) :
    compare (place negative rank) (place (!negative) otherRank) =
      if negative then .lt else .gt := by
  cases negative with
  | false =>
    refine compare_gt_iff_gt.mpr ?_
    simp only [place_false, place_true, Bool.not_false]
    omega
  | true =>
    refine compare_lt_iff_lt.mpr ?_
    simp only [place_false, place_true, Bool.not_true]
    omega

/-- Doubles are compared by their places. -/
theorem Unpacks.compare_eq {unpacked other : UnpackedFloat}
    (unpacks : Unpacks negative rank unpacked)
    (otherUnpacks : Unpacks otherNegative otherRank other) :
    unpacked.compare other =
      some (compare (place negative rank) (place otherNegative otherRank)) := by
  have infinite : 0 < infiniteRank := by decide
  cases unpacks with
  | zero =>
    cases otherUnpacks with
    | zero => cases negative <;> cases otherNegative <;> rfl
    | finite _ nonzero =>
      rw [compare_place_of_lt (Nat.pos_of_ne_zero nonzero)]
      cases otherNegative <;> rfl
    | infinity =>
      rw [compare_place_of_lt infinite]
      cases otherNegative <;> rfl
  | finite isFinite nonzero _ isSignificand isExponent =>
    cases otherUnpacks with
    | zero =>
      rw [compare_place_of_gt (Nat.pos_of_ne_zero nonzero)]
      cases negative <;> rfl
    | finite otherFinite _ _ otherSignificand otherExponent =>
      by_cases same : otherNegative = negative
      · rw [same, compare_place_of_eq_sign, ← compare_parts rank otherRank 1074,
          ← isSignificand, ← isExponent, ← otherSignificand, ← otherExponent]
        cases negative <;> rfl
      · rw [Bool.eq_not_of_ne same, compare_place_opposite nonzero]
        cases negative <;> rfl
    | infinity =>
      rw [compare_place_of_lt isFinite]
      cases negative <;> cases otherNegative <;> rfl
  | infinity =>
    cases otherUnpacks with
    | zero =>
      rw [compare_place_of_gt infinite]
      cases negative <;> rfl
    | finite otherFinite _ =>
      rw [compare_place_of_gt otherFinite]
      cases negative <;> cases otherNegative <;> rfl
    | infinity =>
      by_cases same : otherNegative = negative
      · rw [same, compare_place_of_eq_sign, compare_eq_iff_eq.mpr rfl]
        cases negative <;> rfl
      · rw [Bool.eq_not_of_ne same, compare_place_opposite (Nat.ne_of_gt infinite)]
        cases negative <;> rfl

/-- The order of doubles is that of their places. -/
theorem le_iff_of_shape {number other : Float} (isShape : shape number = .signed negative rank)
    (otherShape : shape other = .signed otherNegative otherRank) :
    number ≤ other ↔ place negative rank ≤ place otherNegative otherRank := by
  have compared := (unpacks_of_shape isShape).compare_eq (unpacks_of_shape otherShape)
  have isLe : number ≤ other ↔
      (number.toModel.unpack.compare other.toModel.unpack).any (·.isLE) = true :=
    decide_eq_true_iff
  rw [isLe, compared, Option.any_some, Ordering.isLE_iff_ne_gt]
  exact (not_congr compare_gt_iff_gt).trans not_lt

/-- The order of doubles is that of their places, strictly too. -/
theorem lt_iff_of_shape {number other : Float} (isShape : shape number = .signed negative rank)
    (otherShape : shape other = .signed otherNegative otherRank) :
    number < other ↔ place negative rank < place otherNegative otherRank := by
  have compared := (unpacks_of_shape isShape).compare_eq (unpacks_of_shape otherShape)
  have isLt : number < other ↔
      number.toModel.unpack.compare other.toModel.unpack = some .lt :=
    decide_eq_true_iff.trans beq_iff_eq
  rw [isLt, compared, Option.some_inj, compare_lt_iff_lt]

end Places

/-- Nothing is at most what is no number. -/
theorem not_le_notANumber (number : Float) : ¬ number ≤ notANumber := by
  intro isLe
  have compared : (number.toModel.unpack.compare notANumber.toModel.unpack).any (·.isLE) = true :=
    decide_eq_true_iff.mp isLe
  have incomparable (unpacked : UnpackedFloat) : unpacked.compare .notANumber = none := by
    cases unpacked <;> rfl
  rw [unpack_notANumber, incomparable] at compared
  cases compared

/-- Between positive doubles there are positive doubles only, and their ranks are between. -/
theorem shape_between {low number high : Float} {lowRank highRank : Nat}
    (lowShape : shape low = .signed false lowRank) (highShape : shape high = .signed false highRank)
    (positive : 0 < lowRank) (least : low ≤ number) (past : number < high) :
    ∃ rank, shape number = .signed false rank ∧ lowRank ≤ rank ∧ rank < highRank := by
  cases isShape : shape number with
  | notANumber =>
    rw [eq_notANumber_of_shape isShape] at least
    exact absurd least (not_le_notANumber low)
  | signed negative rank =>
    rw [le_iff_of_shape lowShape isShape] at least
    rw [lt_iff_of_shape isShape highShape] at past
    cases negative with
    | false => exact ⟨rank, rfl, Int.ofNat_le.mp least, Int.ofNat_lt.mp past⟩
    | true =>
      rw [place_false, place_true] at least
      omega

end LoxLang.Number
