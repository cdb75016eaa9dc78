import Mathlib
import LoxLang.Number.Binary64

/-!
# Doubles and their bits

A double is its bits, and of all the bit patterns that are no number only one is a double. Hence the
shape of a double tells which double it is.
-/

namespace LoxLang.Number

open Float.Model Float.Model.UnpackedFloat

/-- The exponent stands behind the fraction, in eleven bits. -/
theorem unpackExponent_toNat (bits : BitVec Format.binary64.numBits) :
    (unpackExponent bits).toNat = bits.toNat / 2 ^ 52 % 2 ^ 11 := by
  simp [unpackExponent, Nat.shiftRight_eq_div_pow]

/-- The fraction stands in the lowest bits. -/
theorem unpackMantissa_toNat (bits : BitVec Format.binary64.numBits) :
    (unpackMantissa bits).toNat = bits.toNat % 2 ^ 52 := by
  simp [unpackMantissa]

/-- Only one double is not a number. -/
theorem eq_notANumber_of_shape {number : Float} (isShape : shape number = .notANumber) :
    number = notANumber := by
  have beyond : infiniteRank < number.toBits.toNat % signWeight := by
    simp only [shape] at isShape
    split at isShape
    next beyond => exact beyond
    next => cases isShape
  obtain ⟨⟨⟨bits⟩, valid⟩⟩ := number
  change 0x7FF0000000000000 < bits.toNat % 0x8000000000000000 at beyond
  have exponentValue := unpackExponent_toNat bits
  have mantissaValue := unpackMantissa_toNat bits
  have isAll : @unpackExponent Format.binary64 bits = -1#_ := by
    apply BitVec.eq_of_toNat_eq
    change _ = 2047
    omega
  have notZero : @unpackMantissa Format.binary64 bits ≠ 0#_ := by
    intro isZero
    rw [isZero] at mantissaValue
    change 0 = _ at mantissaValue
    omega
  obtain rfl : bits = packedNaN Format.binary64 := valid.eq_packedNaN isAll notZero
  rfl

/-- A double is known by its sign and its rank, which is at most that of infinity. -/
theorem eq_ofRank_of_shape {number : Float} {negative : Bool} {rank : Nat}
    (isShape : shape number = .signed negative rank) :
    number = ofRank negative rank ∧ rank ≤ infiniteRank := by
  simp only [shape] at isShape
  split at isShape
  next => cases isShape
  next small =>
    obtain ⟨rfl, rfl⟩ := Shape.signed.inj isShape
    have inside := Nat.le_of_not_lt small
    refine ⟨?_, inside⟩
    have whole : number.toBits.toNat % signWeight +
        (if decide (signWeight ≤ number.toBits.toNat) = true then signWeight else 0) =
        number.toBits.toNat := by
      have bound : number.toBits.toNat < 2 * signWeight := number.toBits.toNat_lt
      simp only [decide_eq_true_eq]
      split
      next large => rw [Nat.mod_eq_sub_mod large, Nat.mod_eq_of_lt (by omega)]; omega
      next small => rw [Nat.mod_eq_of_lt (by omega)]; rfl
    rw [ofRank, Nat.min_eq_left inside, whole, UInt64.ofNat_toNat, Float.ofBits_toBits]

end LoxLang.Number
