import Mathlib
import LoxLang.Proofs.Evaluation.View

/-!
# Equality of values

Equality is an equivalence that keeps types apart. On numbers it is that of IEEE doubles, except
that what is not a number equals itself, and on callables it is identity. The operators `==` and
`!=` tell it and never fail.
-/

namespace LoxLang

open BigStep

/-! ## Equality of doubles -/

section Numbers

variable {left right : Float}

/-- What equals anything as a double is a number. -/
theorem isNaN_of_beq (equal : (left == right) = true) :
    left.isNaN = false ∧ right.isNaN = false := by
  obtain ⟨leftNumber, rightNumber, -⟩ := Float.beq_iff_ne_nan_and_eq.mp equal
  rw [Float.isNaN_eq_decide_eq_nan, Float.isNaN_eq_decide_eq_nan]
  exact ⟨decide_eq_false leftNumber, decide_eq_false rightNumber⟩

/-- Every number is equal to itself. -/
theorem beq_self_of_isNaN (isNumber : left.isNaN = false) : (left == left) = true := by
  rw [Float.isNaN_eq_decide_eq_nan] at isNumber
  exact Float.beq_self_iff.mpr (of_decide_eq_false isNumber)

/-- Among the doubles that are numbers, the equality of IEEE doubles is an equivalence. -/
theorem beq_equivalence :
    Equivalence fun left right : {number : Float // number.isNaN = false} =>
      (left.val == right.val) = true where
  refl number := beq_self_of_isNaN number.property
  symm equal := PartialEquivBEq.symm equal
  trans equal equalToo := PartialEquivBEq.trans equal equalToo

end Numbers

/-! ## Equality of values -/

namespace BigStep.Same

variable {left middle right : Value}

/-- Every value is the same as itself. -/
protected theorem refl (value : Value) : Same value value := by
  cases value with
  | nil => exact .nil
  | bool value => exact .bool value
  | number value =>
    cases isNumber : value.isNaN with
    | false => exact .number (beq_self_of_isNaN isNumber)
    | true => exact .noNumber isNumber isNumber
  | text value => exact .text value
  | callable value => exact .callable rfl

/-- Sameness does not depend on the order. -/
protected theorem symm (same : Same left right) : Same right left := by
  cases same with
  | nil => exact .nil
  | bool value => exact .bool value
  | number equal => exact .number (PartialEquivBEq.symm equal)
  | noNumber noLeft noRight => exact .noNumber noRight noLeft
  | text value => exact .text value
  | callable identical => exact .callable identical.symm

/-- Sameness carries over. -/
protected theorem trans (same : Same left middle) (sameToo : Same middle right) :
    Same left right := by
  cases same with
  | nil | bool | text => exact sameToo
  | number equal =>
    cases sameToo with
    | number equalToo => exact .number (PartialEquivBEq.trans equal equalToo)
    | noNumber noMiddle => cases noMiddle.symm.trans (isNaN_of_beq equal).2
  | noNumber noLeft noMiddle =>
    cases sameToo with
    | number equalToo => cases noMiddle.symm.trans (isNaN_of_beq equalToo).1
    | noNumber _ noRight => exact .noNumber noLeft noRight
  | callable identical =>
    cases sameToo with
    | callable identicalToo => exact .callable (identical.trans identicalToo)

end BigStep.Same

/-- The types of values. -/
inductive ValueType where
  | nil
  | bool
  | number
  | text
  | callable
deriving DecidableEq, Repr

namespace Value

/-- The type of a value. -/
def type : Value → ValueType
  | nil => .nil
  | bool _ => .bool
  | number _ => .number
  | text _ => .text
  | callable _ => .callable

/-- Values that are the same have the same type. -/
theorem type_eq_of_same {left right : Value} (same : Same left right) : left.type = right.type := by
  cases same <;> rfl

/-- Equality of values is a lawful one, whatever the values. -/
structure LawfulEquality : Prop where
  equivalence : Equivalence fun left right : Value => left.equals right = true
  /-- Values of different types differ. -/
  sameType : ∀ left right : Value, left.equals right = true → left.type = right.type
  /-- What is not a number equals itself, and no number. -/
  noNumber : ∀ left right : Float, left.isNaN = true →
    (number left).equals (number right) = right.isNaN
  /-- Numbers are equal as doubles are. -/
  numbers : ∀ left right : Float, left.isNaN = false → right.isNaN = false →
    (number left).equals (number right) = (left == right)
  doubles : Equivalence fun left right : {number : Float // number.isNaN = false} =>
    (left.val == right.val) = true
  /-- The operator tells equality, and its negation tells the contrary. Neither fails. -/
  operator : ∀ (operator : Token) (left right : Value),
    (operator.kind = .equalEqual →
      Operator.binary operator left right = .ok (.bool (left.equals right))) ∧
    (operator.kind = .bangEqual →
      Operator.binary operator left right = .ok (.bool (!left.equals right)))

/-- Equality of values obeys the laws of equality. -/
theorem lawfulEquality : LawfulEquality where
  equivalence := {
    refl := fun value => same_iff.mp (.refl value)
    symm := fun equal => same_iff.mp (same_iff.mpr equal).symm
    trans := fun equal equalToo =>
      same_iff.mp ((same_iff.mpr equal).trans (same_iff.mpr equalToo)) }
  sameType _ _ equal := type_eq_of_same (same_iff.mpr equal)
  noNumber left right noLeft := by
    have differ : (left == right) = false :=
      Bool.eq_false_iff.mpr fun equal => Bool.eq_false_iff.mp (isNaN_of_beq equal).1 noLeft
    simp only [equals, sameNumber, differ, noLeft, Bool.true_and, Bool.false_or]
  numbers left right isLeft _ := by
    simp only [equals, sameNumber, isLeft, Bool.false_and, Bool.or_false]
  doubles := beq_equivalence
  operator operator left right := by
    constructor <;> intro isKind <;> simp only [Operator.binary, isKind]

end Value

end LoxLang
