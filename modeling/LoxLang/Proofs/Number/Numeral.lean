import LoxLang.Number.Layout
import LoxLang.Proofs.Number.Rounding

/-!
# Numerals

Number text in its parts: whole digits, fraction digits and an exponent. Every magnitude is written
as such a numeral, and the decimal that the parts stand for has the same double as the decimal that
was written.
-/

namespace LoxLang.Number

/-! ## Digits -/

/-- Digits have the value that the library gives them. -/
theorem ofDigits_eq (digits : List Char) : ofDigits digits = Nat.ofDigitChars 10 digits 0 := by
  simp only [ofDigits, digitsFrom, digitValue, Nat.ofDigitChars_eq_foldl, Nat.mul_comm 10]

/-- Digits in front of others have their value with the others' places behind it. -/
theorem ofDigits_append (front back : List Char) :
    ofDigits (front ++ back) = ofDigits front * 10 ^ back.length + ofDigits back := by
  rw [ofDigits_eq, ofDigits_eq, ofDigits_eq, Nat.ofDigitChars_append,
    Nat.ofDigitChars_eq_ofDigitChars_zero, Nat.mul_comm]

/-- Zeros have no value. -/
theorem ofDigits_zeros (count : Nat) : ofDigits (List.replicate count '0') = 0 := by
  rw [ofDigits_eq, Nat.ofDigitChars_replicate_zero, Nat.mul_zero]

/-- A zero is a digit. -/
private theorem isDigit_of_mem_zeros {count : Nat} {digit : Char}
    (isIn : digit ∈ List.replicate count '0') : isDigit digit = true := by
  rw [List.eq_of_mem_replicate isIn]
  rfl

/-- The digits of a number have that value. -/
theorem ofDigits_digits (number : Nat) : ofDigits (digits number) = number := by
  rw [ofDigits_eq, digits, Nat.ofDigitChars_ten_toDigits]

/-- The digits of a number are digits. -/
theorem isDigit_of_mem_digits {number : Nat} {digit : Char} (isIn : digit ∈ digits number) :
    isDigit digit = true :=
  Nat.isDigit_of_mem_toDigits (by decide) (by decide) isIn

/-- Only the number zero begins with a zero. -/
theorem digits_nonzero {number : Nat} (nonzero : number ≠ 0) :
    ∃ first rest, digits number = first :: rest ∧ first ≠ '0' := by
  induction number using Nat.strongRecOn with
  | ind number inductionHypothesis =>
    unfold digits
    by_cases small : number < 10
    · refine ⟨number.digitChar, [], Nat.toDigits_of_lt_base small, ?_⟩
      have figures : ∀ figure < 10, figure ≠ 0 → figure.digitChar ≠ '0' := by decide
      exact figures number small nonzero
    · obtain ⟨first, rest, isSplit, notZero⟩ :=
        inductionHypothesis (number / 10) (by omega) (by omega)
      refine ⟨first, rest ++ [(number % 10).digitChar], ?_, notZero⟩
      rw [Nat.toDigits_of_base_le (by decide) (by omega)]
      exact congrArg (· ++ _) isSplit

/-- Only zeros are cut off at the end. -/
private theorem cut_zeros (digits : List Char) :
    ∃ zeros, digits =
      (digits.reverse.dropWhile (· = '0')).reverse ++ List.replicate zeros '0' := by
  have isCut : digits.reverse.takeWhile (· = '0') ++ digits.reverse.dropWhile (· = '0') =
      digits.reverse := List.takeWhile_append_dropWhile
  have areZeros : (digits.reverse.takeWhile (· = '0')).reverse =
      List.replicate (digits.reverse.takeWhile (· = '0')).length '0' := by
    rw [List.eq_replicate_iff, List.length_reverse]
    refine ⟨rfl, fun digit isIn => ?_⟩
    have all := List.all_takeWhile (p := (· = '0')) (l := digits.reverse)
    simpa using List.all_eq_true.mp all digit (List.mem_reverse.mp isIn)
  refine ⟨(digits.reverse.takeWhile (· = '0')).length, ?_⟩
  rw [← areZeros, ← List.reverse_append, isCut, List.reverse_reverse]

/-- The figures of a magnitude do not begin with a zero; with the zeros that were cut off they give
the whole coefficient. -/
private theorem leading_eq {decimal : Decimal} (nonzero : decimal.coefficient ≠ 0) :
    ∃ first rest, ∃ zeros : Nat,
      leading decimal = (first :: rest, (rest.length : Int) + zeros + decimal.exponent) ∧
        first ≠ '0' ∧ (∀ digit ∈ first :: rest, isDigit digit = true) ∧
        decimal.coefficient = ofDigits (first :: rest) * 10 ^ zeros := by
  obtain ⟨first, others, isSplit, notZero⟩ := digits_nonzero nonzero
  obtain ⟨zeros, isCut⟩ := cut_zeros (digits decimal.coefficient)
  unfold leading
  generalize isFigures :
    ((digits decimal.coefficient).reverse.dropWhile (· = '0')).reverse = figures at isCut
  cases figures with
  | nil =>
    have isZero : first ∈ List.replicate zeros '0' := by
      rw [← List.nil_append (List.replicate zeros '0'), ← isCut, isSplit]
      exact List.mem_cons_self
    exact absurd (List.eq_of_mem_replicate isZero) notZero
  | cons figure rest =>
    have sameFirst : first = figure := (List.cons.inj (isSplit.symm.trans isCut)).1
    refine ⟨figure, rest, zeros, ?_, sameFirst ▸ notZero, fun digit isIn => ?_, ?_⟩
    · have length := congrArg List.length isCut
      simp only [List.length_append, List.length_cons, List.length_replicate] at length
      simp only [isFigures, Prod.mk.injEq, true_and]
      omega
    · exact isDigit_of_mem_digits (isCut ▸ List.mem_append_left _ isIn)
    · have whole := ofDigits_digits decimal.coefficient
      rw [isCut, ofDigits_append, ofDigits_zeros, List.length_replicate, Nat.add_zero] at whole
      exact whole.symm

/-- The number of digits tells between which powers of ten a number is. -/
theorem digits_bounds {number : Nat} (nonzero : number ≠ 0) :
    10 ^ ((digits number).length - 1) ≤ number ∧ number < 10 ^ (digits number).length := by
  have positive : 0 < (digits number).length := Nat.length_toDigits_pos
  constructor
  · by_cases single : (digits number).length = 1
    · rw [single]
      exact Nat.pos_of_ne_zero nonzero
    · have long : ¬ (digits number).length ≤ (digits number).length - 1 := by omega
      have past := mt (Nat.length_toDigits_le_iff (by decide) (by omega)).mpr long
      exact Nat.le_of_not_lt past
  · exact (Nat.length_toDigits_le_iff (by decide) positive).mp (Nat.le_refl _)

/-- A decimal whose first digit stands for this power of ten, or for a higher one, is ranked at or
above the power. -/
theorem rank_le_of_le_leading {decimal : Decimal} (nonzero : decimal.coefficient ≠ 0) {power : Int}
    (least : power ≤ (leading decimal).2) :
    min (Decimal.rank ⟨1, power⟩) infiniteRank ≤ min decimal.rank infiniteRank := by
  refine Decimal.min_rank_mono ?_
  have isPower : (leading decimal).2 =
      ((digits decimal.coefficient).length : Int) - 1 + decimal.exponent := rfl
  have positive : 0 < (digits decimal.coefficient).length := Nat.length_toDigits_pos
  simp only [Decimal.numerator, Decimal.denominator, Nat.one_mul]
  calc 10 ^ power.toNat * 10 ^ (-decimal.exponent).toNat
      = 10 ^ (power.toNat + (-decimal.exponent).toNat) := (Nat.pow_add 10 _ _).symm
    _ ≤ 10 ^ ((digits decimal.coefficient).length - 1 +
          (decimal.exponent.toNat + (-power).toNat)) :=
        Nat.pow_le_pow_right (by decide) (by omega)
    _ = 10 ^ ((digits decimal.coefficient).length - 1) *
          (10 ^ decimal.exponent.toNat * 10 ^ (-power).toNat) := by rw [Nat.pow_add, Nat.pow_add]
    _ ≤ decimal.coefficient * (10 ^ decimal.exponent.toNat * 10 ^ (-power).toNat) :=
        Nat.mul_le_mul_right _ (digits_bounds nonzero).1
    _ = decimal.coefficient * 10 ^ decimal.exponent.toNat * 10 ^ (-power).toNat :=
        (Nat.mul_assoc _ _ _).symm

/-- A decimal whose first digit stands for less than this power of ten is ranked at or below it. -/
theorem rank_le_of_leading_lt {decimal : Decimal} (nonzero : decimal.coefficient ≠ 0) {power : Int}
    (past : (leading decimal).2 < power) :
    min decimal.rank infiniteRank ≤ min (Decimal.rank ⟨1, power⟩) infiniteRank := by
  refine Decimal.min_rank_mono ?_
  have isPower : (leading decimal).2 =
      ((digits decimal.coefficient).length : Int) - 1 + decimal.exponent := rfl
  simp only [Decimal.numerator, Decimal.denominator, Nat.one_mul]
  calc decimal.coefficient * 10 ^ decimal.exponent.toNat * 10 ^ (-power).toNat
      = decimal.coefficient * (10 ^ decimal.exponent.toNat * 10 ^ (-power).toNat) :=
        Nat.mul_assoc _ _ _
    _ ≤ 10 ^ (digits decimal.coefficient).length *
          (10 ^ decimal.exponent.toNat * 10 ^ (-power).toNat) :=
        Nat.mul_le_mul_right _ (Nat.le_of_lt (digits_bounds nonzero).2)
    _ = 10 ^ ((digits decimal.coefficient).length +
          (decimal.exponent.toNat + (-power).toNat)) := by rw [Nat.pow_add, Nat.pow_add]
    _ ≤ 10 ^ (power.toNat + (-decimal.exponent).toNat) :=
        Nat.pow_le_pow_right (by decide) (by omega)
    _ = 10 ^ power.toNat * 10 ^ (-decimal.exponent).toNat := Nat.pow_add 10 _ _

/-! ## Parts -/

/-- An unsigned numeral in its parts: digits, digits behind a point, and an exponent. -/
structure Numeral where
  whole : List Char
  fraction : List Char
  exponent : Option Int

/-- Digits behind a point; without digits there is no point. -/
def pointed : List Char → List Char
  | [] => []
  | digit :: digits => '.' :: digit :: digits

/-- Digits are written behind a point, if there are any. -/
private theorem pointed_of_ne_nil {digits : List Char} (nonempty : digits ≠ []) :
    pointed digits = '.' :: digits := by
  cases digits with
  | nil => exact absurd rfl nonempty
  | cons digit digits => rfl

namespace Numeral

/-- The text of a numeral, with the exponent laid out. -/
def characters (layout : Layout) (numeral : Numeral) : List Char :=
  numeral.whole ++ pointed numeral.fraction ++
    (numeral.exponent.map layout.exponentText).getD []

/-- The decimal that a numeral stands for. -/
def value (numeral : Numeral) : Decimal :=
  .ofParts numeral.whole numeral.fraction (numeral.exponent.getD 0)

/-- The parts are made of digits, and a zero in front stands alone. -/
structure Proper (numeral : Numeral) : Prop where
  leads : ∃ first rest, numeral.whole = first :: rest ∧ (first = '0' → rest = [])
  wholeDigits : ∀ digit ∈ numeral.whole, isDigit digit = true
  fractionDigits : ∀ digit ∈ numeral.fraction, isDigit digit = true

/-- A numeral begins with a digit. -/
theorem Proper.begins {numeral : Numeral} (proper : numeral.Proper) (layout : Layout) :
    ∃ first rest, numeral.characters layout = first :: rest ∧ isDigit first = true := by
  obtain ⟨first, rest, isWhole, -⟩ := proper.leads
  refine ⟨first, _, by rw [characters, isWhole, List.append_assoc, List.cons_append], ?_⟩
  exact proper.wholeDigits first (isWhole ▸ List.mem_cons_self)

/-- The numeral is this text, and its double is that of the decimal. -/
structure Spells (numeral : Numeral) (layout : Layout) (text : List Char) (decimal : Decimal) :
    Prop where
  proper : numeral.Proper
  text_eq : text = numeral.characters layout
  sameRank : min numeral.value.rank infiniteRank = min decimal.rank infiniteRank

/-- A numeral that spells a decimal spells every other one that is rounded alike. -/
theorem Spells.ofSameRank {numeral : Numeral} {layout : Layout} {text : List Char}
    {decimal other : Decimal} (spells : numeral.Spells layout text decimal)
    (sameRank : min decimal.rank infiniteRank = min other.rank infiniteRank) :
    numeral.Spells layout text other :=
  ⟨spells.proper, spells.text_eq, spells.sameRank.trans sameRank⟩

end Numeral

namespace Layout

variable (layout : Layout) {first : Char} {rest : List Char}

/-- The text of an exponent is a mark, a sign and the digits of the magnitude. -/
theorem exponentText_eq (power : Int) :
    ∃ figures, layout.exponentText power = 'e' :: (if power < 0 then '-' else '+') :: figures ∧
      figures ≠ [] ∧ (∀ digit ∈ figures, isDigit digit = true) ∧
      ofDigits figures = power.natAbs := by
  refine ⟨_, rfl, ?_, ?_, ?_⟩
  · exact fun isNil => Nat.toDigits_ne_nil (List.append_eq_nil_iff.mp isNil).2
  · intro digit isIn
    rcases List.mem_append.mp isIn with isZero | isFigure
    · exact isDigit_of_mem_zeros isZero
    · exact isDigit_of_mem_digits isFigure
  · rw [ofDigits_append, ofDigits_zeros, ofDigits_digits]
    omega

/-- A numeral is written with digits, a point, and the marks of an exponent. -/
theorem mem_characters {numeral : Numeral} (proper : numeral.Proper) {character : Char}
    (isIn : character ∈ numeral.characters layout) :
    isDigit character = true ∨ character ∈ ['.', 'e', '+', '-'] := by
  rcases List.mem_append.mp isIn with isIn | isExponent
  · rcases List.mem_append.mp isIn with isWhole | isFraction
    · exact .inl (proper.wholeDigits character isWhole)
    · have fractionDigits := proper.fractionDigits
      cases isSplit : numeral.fraction with
      | nil =>
        rw [isSplit] at isFraction
        cases isFraction
      | cons digit digits =>
        rw [isSplit] at isFraction fractionDigits
        rcases List.mem_cons.mp isFraction with isPoint | isFigure
        · rw [isPoint]
          exact .inr (by decide)
        · exact .inl (fractionDigits character isFigure)
  · cases isPower : numeral.exponent with
    | none =>
      rw [isPower] at isExponent
      cases isExponent
    | some power =>
      obtain ⟨figures, isText, -, areDigits, -⟩ := layout.exponentText_eq power
      rw [isPower, Option.map_some, Option.getD_some, isText] at isExponent
      rcases List.mem_cons.mp isExponent with isMark | isExponent
      · rw [isMark]
        exact .inr (by decide)
      · rcases List.mem_cons.mp isExponent with isSign | isFigure
        · rw [isSign]
          split <;> exact .inr (by decide)
        · exact .inl (areDigits character isFigure)

/-- Digits with an exponent spell their value. -/
private theorem scientific_spelled
    (areDigits : ∀ digit ∈ first :: rest, isDigit digit = true) (power : Int) :
    Numeral.Spells ⟨[first], rest, some power⟩ layout (layout.scientific (first :: rest) power)
      ⟨ofDigits (first :: rest), power - rest.length⟩ where
  proper := {
    leads := ⟨first, [], rfl, fun _ => rfl⟩
    wholeDigits := by simpa using areDigits first List.mem_cons_self
    fractionDigits := fun digit isIn => areDigits digit (List.mem_cons_of_mem first isIn) }
  text_eq := by cases rest <;> simp [scientific, Numeral.characters, pointed]
  sameRank := rfl

/-- A magnitude below one has all its digits behind the point. -/
private theorem small_spelled
    (areDigits : ∀ digit ∈ first :: rest, isDigit digit = true) {power : Int} (small : power < 0) :
    Numeral.Spells ⟨['0'], List.replicate (-power - 1).toNat '0' ++ first :: rest, none⟩ layout
      (layout.positional (first :: rest) power)
      ⟨ofDigits (first :: rest), power - rest.length⟩ where
  proper := {
    leads := ⟨'0', [], rfl, fun _ => rfl⟩
    wholeDigits := fun digit isIn => by
      rw [List.mem_singleton.mp isIn]
      rfl
    fractionDigits := by
      intro digit isIn
      rcases List.mem_append.mp isIn with isZero | isFigure
      · exact isDigit_of_mem_zeros isZero
      · exact areDigits digit isFigure }
  text_eq := by
    rw [positional, if_pos small, Numeral.characters, pointed_of_ne_nil (by simp)]
    simp
  sameRank := by
    have coefficient : ofDigits
        (['0'] ++ (List.replicate (-power - 1).toNat '0' ++ first :: rest)) =
        ofDigits (first :: rest) := by
      rw [← List.append_assoc, ofDigits_append]
      simp only [List.singleton_append, ← List.replicate_succ, ofDigits_zeros]
      omega
    have exponent : (0 : Int) - (List.replicate (-power - 1).toNat '0' ++ first :: rest).length =
        power - rest.length := by
      simp only [List.length_append, List.length_replicate, List.length_cons]
      omega
    simp only [Numeral.value, Decimal.ofParts, Option.getD_none, coefficient, exponent]

/-- A whole magnitude has zeros after its figures and then the ending. -/
private theorem whole_spelled {endingZeros : Nat}
    (ending : layout.wholeEnding.toList = pointed (List.replicate endingZeros '0'))
    (notZero : first ≠ '0') (areDigits : ∀ digit ∈ first :: rest, isDigit digit = true)
    {power : Int} (isWhole : rest.length ≤ power) :
    Numeral.Spells
      ⟨first :: rest ++ List.replicate (power.toNat - rest.length) '0',
        List.replicate endingZeros '0', none⟩ layout
      (layout.positional (first :: rest) power)
      ⟨ofDigits (first :: rest), power - rest.length⟩ where
  proper := {
    leads := ⟨first, _, rfl, fun isZero => absurd isZero notZero⟩
    wholeDigits := by
      intro digit isIn
      rcases List.mem_append.mp isIn with isFigure | isZero
      · exact areDigits digit isFigure
      · exact isDigit_of_mem_zeros isZero
    fractionDigits := fun digit isIn => isDigit_of_mem_zeros isIn }
  text_eq := by
    have notSmall : ¬power < 0 := by omega
    have fits : (first :: rest).length ≤ power.toNat + 1 := by
      simp only [List.length_cons]
      omega
    have padding : power.toNat + 1 - (first :: rest).length = power.toNat - rest.length := by
      simp only [List.length_cons]
      omega
    simp only [positional, if_neg notSmall, if_pos fits, padding, ending, Numeral.characters,
      Option.map_none, Option.getD_none, List.append_nil]
  sameRank := by
    have coefficient : ofDigits
        (first :: rest ++ List.replicate (power.toNat - rest.length) '0' ++
          List.replicate endingZeros '0') =
        ofDigits (first :: rest) * 10 ^ (power.toNat - rest.length + endingZeros) := by
      rw [List.append_assoc, List.replicate_append_replicate, ofDigits_append, ofDigits_zeros,
        List.length_replicate, Nat.add_zero]
    have exponent : (0 : Int) - (List.replicate endingZeros '0').length +
        (power.toNat - rest.length + endingZeros : Nat) = power - rest.length := by
      rw [List.length_replicate]
      omega
    simp only [Numeral.value, Decimal.ofParts, Option.getD_none, coefficient,
      Decimal.min_rank_shift, exponent]

/-- The figures of any other magnitude have the point among them. -/
private theorem mixed_spelled
    (notZero : first ≠ '0') (areDigits : ∀ digit ∈ first :: rest, isDigit digit = true)
    {power : Int} (least : 0 ≤ power) (isMixed : power < rest.length) :
    Numeral.Spells ⟨first :: rest.take power.toNat, rest.drop power.toNat, none⟩ layout
      (layout.positional (first :: rest) power)
      ⟨ofDigits (first :: rest), power - rest.length⟩ where
  proper := {
    leads := ⟨first, _, rfl, fun isZero => absurd isZero notZero⟩
    wholeDigits := by
      intro digit isIn
      exact areDigits digit
        (List.cons_subset_cons first (List.take_subset power.toNat rest) isIn)
    fractionDigits := by
      intro digit isIn
      exact areDigits digit (List.mem_cons_of_mem first (List.drop_subset power.toNat rest isIn)) }
  text_eq := by
    have notSmall : ¬power < 0 := by omega
    have exceeds : ¬rest.length ≤ power.toNat := by omega
    have nonempty : rest.drop power.toNat ≠ [] := by
      rw [Ne, List.drop_eq_nil_iff]
      omega
    simp [positional, notSmall, exceeds, Numeral.characters, pointed_of_ne_nil nonempty]
  sameRank := by
    have digits : first :: rest.take power.toNat ++ rest.drop power.toNat = first :: rest :=
      congrArg (first :: ·) (List.take_append_drop power.toNat rest)
    have exponent : (0 : Int) - (rest.drop power.toNat).length = power - rest.length := by
      rw [List.length_drop]
      omega
    simp only [Numeral.value, Decimal.ofParts, Option.getD_none, digits, exponent]

/-- The layout writes the decimal around a point, without an exponent. -/
def IsPositional (decimal : Decimal) : Prop :=
  layout.leastPower ≤ (leading decimal).2 ∧ (leading decimal).2 < layout.pastPower

/-- A magnitude is written as a numeral with the same double. If whole numbers have an ending, the
numeral has a fraction or an exponent. -/
theorem decimal_spelled {endingZeros : Nat}
    (ending : layout.wholeEnding.toList = pointed (List.replicate endingZeros '0'))
    {decimal : Decimal} (nonzero : decimal.coefficient ≠ 0) :
    ∃ numeral : Numeral, numeral.Spells layout (layout.decimal decimal) decimal ∧
      (0 < endingZeros → numeral.fraction ≠ [] ∨ numeral.exponent ≠ none) ∧
      (layout.IsPositional decimal → numeral.exponent = none) := by
  obtain ⟨first, rest, zeros, isLeading, notZero, areDigits, coefficient⟩ := leading_eq nonzero
  generalize isPower : (rest.length : Int) + zeros + decimal.exponent = power at isLeading
  have sameRank :
      min (Decimal.rank ⟨ofDigits (first :: rest), power - rest.length⟩) infiniteRank =
        min decimal.rank infiniteRank := by
    have exponent : power - rest.length = decimal.exponent + zeros := by omega
    rw [exponent, ← Decimal.min_rank_shift, ← coefficient]
  unfold Layout.decimal IsPositional
  simp only [isLeading]
  split
  next isPositional =>
    by_cases isSmall : power < 0
    · refine ⟨_, (small_spelled layout areDigits isSmall).ofSameRank sameRank,
        fun _ => .inl ?_, fun _ => rfl⟩
      simp
    · by_cases isWhole : rest.length ≤ power
      · refine ⟨_, (whole_spelled layout ending notZero areDigits isWhole).ofSameRank sameRank,
          ?_, fun _ => rfl⟩
        intro hasEnding
        exact .inl (mt (List.replicate_eq_nil_iff _).mp (Nat.ne_of_gt hasEnding))
      · refine ⟨_, (mixed_spelled layout notZero areDigits (Int.not_lt.mp isSmall)
          (Int.not_le.mp isWhole)).ofSameRank sameRank, fun _ => .inl ?_, fun _ => rfl⟩
        rw [Ne, List.drop_eq_nil_iff]
        omega
  next isScientific =>
    exact ⟨_, (scientific_spelled layout areDigits power).ofSameRank sameRank,
      fun _ => .inr nofun, fun isPositional => absurd isPositional isScientific⟩

/-- The text of a finite magnitude is a numeral that reads back. -/
theorem magnitude_spelled {endingZeros : Nat}
    (ending : layout.wholeEnding.toList = pointed (List.replicate endingZeros '0'))
    {rank : Nat} (isFinite : rank < infiniteRank) :
    ∃ numeral : Numeral, numeral.Proper ∧ layout.magnitude rank = numeral.characters layout ∧
      numeral.value.rank = rank ∧
      (0 < endingZeros → numeral.fraction ≠ [] ∨ numeral.exponent ≠ none) ∧
      (rank = 0 ∨ layout.IsPositional (shortest rank) → numeral.exponent = none) := by
  unfold Layout.magnitude
  by_cases isZero : rank = 0
  · refine ⟨⟨['0'], List.replicate endingZeros '0', none⟩, ⟨?_, ?_, ?_⟩, ?_, ?_, ?_, fun _ => rfl⟩
    · exact ⟨'0', [], rfl, fun _ => rfl⟩
    · exact fun digit isIn => isDigit_of_mem_zeros (show digit ∈ List.replicate 1 '0' from isIn)
    · exact fun digit isIn => isDigit_of_mem_zeros isIn
    · simp [isZero, Numeral.characters, ending]
    · have noDigits : ofDigits (['0'] ++ List.replicate endingZeros '0') = 0 :=
        ofDigits_zeros (endingZeros + 1)
      rw [Numeral.value, Decimal.ofParts, Decimal.rank, if_pos noDigits, isZero]
    · exact fun hasEnding => .inl (mt (List.replicate_eq_nil_iff _).mp (Nat.ne_of_gt hasEnding))
  · have readsBack := shortest_rank isFinite
    have nonzero : (shortest rank).coefficient ≠ 0 := by
      intro none
      rw [Decimal.rank, if_pos none] at readsBack
      exact isZero readsBack.symm
    obtain ⟨numeral, spelled, fractional, positional⟩ := layout.decimal_spelled ending nonzero
    refine ⟨numeral, spelled.proper, ?_, ?_, fractional, fun written =>
      positional (written.resolve_left isZero)⟩
    · rw [if_neg isZero, if_neg (Nat.ne_of_lt isFinite), spelled.text_eq]
    · have same := spelled.sameRank
      rw [readsBack] at same
      omega

end Layout

end LoxLang.Number
