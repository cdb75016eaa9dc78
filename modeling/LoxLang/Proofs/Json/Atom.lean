import LoxLang.Json.Reader
import LoxLang.Json.Writer
import LoxLang.Proofs.Number.Bits
import LoxLang.Proofs.Number.Numeral

/-!
# Reading back constants and numbers

Every constant, every whole number that is not too long and every double is read back from its text,
and nothing behind the text is touched. A number ends where its text does only if what follows could
not go on with it.
-/

namespace LoxLang.Json

open Number

/-- The text does not go on with a number. -/
def EndsNumber (text : List Char) : Prop :=
  ∀ character rest, text = character :: rest →
    isDigit character = false ∧ character ≠ '.' ∧ character ≠ 'e' ∧ character ≠ 'E'

/-- A number ends at the end of the text. -/
theorem endsNumber_nil : EndsNumber [] := nofun

/-- A number ends in front of whatever is neither a digit, a dot nor the mark of an exponent. -/
theorem endsNumber_cons {character : Char} (rest : List Char)
    (isOther : isDigit character = false ∧ character ≠ '.' ∧ character ≠ 'e' ∧ character ≠ 'E') :
    EndsNumber (character :: rest) := by
  rintro _ _ ⟨⟩
  exact isOther

/-! ## The parts of a number -/

section Parts

variable {rest : List Char}

/-- The digits in front are as many as there are. -/
private theorem takeWhile_digits {digits : List Char}
    (areDigits : ∀ digit ∈ digits, isDigit digit = true)
    (stops : ∀ character tail, rest = character :: tail → isDigit character = false) :
    (digits ++ rest).takeWhile isDigit = digits := by
  rw [List.takeWhile_append_of_pos areDigits]
  cases rest with
  | nil => rw [List.takeWhile_nil, List.append_nil]
  | cons character tail =>
    rw [List.takeWhile_cons_of_neg (by simp [stops character tail rfl]), List.append_nil]

/-- Behind the digits is what stands behind them. -/
private theorem dropWhile_digits {digits : List Char}
    (areDigits : ∀ digit ∈ digits, isDigit digit = true)
    (stops : ∀ character tail, rest = character :: tail → isDigit character = false) :
    (digits ++ rest).dropWhile isDigit = rest := by
  rw [List.dropWhile_append_of_pos areDigits]
  cases rest with
  | nil => rfl
  | cons character tail => rw [List.dropWhile_cons_of_neg (by simp [stops character tail rfl])]

/-- The whole part of a numeral is read. -/
theorem wholePart?_append {numeral : Numeral} (proper : numeral.Proper)
    (stops : ∀ character tail, rest = character :: tail → isDigit character = false) :
    wholePart? (numeral.whole ++ rest) = some (numeral.whole, rest) := by
  obtain ⟨first, others, isWhole, alone⟩ := proper.leads
  have taken := takeWhile_digits proper.wholeDigits stops
  have dropped := dropWhile_digits proper.wholeDigits stops
  by_cases isZero : first = '0'
  · rw [isWhole, alone isZero, isZero]
    rfl
  · unfold wholePart?
    split
    next tail isHead =>
      rw [isWhole, List.cons_append] at isHead
      exact absurd (List.cons.inj isHead).1 isZero
    next =>
      rw [taken, dropped]
      simp [isWhole]

/-- The fraction behind the dot is read, or none if there is none. -/
theorem fractionPart_pointed {fraction : List Char}
    (areDigits : ∀ digit ∈ fraction, isDigit digit = true)
    (stops : ∀ character tail, rest = character :: tail →
      isDigit character = false ∧ character ≠ '.') :
    fractionPart (pointed fraction ++ rest) = (fraction, rest) := by
  cases fraction with
  | nil =>
    rw [pointed, List.nil_append]
    unfold fractionPart
    split
    next tail => exact absurd rfl (stops '.' tail rfl).2
    next => rfl
  | cons digit digits =>
    have digitsStop := fun character tail isRest => (stops character tail isRest).1
    have taken := takeWhile_digits areDigits digitsStop
    have dropped := dropWhile_digits areDigits digitsStop
    simp only [pointed, List.cons_append, fractionPart] at taken dropped ⊢
    rw [taken, dropped]
    rfl

/-- The exponent is read as it was written. -/
theorem exponentPart?_exponentText (layout : Layout) (power : Int)
    (stops : ∀ character tail, rest = character :: tail → isDigit character = false) :
    exponentPart? (layout.exponentText power ++ rest) = some (power, rest) := by
  obtain ⟨figures, isText, nonempty, areDigits, magnitude⟩ := layout.exponentText_eq power
  have taken := takeWhile_digits areDigits stops
  have dropped := dropWhile_digits areDigits stops
  have notEmpty : figures.isEmpty = false := List.isEmpty_eq_false_iff.mpr nonempty
  rw [isText]
  by_cases isNegative : power < 0
  · have restored : -(power.natAbs : Int) = power := by omega
    simp only [exponentPart?, splitSign, List.cons_append, true_or, if_true, isNegative, taken,
      dropped, notEmpty, Bool.false_eq_true, if_false, magnitude, restored]
  · have restored : (power.natAbs : Int) = power := by omega
    simp only [exponentPart?, splitSign, List.cons_append, true_or, if_true, isNegative, taken,
      dropped, notEmpty, Bool.false_eq_true, if_false, magnitude, restored]

/-- Where a number ends, it has no exponent. -/
theorem exponentPart?_absent (ends : EndsNumber rest) : exponentPart? rest = none := by
  cases rest with
  | nil => rfl
  | cons character tail =>
    obtain ⟨-, -, notSmall, notLarge⟩ := ends character tail rfl
    simp [exponentPart?, notSmall, notLarge]

end Parts

/-! ## Numbers -/

/-- The minus in front of a negative number. -/
def minus (negative : Bool) : List Char := if negative then ['-'] else []

/-- A minus sign is taken off if there is one. -/
private theorem minusSign_append (negative : Bool) {first : Char} (rest : List Char)
    (notMinus : first ≠ '-') :
    minusSign (minus negative ++ first :: rest) = (negative, first :: rest) := by
  cases negative with
  | true => rfl
  | false =>
    simp only [minus, Bool.false_eq_true, if_false, List.nil_append]
    unfold minusSign
    split
    next isHead => exact absurd (List.cons.inj isHead).1 notMinus
    next => rfl

/-- A digit is no minus sign. -/
private theorem not_minus {first : Char} (isFigure : isDigit first = true) : first ≠ '-' := by
  rintro rfl
  exact absurd isFigure (by decide)

/-- A numeral that is not whole is read as a double. -/
theorem numberOf_numeral {layout : Layout} {numeral : Numeral} (proper : numeral.Proper)
    (fractional : numeral.fraction ≠ [] ∨ numeral.exponent ≠ none) (negative : Bool)
    {rest : List Char} (ends : EndsNumber rest) :
    numberOf (minus negative ++ numeral.characters layout ++ rest) =
      .ok (.number (numeral.value.toFloat negative), rest) := by
  obtain ⟨first, others, isWhole, -⟩ := proper.leads
  have isFigure : isDigit first = true :=
    proper.wholeDigits first (isWhole ▸ List.mem_cons_self)
  generalize isTail :
    (numeral.exponent.map layout.exponentText).getD [] ++ rest = tail
  have tailStops : ∀ character others, tail = character :: others →
      isDigit character = false ∧ character ≠ '.' := by
    subst isTail
    cases numeral.exponent with
    | none => exact fun character others isHead =>
        ⟨(ends character others isHead).1, (ends character others isHead).2.1⟩
    | some power =>
      obtain ⟨figures, isText, -⟩ := layout.exponentText_eq power
      rw [Option.map_some, Option.getD_some, isText]
      rintro _ _ ⟨⟩
      decide
  have wholeStops : ∀ character others, pointed numeral.fraction ++ tail = character :: others →
      isDigit character = false := by
    cases numeral.fraction with
    | nil => exact fun character others isHead => (tailStops character others isHead).1
    | cons digit digits =>
      rintro _ _ ⟨⟩
      decide
  have regroup : minus negative ++ numeral.characters layout ++ rest =
      minus negative ++ first :: (others ++ (pointed numeral.fraction ++ tail)) := by
    simp [Numeral.characters, isWhole, ← isTail]
  have unsigned : first :: (others ++ (pointed numeral.fraction ++ tail)) =
      numeral.whole ++ (pointed numeral.fraction ++ tail) := by
    rw [isWhole, List.cons_append]
  rw [regroup, numberOf, minusSign_append negative _ (not_minus isFigure), unsigned]
  simp only [wholePart?_append proper wholeStops,
    fractionPart_pointed proper.fractionDigits tailStops]
  subst isTail
  cases isExponent : numeral.exponent with
  | none =>
    have nonempty : numeral.fraction ≠ [] := fractional.resolve_right (fun some => some isExponent)
    simp only [Option.map_none, Option.getD_none, List.nil_append, exponentPart?_absent ends]
    rw [Numeral.value, isExponent]
    rfl
  | some power =>
    simp only [Option.map_some, Option.getD_some,
      exponentPart?_exponentText layout power (fun character others isHead =>
        (ends character others isHead).1)]
    rw [Numeral.value, isExponent]
    rfl

/-- An integer is written as its sign and its digits. -/
private theorem toString_toList (value : Int) :
    (toString value).toList = minus (value < 0) ++ digits value.natAbs := by
  cases value with
  | ofNat magnitude =>
    have notNegative : ¬Int.ofNat magnitude < 0 := by
      simp
    simp only [minus, notNegative]
    exact Nat.toList_repr
  | negSucc magnitude =>
    have isNegative : Int.negSucc magnitude < 0 := Int.negSucc_lt_zero magnitude
    have isText : toString (Int.negSucc magnitude) = "-" ++ Nat.repr (magnitude + 1) := rfl
    rw [isText, String.toList_append, Nat.toList_repr]
    simp only [minus, isNegative]
    rfl

/-- The digits of a number are a numeral. -/
private theorem proper_digits (number : Nat) : Numeral.Proper ⟨digits number, [], none⟩ where
  leads := by
    by_cases isZero : number = 0
    · exact ⟨'0', [], by rw [isZero]; rfl, fun _ => rfl⟩
    · obtain ⟨first, rest, isDigits, notZero⟩ := digits_nonzero isZero
      exact ⟨first, rest, isDigits, fun isZero => absurd isZero notZero⟩
  wholeDigits := fun _ => isDigit_of_mem_digits
  fractionDigits := nofun

/-- A whole number is read as it is. -/
theorem numberOf_integer (value : Int) (few : (digits value.natAbs).length ≤ digitLimit)
    {rest : List Char} (ends : EndsNumber rest) :
    numberOf ((toString value).toList ++ rest) = .ok (.integer value, rest) := by
  have proper := proper_digits value.natAbs
  obtain ⟨first, others, isWhole, -⟩ := proper.leads
  have isFigure : isDigit first = true :=
    proper.wholeDigits first (isWhole ▸ List.mem_cons_self)
  have fractionEnds := fun character tail isRest =>
    And.intro (ends character tail isRest).1 (ends character tail isRest).2.1
  have wholeRead := wholePart?_append proper (fun character tail isRest =>
    (ends character tail isRest).1)
  have fractionRead := fractionPart_pointed proper.fractionDigits fractionEnds
  have signed : minusSign (minus (value < 0) ++ (digits value.natAbs ++ rest)) =
      (decide (value < 0), digits value.natAbs ++ rest) := by
    have isDigits : digits value.natAbs = first :: others := isWhole
    rw [isDigits, List.cons_append]
    exact minusSign_append _ _ (not_minus isFigure)
  simp only [pointed, List.nil_append] at fractionRead
  have restored : (if decide (value < 0) = true then -(value.natAbs : Int) else value.natAbs) =
      value := by
    simp only [decide_eq_true_eq]
    split <;> omega
  simp only [toString_toList, List.append_assoc, numberOf, signed, wholeRead, fractionRead,
    exponentPart?_absent ends, Nat.not_lt.mpr few, if_false, ofDigits_digits, restored]

/-! ## Atoms -/

/-- The word for nothing is read. -/
theorem atom_null (rest : List Char) : atom ("null".toList ++ rest) = .ok (.null, rest) := by
  simp [atom, constants, after?]

/-- The words for the truth values are read. -/
theorem atom_bool (value : Bool) (rest : List Char) :
    atom ((if value then "true" else "false").toList ++ rest) = .ok (.bool value, rest) := by
  cases value <;> simp [atom, constants, after?]

/-- The word for what is no number is read. -/
theorem atom_notANumber (rest : List Char) :
    atom ("NaN".toList ++ rest) = .ok (.number notANumber, rest) := by
  unfold atom constants
  generalize notANumber = constant
  simp [after?]

/-- The word for an infinity is read, with its sign. -/
theorem atom_infinity (negative : Bool) (rest : List Char) :
    atom (minus negative ++ "Infinity".toList ++ rest) =
      .ok (.number (infinity negative), rest) := by
  unfold atom constants
  cases negative with
  | false =>
    generalize infinity false = constant
    simp [after?, minus]
  | true =>
    generalize infinity true = constant
    simp [after?, minus]

/-- Digits, with or without a minus, are no constant. -/
private theorem atom_eq_numberOf (negative : Bool) {first : Char} (rest : List Char)
    (isFigure : isDigit first = true) :
    atom (minus negative ++ first :: rest) = numberOf (minus negative ++ first :: rest) := by
  have differs (letter : Char) (isLetter : isDigit letter = false) : letter ≠ first := by
    rintro rfl
    exact absurd isFigure (by simp [isLetter])
  unfold atom constants
  cases negative with
  | false =>
    simp [minus, after?, List.findSome?, differs 'n' rfl, differs 't' rfl, differs 'f' rfl,
      differs 'N' rfl, differs 'I' rfl, differs '-' rfl]
  | true => simp [minus, after?, differs 'I' rfl]

/-- An integer with not too many digits is read. -/
theorem atom_integer (value : Int) (few : (digits value.natAbs).length ≤ digitLimit)
    {rest : List Char} (ends : EndsNumber rest) :
    atom ((toString value).toList ++ rest) = .ok (.integer value, rest) := by
  have read := numberOf_integer value few ends
  have proper := proper_digits value.natAbs
  obtain ⟨first, others, isWhole, -⟩ := proper.leads
  have isFigure : isDigit first = true :=
    proper.wholeDigits first (isWhole ▸ List.mem_cons_self)
  have isText : (toString value).toList ++ rest =
      minus (value < 0) ++ first :: (others ++ rest) := by
    have isDigits : digits value.natAbs = first :: others := isWhole
    rw [toString_toList, isDigits, List.append_assoc, List.cons_append]
  rw [isText] at read ⊢
  rw [atom_eq_numberOf _ _ isFigure, read]

/-- The text of a double is the name of a constant or a numeral that is not whole. -/
theorem number_cases (number : Float) :
    (number = notANumber ∧ numberLayout.characters number = "NaN".toList) ∨
    (∃ negative, number = infinity negative ∧
      numberLayout.characters number = minus negative ++ "Infinity".toList) ∨
    (∃ negative, ∃ numeral : Numeral, numeral.Proper ∧
      (numeral.fraction ≠ [] ∨ numeral.exponent ≠ none) ∧
      number = numeral.value.toFloat negative ∧
      numberLayout.characters number = minus negative ++ numeral.characters numberLayout) := by
  unfold Layout.characters
  cases isShape : shape number with
  | notANumber => exact .inl ⟨eq_notANumber_of_shape isShape, rfl⟩
  | signed negative rank =>
    obtain ⟨isRank, inside⟩ := eq_ofRank_of_shape isShape
    by_cases isInfinite : rank = infiniteRank
    · refine .inr (.inl ⟨negative, by rw [isRank, isInfinite, infinity], ?_⟩)
      rw [isInfinite]
      rfl
    · have ending : numberLayout.wholeEnding.toList = pointed (List.replicate 1 '0') := by
        decide
      obtain ⟨numeral, proper, isText, isValue, fractional, -⟩ :=
        numberLayout.magnitude_spelled ending (show rank < infiniteRank by omega)
      refine .inr (.inr ⟨negative, numeral, proper, fractional (by decide), ?_, ?_⟩)
      · rw [isRank, Decimal.toFloat, isValue]
      · rw [← isText]
        rfl

/-- Every double is read back from its text. -/
theorem atom_number (number : Float) {rest : List Char} (ends : EndsNumber rest) :
    atom (numberLayout.characters number ++ rest) = .ok (.number number, rest) := by
  rcases number_cases number with ⟨isConstant, isText⟩ | ⟨negative, isConstant, isText⟩ |
    ⟨negative, numeral, proper, fractional, isValue, isText⟩
  · rw [isText, isConstant]
    exact atom_notANumber rest
  · rw [isText, isConstant]
    exact atom_infinity negative rest
  · have read : numberOf (minus negative ++ numeral.characters numberLayout ++ rest) = _ :=
      numberOf_numeral proper fractional negative ends
    obtain ⟨first, tail, isNumeral, isFigure⟩ := proper.begins numberLayout
    rw [isNumeral, List.append_assoc, List.cons_append] at read
    rw [isText, isNumeral, List.append_assoc, List.cons_append, atom_eq_numberOf _ _ isFigure, read,
      isValue]

/-! ## What numbers begin with -/

/-- A number or a constant may begin with this character: it is no blank and ends no list, and no
other document begins with it. -/
def BeginsAtom (first : Char) : Prop :=
  isGap first = false ∧ first ≠ ']' ∧ first ≠ '"' ∧ first ≠ '[' ∧ first ≠ '\x7b'

/-- A digit begins an atom. -/
theorem beginsAtom_digit {first : Char} (isFigure : isDigit first = true) : BeginsAtom first := by
  refine ⟨?_, ?_, ?_, ?_, ?_⟩
  · simp only [isGap, Bool.or_eq_false_iff, decide_eq_false_iff_not]
    refine ⟨⟨⟨?_, ?_⟩, ?_⟩, ?_⟩ <;> rintro rfl <;> exact absurd isFigure (by decide)
  all_goals
    rintro rfl
    exact absurd isFigure (by decide)

/-- Digits, with or without a minus in front, begin a number. -/
private theorem minus_begins (negative : Bool) {first : Char} (rest : List Char)
    (isFigure : isDigit first = true) :
    ∃ head tail, minus negative ++ first :: rest = head :: tail ∧ BeginsAtom head := by
  cases negative with
  | false => exact ⟨first, rest, rfl, beginsAtom_digit isFigure⟩
  | true => exact ⟨'-', first :: rest, rfl, by unfold BeginsAtom; decide⟩

/-- An integer begins as an atom does. -/
theorem integer_begins (value : Int) :
    ∃ first rest, (toString value).toList = first :: rest ∧ BeginsAtom first := by
  have proper := proper_digits value.natAbs
  obtain ⟨first, rest, isWhole, -⟩ := proper.leads
  have isDigits : digits value.natAbs = first :: rest := isWhole
  rw [toString_toList, isDigits]
  exact minus_begins _ rest (proper.wholeDigits first (isWhole ▸ List.mem_cons_self))

/-- A number begins as an atom does. -/
theorem number_begins (number : Float) :
    ∃ first rest, numberLayout.characters number = first :: rest ∧ BeginsAtom first := by
  rcases number_cases number with ⟨-, isText⟩ | ⟨negative, -, isText⟩ |
    ⟨negative, numeral, proper, -, -, isText⟩
  · exact ⟨'N', ['a', 'N'], isText, by unfold BeginsAtom; decide⟩
  · rw [isText]
    cases negative with
    | false => exact ⟨'I', _, rfl, by unfold BeginsAtom; decide⟩
    | true => exact ⟨'-', _, rfl, by unfold BeginsAtom; decide⟩
  · obtain ⟨first, tail, isNumeral, isFigure⟩ := proper.begins numberLayout
    rw [isText, isNumeral]
    exact minus_begins negative tail isFigure

/-! ## Line ends -/

/-- A sign holds no return. -/
private theorem return_not_mem_minus (negative : Bool) : '\r' ∉ minus negative := by
  cases negative <;> decide

/-- An integer holds no return. -/
theorem return_not_mem_integer (value : Int) : '\r' ∉ (toString value).toList := by
  rw [toString_toList]
  intro isIn
  rcases List.mem_append.mp isIn with isIn | isIn
  · exact return_not_mem_minus _ isIn
  · exact absurd (isDigit_of_mem_digits isIn) (by decide)

/-- A number holds no return. -/
theorem return_not_mem_number (number : Float) : '\r' ∉ numberLayout.characters number := by
  rcases number_cases number with ⟨-, isText⟩ | ⟨negative, -, isText⟩ |
    ⟨negative, numeral, proper, -, -, isText⟩
  · rw [isText]
    decide
  · rw [isText]
    intro isIn
    rcases List.mem_append.mp isIn with isIn | isIn
    · exact return_not_mem_minus _ isIn
    · exact absurd isIn (by decide)
  · rw [isText]
    intro isIn
    rcases List.mem_append.mp isIn with isIn | isIn
    · exact return_not_mem_minus _ isIn
    · exact absurd (numberLayout.mem_characters proper isIn) (by decide)

end LoxLang.Json
