import LoxLang.Proofs.Number.Bits
import LoxLang.Proofs.Number.Numeral
import LoxLang.Proofs.Source.Tiling

/-!
# Printed numbers

The text that a program prints for a finite number is a numeral that reads back as this number. So
no two finite numbers have the same text.
-/

namespace LoxLang.Number

open Source

/-- The number is neither infinite nor not a number. -/
def IsFinite (number : Float) : Prop :=
  ∃ negative rank, shape number = .signed negative rank ∧ rank < infiniteRank

/-- An exponent is read as it was written. -/
theorem exponentOfText?_exponentText (layout : Layout) (power : Int) :
    exponentOfText? (layout.exponentText power) = some power := by
  obtain ⟨figures, isText, nonempty, areDigits, magnitude⟩ := layout.exponentText_eq power
  have notEmpty : figures.isEmpty = false := List.isEmpty_eq_false_iff.mpr nonempty
  have allDigits : figures.all isDigit = true := List.all_eq_true.mpr areDigits
  rw [isText]
  by_cases isNegative : power < 0
  · have restored : -(power.natAbs : Int) = power := by omega
    simp only [exponentOfText?, splitSign, isNegative, notEmpty, allDigits, magnitude, restored,
      true_or, if_true, if_false, Bool.not_true, Bool.false_eq_true, or_self]
  · have restored : (power.natAbs : Int) = power := by omega
    simp only [exponentOfText?, splitSign, isNegative, notEmpty, allDigits, magnitude, restored,
      true_or, if_true, if_false, Bool.not_true, Bool.false_eq_true, or_self]

/-- A numeral reads back as the decimal that it stands for. -/
theorem Numeral.Proper.reads {numeral : Numeral} (proper : numeral.Proper) (layout : Layout) :
    Decimal.ofText? (numeral.characters layout) = some numeral.value := by
  generalize isMark : (numeral.exponent.map layout.exponentText).getD [] = mark
  have exponentRead : exponentOfText? mark = some (numeral.exponent.getD 0) := by
    subst isMark
    cases numeral.exponent with
    | none => rfl
    | some power => exact exponentOfText?_exponentText layout power
  have markStops : ∀ character ∈ mark.head?, isDigit character = false ∧ character ≠ '.' := by
    subst isMark
    cases numeral.exponent with
    | none => exact nofun
    | some power =>
      obtain ⟨figures, isText, -⟩ := layout.exponentText_eq power
      rw [Option.map_some, Option.getD_some, isText]
      rintro _ ⟨⟩
      decide
  have pointStops : ∀ character ∈ (pointed numeral.fraction ++ mark).head?,
      isDigit character = false := by
    cases numeral.fraction with
    | nil => exact fun character isHead => (markStops character isHead).1
    | cons digit digits =>
      rintro _ ⟨⟩
      rfl
  obtain ⟨isWhole, isRest⟩ := takeWhile_append_of_stops proper.wholeDigits pointStops
  obtain ⟨isFraction, isEnd⟩ := takeWhile_append_of_stops proper.fractionDigits
    fun character isHead => (markStops character isHead).1
  have hasWhole : numeral.whole ≠ [] := by
    obtain ⟨first, rest, isWhole, -⟩ := proper.leads
    exact isWhole ▸ List.cons_ne_nil first rest
  rw [Numeral.characters, isMark, List.append_assoc, Decimal.ofText?, isWhole, isRest, value]
  cases isSplit : numeral.fraction with
  | nil =>
    have noPoint : ∀ tail, mark ≠ '.' :: tail := by
      rintro tail rfl
      exact (markStops '.' rfl).2 rfl
    simp [pointed, hasWhole, exponentRead]
  | cons digit digits =>
    rw [isSplit] at isFraction isEnd
    simp only [pointed, List.cons_append] at isFraction isEnd ⊢
    simp [isFraction, isEnd, hasWhole, exponentRead]

/-- A finite number is printed as a numeral with the same double, behind its sign. -/
theorem characters_of_isFinite {number : Float} (isFinite : IsFinite number) :
    ∃ (negative : Bool) (numeral : Numeral), numeral.Proper ∧
      displayLayout.characters number =
        (if negative then ['-'] else []) ++ numeral.characters displayLayout ∧
      number = numeral.value.toFloat negative := by
  obtain ⟨negative, rank, isShape, inside⟩ := isFinite
  have ending : displayLayout.wholeEnding.toList = pointed (List.replicate 0 '0') := rfl
  obtain ⟨numeral, proper, isText, isValue, -⟩ := displayLayout.magnitude_spelled ending inside
  refine ⟨negative, numeral, proper, ?_, ?_⟩
  · rw [Layout.characters, isShape, ← isText]
  · rw [(eq_ofRank_of_shape isShape).1, Decimal.toFloat, isValue]

/-- A finite number reads back from the text that is printed for it. -/
theorem ofText?_display {number : Float} (isFinite : IsFinite number) :
    ofText? (display number) = some number := by
  obtain ⟨negative, numeral, proper, isText, isValue⟩ := characters_of_isFinite isFinite
  obtain ⟨first, rest, begins, isFigure⟩ := proper.begins displayLayout
  have reads := proper.reads displayLayout
  have noSign : first ≠ '-' ∧ first ≠ '+' ∧ first ≠ 'i' ∧ first ≠ 'n' := by
    refine ⟨?_, ?_, ?_, ?_⟩ <;> (rintro rfl; cases isFigure)
  have isSplit : splitSign (displayLayout.characters number) = (negative, first :: rest) := by
    rw [isText, begins]
    cases negative with
    | true => rfl
    | false => simp [splitSign, noSign.1, noSign.2.1]
  have noInfinity : first :: rest ≠ "inf".toList := fun same =>
    noSign.2.2.1 (List.cons.inj same).1
  have noNan : first :: rest ≠ "nan".toList := fun same => noSign.2.2.2 (List.cons.inj same).1
  rw [begins] at reads
  simp only [ofText?, display, String.toList_ofList, isSplit, noInfinity, noNan, if_false, reads,
    Option.map_some, ← isValue]

/-- Finite numbers that are displayed alike are the same. -/
theorem eq_of_display_eq {number other : Float} (isFinite : IsFinite number)
    (otherFinite : IsFinite other) (same : display number = display other) : number = other := by
  have reads := ofText?_display isFinite
  rw [same, ofText?_display otherFinite] at reads
  exact (Option.some.inj reads).symm

/-- The text of a finite number begins with a minus or a digit, and is made of digits, a point, and
the marks of an exponent. -/
theorem display_characters {number : Float} (isFinite : IsFinite number) :
    (∃ first rest, (display number).toList = first :: rest ∧
      (first = '-' ∨ isDigit first = true)) ∧
    ∀ character ∈ (display number).toList,
      isDigit character = true ∨ character ∈ ['.', 'e', '+', '-'] := by
  obtain ⟨negative, numeral, proper, isText, -⟩ := characters_of_isFinite isFinite
  obtain ⟨first, rest, begins, isFigure⟩ := proper.begins displayLayout
  have each : ∀ character ∈ numeral.characters displayLayout,
      isDigit character = true ∨ character ∈ ['.', 'e', '+', '-'] :=
    fun _ => displayLayout.mem_characters proper
  rw [display, String.toList_ofList, isText]
  cases negative with
  | true =>
    refine ⟨⟨'-', _, rfl, .inl rfl⟩, List.forall_mem_cons.mpr ⟨.inr (by decide), each⟩⟩
  | false => exact ⟨⟨first, rest, begins, .inr isFigure⟩, each⟩

/-- No number is printed as a word. -/
theorem display_ne {number : Float} (isFinite : IsFinite number) {word : String}
    (begins : word.toList.head?.any isLetter = true) : display number ≠ word := by
  rintro rfl
  obtain ⟨⟨first, rest, isText, isFirst⟩, -⟩ := display_characters isFinite
  rw [isText] at begins
  rcases isFirst with rfl | isDigit
  · cases begins
  · exact absurd isDigit (Bool.eq_false_iff.mp (not_isDigit_of_isLetter begins))

end LoxLang.Number
