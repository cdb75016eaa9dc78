/-!
# Blank characters

The blanks that are cut off at the end of a line of text.
-/

namespace LoxLang.Text

/-- A character that counts as blank: the ASCII blanks and separators, the next-line control, and
the Unicode spaces and line separators. -/
def isBlank (character : Char) : Bool :=
  let point := character.toNat
  (0x09 ≤ point && point ≤ 0x0D) || (0x1C ≤ point && point ≤ 0x20) || point == 0x85
    || point == 0xA0 || point == 0x1680 || (0x2000 ≤ point && point ≤ 0x200A)
    || point == 0x2028 || point == 0x2029 || point == 0x202F || point == 0x205F || point == 0x3000

/-- Every blank of the core library is blank. -/
theorem isBlank_of_isWhitespace {character : Char} (blank : character.isWhitespace = true) :
    isBlank character = true := by
  simp only [Char.isWhitespace, Bool.or_eq_true, decide_eq_true_eq] at blank
  rcases blank with ((rfl | rfl) | rfl) | rfl <;> decide

/-- The text without the blanks at its end. -/
def dropEndBlanks (text : List Char) : List Char :=
  (text.reverse.dropWhile isBlank).reverse

end LoxLang.Text
