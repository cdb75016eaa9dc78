import Mathlib
import LoxLang.Value.Basic
import LoxLang.Proofs.Number.Display
import LoxLang.Proofs.Number.Order
import LoxLang.Proofs.Source.Token

/-!
# Printed numbers as source text

Zero and the numbers from `0.0001` up to `10 ^ 16` are printed without an exponent. So the text of
such a number is one number token of the language, and the literal of that token is the number.
-/

namespace LoxLang

/-! ## Numbers without an exponent -/

namespace Number

/-- Between these powers of ten the shortest decimal is written positionally. -/
theorem isPositional_shortest {rank : Nat} (least : Decimal.rank ⟨1, -4⟩ ≤ rank)
    (past : rank < Decimal.rank ⟨1, 16⟩) : displayLayout.IsPositional (shortest rank) := by
  have lowRank : Decimal.rank ⟨1, -4⟩ = 0x3F1A36E2EB1C432D := by decide +kernel
  have highRank : Decimal.rank ⟨1, 16⟩ = 0x4341C37937E08000 := by decide +kernel
  have isInfinite : infiniteRank = 0x7FF0000000000000 := rfl
  have readsBack : (shortest rank).rank = rank := shortest_rank (by omega)
  have nonzero : (shortest rank).coefficient ≠ 0 := by
    intro isZero
    rw [Decimal.rank, if_pos isZero] at readsBack
    omega
  constructor
  · by_contra small
    have below := rank_le_of_leading_lt nonzero (Int.not_le.mp small)
    change _ ≤ min (Decimal.rank ⟨1, -4⟩) infiniteRank at below
    -- Nothing but the power of ten itself is left, and its first digit stands for it.
    obtain rfl : Decimal.rank ⟨1, -4⟩ = rank := by omega
    exact small (by decide +kernel)
  · by_contra large
    have above := rank_le_of_le_leading nonzero (Int.not_lt.mp large)
    change min (Decimal.rank ⟨1, 16⟩) infiniteRank ≤ _ at above
    omega

/-- Zero and the numbers in the range are finite, and are printed as a numeral that has no sign and
no exponent. -/
theorem display_positional {number : Float}
    (inRange : number = 0 ∨ 1e-4 ≤ number ∧ number < 1e16) :
    IsFinite number ∧ ∃ numeral : Numeral, numeral.Proper ∧ numeral.exponent = none ∧
      (display number).toList = numeral.characters displayLayout := by
  obtain ⟨rank, isShape, isFinite, positional⟩ : ∃ rank, shape number = .signed false rank ∧
      rank < infiniteRank ∧ (rank = 0 ∨ displayLayout.IsPositional (shortest rank)) := by
    rcases inRange with rfl | ⟨least, past⟩
    · exact ⟨0, by decide +kernel, by decide, .inl rfl⟩
    · have lowShape : shape 1e-4 = .signed false (Decimal.rank ⟨1, -4⟩) := by decide +kernel
      have highShape : shape 1e16 = .signed false (Decimal.rank ⟨1, 16⟩) := by decide +kernel
      obtain ⟨rank, isShape, leastRank, pastRank⟩ :=
        shape_between lowShape highShape (by decide +kernel) least past
      have highFinite : Decimal.rank ⟨1, 16⟩ < infiniteRank := by decide +kernel
      exact ⟨rank, isShape, by omega, .inr (isPositional_shortest leastRank pastRank)⟩
  have ending : displayLayout.wholeEnding.toList = pointed (List.replicate 0 '0') := rfl
  obtain ⟨numeral, proper, isText, -, -, noExponent⟩ :=
    displayLayout.magnitude_spelled ending isFinite
  refine ⟨⟨false, rank, isShape, isFinite⟩, numeral, proper, noExponent positional, ?_⟩
  rw [display, String.toList_ofList, Layout.characters, isShape, ← isText]
  rfl

/-- A numeral without an exponent is a number of the language. -/
theorem Numeral.Proper.isLexeme {numeral : Numeral} (proper : numeral.Proper)
    (noExponent : numeral.exponent = none) (layout : Layout) :
    Source.Lexeme .number (numeral.characters layout) := by
  have hasWhole : numeral.whole ≠ [] := by
    obtain ⟨first, rest, isWhole, -⟩ := proper.leads
    exact isWhole ▸ List.cons_ne_nil first rest
  rw [characters, noExponent, Option.map_none, Option.getD_none, List.append_nil]
  cases isFraction : numeral.fraction with
  | nil =>
    rw [pointed, List.append_nil]
    exact .whole hasWhole proper.wholeDigits
  | cons digit digits =>
    exact .fraction hasWhole proper.wholeDigits (List.cons_ne_nil digit digits)
      (isFraction ▸ proper.fractionDigits)

end Number

/-! ## Reading them back -/

namespace Source

/-- A lexeme on its own is scanned as its token. -/
theorem scan_lexeme {kind : TokenKind} {source : String}
    (isLexeme : Lexeme kind source.toList) :
    scan source = ⟨[⟨kind, source, literalOf kind source.toList, lineAfter 1 source.toList⟩],
      lineAfter 1 source.toList, []⟩ := by
  rw [scan, scanFrom_eq, pieces_lexeme isLexeme, scanOf_cons]
  simp only [PlacedPiece.token?, String.ofList_toList]
  rfl

/-- A lexeme that is no string stands on one line. -/
theorem lineAfter_of_lexeme {kind : TokenKind} {text : List Char} (isLexeme : Lexeme kind text)
    (noString : kind ≠ .string) (line : Int) : lineAfter line text = line := by
  rw [lineAfter, List.count_eq_zero.mpr (isLexeme.lineFeed_not_mem noString)]
  exact Int.add_zero line

/-- Printed numbers read back. Zero and every number from `0.0001` up to `10 ^ 16` are printed as
one number token, without anything around it; its literal is the number. -/
theorem scan_display_number {number : Float}
    (inRange : number = 0 ∨ 1e-4 ≤ number ∧ number < 1e16) :
    let printed := (Value.number number).display
    (scan printed).errors = [] ∧
      (scan printed).closedTokens = [⟨.number, printed, .number number, 1⟩, .endOfText 1] := by
  obtain ⟨isFinite, numeral, proper, noExponent, isText⟩ := Number.display_positional inRange
  have isLexeme : Lexeme .number (Number.display number).toList :=
    isText ▸ proper.isLexeme noExponent Number.displayLayout
  have isLiteral : literalOf .number (Number.display number).toList = .number number := by
    have reads := ofText?_of_lexeme isLexeme
    rw [String.ofList_toList, Number.ofText?_display isFinite] at reads
    exact congrArg Literal.number (Option.some.inj reads).symm
  have isScan := scan_lexeme isLexeme
  rw [isLiteral, lineAfter_of_lexeme isLexeme (by decide)] at isScan
  dsimp only [Value.display]
  rw [isScan]
  exact ⟨rfl, rfl⟩

/-- A whole number beyond `2 ^ 53` reads back digit for digit. -/
theorem scan_display_whole :
    let number : Float := 9007199254740994
    (number = 0 ∨ 1e-4 ≤ number ∧ number < 1e16) ∧
      (Value.number number).display = "9007199254740994" ∧
      (scan "9007199254740994").closedTokens =
        [⟨.number, "9007199254740994", .number number, 1⟩, .endOfText 1] := by
  have inRange : (9007199254740994 : Float) = 0 ∨
      1e-4 ≤ (9007199254740994 : Float) ∧ (9007199254740994 : Float) < 1e16 :=
    .inr (by decide +kernel)
  have isText : (Value.number 9007199254740994).display = "9007199254740994" := by decide +kernel
  refine ⟨inRange, isText, ?_⟩
  have reads := (scan_display_number inRange).2
  rwa [isText] at reads

end Source
end LoxLang
