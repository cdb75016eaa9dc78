import LoxLang.Token.Kind
import LoxLang.Number.Decimal

/-!
# Pieces of source text

A source text is cut into pieces from left to right: lexemes, blanks, line ends, comments, and the
two kinds of text that are no part of the language. `cut` takes the longest piece that begins with a
given character; no character belongs to two pieces and none is left over.
-/

namespace LoxLang.Source

/-- What a stretch of source text is. -/
inductive PieceKind where
  | lexeme (kind : TokenKind)
  | blank
  | lineEnd
  | comment
  /-- A character that begins no lexeme. -/
  | stray
  /-- A quote that is never closed, with all the text after it. -/
  | unclosed
deriving DecidableEq, Repr

/-- A stretch of source text. -/
structure Piece where
  kind : PieceKind
  text : List Char
deriving DecidableEq, Repr

/-- A character that can begin a word: an ASCII letter or the underscore. -/
def isLetter (character : Char) : Bool :=
  ('a' ≤ character && character ≤ 'z') || ('A' ≤ character && character ≤ 'Z') || character = '_'

/-- A character that can go on a word. -/
def isWordCharacter (character : Char) : Bool := isLetter character || Number.isDigit character

/-- The kind of a lexeme that is one character, whatever follows it. -/
def singleKind? : Char → Option TokenKind
  | '(' => some .leftParen
  | ')' => some .rightParen
  | '\x7b' => some .leftBrace
  | '\x7d' => some .rightBrace
  | ',' => some .comma
  | '.' => some .dot
  | '-' => some .minus
  | '+' => some .plus
  | ';' => some .semicolon
  | '*' => some .star
  | _ => none

/-- For a character that an equals sign can go on: the kind with the sign and the kind alone. -/
def equalKinds? : Char → Option (TokenKind × TokenKind)
  | '!' => some (.bangEqual, .bang)
  | '=' => some (.equalEqual, .equal)
  | '<' => some (.lessEqual, .less)
  | '>' => some (.greaterEqual, .greater)
  | _ => none

/-- The digits of a number after its first one, with the text after the number. A point belongs to
the number only if a digit follows it. -/
def cutNumber (text : List Char) : List Char × List Char :=
  let whole := text.takeWhile Number.isDigit
  match text.dropWhile Number.isDigit with
  | '.' :: digit :: rest =>
    if Number.isDigit digit then
      (whole ++ '.' :: digit :: rest.takeWhile Number.isDigit, rest.dropWhile Number.isDigit)
    else (whole, '.' :: digit :: rest)
  | rest => (whole, rest)

/-- The longest piece that begins with the given character, and the text after it. -/
def cut (first : Char) (text : List Char) : Piece × List Char :=
  match singleKind? first, equalKinds? first with
  | some kind, _ => (⟨.lexeme kind, [first]⟩, text)
  | none, some (paired, alone) =>
    match text with
    | '=' :: rest => (⟨.lexeme paired, [first, '=']⟩, rest)
    | _ => (⟨.lexeme alone, [first]⟩, text)
  | none, none =>
    if first = '/' then
      match text with
      | '/' :: rest =>
        (⟨.comment, '/' :: '/' :: rest.takeWhile (· ≠ '\n')⟩, rest.dropWhile (· ≠ '\n'))
      | _ => (⟨.lexeme .slash, [first]⟩, text)
    else if first = ' ' ∨ first = '\r' ∨ first = '\t' then (⟨.blank, [first]⟩, text)
    else if first = '\n' then (⟨.lineEnd, [first]⟩, text)
    else if first = '"' then
      match text.dropWhile (· ≠ '"') with
      | quote :: rest =>
        (⟨.lexeme .string, first :: text.takeWhile (· ≠ '"') ++ [quote]⟩, rest)
      | [] => (⟨.unclosed, first :: text⟩, [])
    else if Number.isDigit first then
      let (digits, rest) := cutNumber text
      (⟨.lexeme .number, first :: digits⟩, rest)
    else if isLetter first then
      let word := first :: text.takeWhile isWordCharacter
      (⟨.lexeme (.ofWord (.ofList word)), word⟩, text.dropWhile isWordCharacter)
    else (⟨.stray, [first]⟩, text)

/-- A number and the text after it make up the text that was cut. -/
theorem cutNumber_append (text : List Char) : (cutNumber text).1 ++ (cutNumber text).2 = text := by
  have whole := List.takeWhile_append_dropWhile (p := Number.isDigit) (l := text)
  unfold cutNumber
  split
  next digit rest tail =>
    split
    · rw [tail] at whole
      simpa [List.takeWhile_append_dropWhile] using whole
    · simpa [tail] using whole
  next => simp

/-- A piece and the text after it make up the text that was cut. -/
theorem cut_append (first : Char) (text : List Char) :
    (cut first text).1.text ++ (cut first text).2 = first :: text := by
  have quoteSplit := List.takeWhile_append_dropWhile (p := (· ≠ '"')) (l := text)
  unfold cut
  split
  · rfl
  · split <;> rfl
  · split
    next isSlash =>
      subst isSlash
      split
      · simp [List.takeWhile_append_dropWhile]
      · rfl
    · split
      · rfl
      · split
        · rfl
        · split
          · split
            next closed =>
              rw [closed] at quoteSplit
              simpa using quoteSplit
            next => simp
          · split
            · simpa using cutNumber_append text
            · split
              · simp [List.takeWhile_append_dropWhile]
              · rfl

/-- A piece holds at least the character it begins with. -/
theorem cut_rest_length (first : Char) (text : List Char) :
    (cut first text).2.length ≤ text.length := by
  have nonempty : (cut first text).1.text ≠ [] := by
    unfold cut
    repeat' split
    all_goals simp
  have lengths := congrArg List.length (cut_append first text)
  have positive := List.length_pos_iff.mpr nonempty
  simp only [List.length_append, List.length_cons] at lengths
  omega

/-- Cuts at most `fuel` pieces, after those already cut. -/
def piecesOnto (done : List Piece) : Nat → List Char → List Piece
  | fuel + 1, first :: text =>
    let found := cut first text
    piecesOnto (found.1 :: done) fuel found.2
  | _, _ => done.reverse

/-- The pieces of a text in order. -/
def pieces (text : List Char) : List Piece := piecesOnto [] text.length text

/-- Pieces are cut behind those that were cut before. -/
theorem piecesOnto_eq (done : List Piece) (fuel : Nat) (text : List Char) :
    piecesOnto done fuel text = done.reverse ++ piecesOnto [] fuel text := by
  induction fuel generalizing done text with
  | zero => simp [piecesOnto]
  | succ fuel inductionHypothesis =>
    cases text with
    | nil => simp [piecesOnto]
    | cons first text =>
      simp only [piecesOnto]
      rw [inductionHypothesis, inductionHypothesis [_]]
      simp

/-- Any budget that is as long as the text is enough. -/
theorem piecesOnto_fuel {fuel : Nat} {text : List Char} (enough : text.length ≤ fuel) :
    piecesOnto [] fuel text = pieces text := by
  unfold pieces
  suffices general : ∀ other, text.length ≤ other →
      piecesOnto [] fuel text = piecesOnto [] other text from general _ (Nat.le_refl _)
  induction fuel generalizing text with
  | zero =>
    intro other _
    obtain rfl : text = [] := List.length_eq_zero_iff.mp (Nat.le_zero.mp enough)
    cases other <;> rfl
  | succ fuel inductionHypothesis =>
    intro other enoughToo
    cases text with
    | nil => cases other <;> rfl
    | cons first text =>
      cases other with
      | zero => simp at enoughToo
      | succ other =>
        simp only [List.length_cons, Nat.add_le_add_iff_right] at enough enoughToo
        have shorter := cut_rest_length first text
        simp only [piecesOnto]
        rw [piecesOnto_eq, piecesOnto_eq [_] other,
          inductionHypothesis (by omega) other (by omega)]

/-- The empty text has no pieces. -/
@[simp] theorem pieces_nil : pieces [] = [] := rfl

/-- The pieces of a text are its longest first piece and the pieces of what follows. -/
theorem pieces_cons (first : Char) (text : List Char) :
    pieces (first :: text) = (cut first text).1 :: pieces (cut first text).2 := by
  have shorter := cut_rest_length first text
  rw [pieces, List.length_cons, piecesOnto, piecesOnto_eq, piecesOnto_fuel shorter]
  rfl

end LoxLang.Source
