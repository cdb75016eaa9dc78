import LoxLang.Proofs.Source.Layout

/-!
# Tokens and their text

A token keeps the text it was scanned from, and enough of it: the lexemes of a source text with
spaces between them are scanned as the same tokens, whatever the source held besides. Of the place
where that text stands a token keeps the line, which is the one on which the lexeme ends.
-/

namespace LoxLang

/-- The text of the token is a lexeme of its kind, and the literal is the value of that lexeme. -/
structure Token.Spelled (token : Token) : Prop where
  isLexeme : Source.Lexeme token.kind token.lexeme.toList
  isLiteral : token.literal = Source.literalOf token.kind token.lexeme.toList

namespace Token.Spelled

open Source

variable {token other : Token}

/-- Tokens with the same lexeme differ in their lines at most. -/
protected theorem sameButLine (spelled : token.Spelled) (otherSpelled : other.Spelled)
    (same : token.lexeme = other.lexeme) : token.SameButLine other := by
  obtain ⟨kind, lexeme, literal, line⟩ := token
  obtain ⟨otherKind, otherLexeme, otherLiteral, otherLine⟩ := other
  obtain rfl : lexeme = otherLexeme := same
  obtain rfl : otherKind = kind := spelled.isLexeme.kind_unique otherSpelled.isLexeme
  obtain rfl : otherLiteral = literal := otherSpelled.isLiteral.trans spelled.isLiteral.symm
  rfl

/-- So do tokens of a kind that has one lexeme only. -/
theorem sameButLine_of_kind (spelled : token.Spelled) (otherSpelled : other.Spelled)
    (same : other.kind = token.kind) (fixed : token.kind ∉ [.identifier, .string, .number]) :
    token.SameButLine other :=
  spelled.sameButLine otherSpelled (String.toList_inj.mp
    (spelled.isLexeme.text_unique (same ▸ otherSpelled.isLexeme) fixed).symm)

end Token.Spelled

namespace Source

/-- The tokens of pieces are spelled by their lexemes. -/
theorem spelled_of_mem_scanOf {line : Int} {parts : List Piece}
    (areLexemes : ∀ piece ∈ parts, ∀ kind, piece.kind = .lexeme kind → Lexeme kind piece.text) :
    ∀ token ∈ (scanOf line parts).tokens, token.Spelled := by
  induction parts generalizing line with
  | nil => exact List.forall_mem_nil _
  | cons piece parts inductionHypothesis =>
    obtain ⟨isFirst, areFurther⟩ := List.forall_mem_cons.mp areLexemes
    rw [scanOf_cons]
    refine List.forall_mem_append.mpr ⟨?_, inductionHypothesis areFurther⟩
    unfold PlacedPiece.token?
    split
    next kind isKind =>
      refine List.forall_mem_singleton.mpr ⟨?_, ?_⟩
      · rw [String.toList_ofList]
        exact isFirst kind isKind
      · rw [String.toList_ofList]
    next => exact List.forall_mem_nil _

/-- The tokens of every text have lexemes and literals that fit their kinds. -/
theorem spelled_of_mem_scan (source : String) : ∀ token ∈ (scan source).tokens, token.Spelled :=
  spelled_of_mem_scanOf fun _ isIn _ isKind => lexeme_of_mem_pieces isIn isKind

/-! ## Lexemes with spaces between them -/

/-- A lexeme on its own is one piece. -/
theorem pieces_lexeme {kind : TokenKind} {text : List Char} (isLexeme : Lexeme kind text) :
    pieces text = [⟨.lexeme kind, text⟩] := by
  obtain ⟨first, tail, rfl, goesOn⟩ := isLexeme.goesOn
  have noComment : ¬ ['/', '/'] <+: first :: tail := by
    rintro ⟨rest, same⟩
    obtain ⟨rfl, rfl⟩ := List.cons.inj same
    exact absurd goesOn.2 (List.cons_ne_nil _ _)
  have whole := cut_eq_of_lexeme (List.append_nil (first :: tail)).symm isLexeme
    (fun _ _ _ isPrefix => isPrefix.length_le) noComment
  rw [pieces_cons, whole, pieces_nil]

/-- A space ends a lexeme. -/
theorem pieces_lexeme_append {kind : TokenKind} {text : List Char} (isLexeme : Lexeme kind text)
    (rest : List Char) :
    pieces (text ++ ' ' :: rest) = ⟨.lexeme kind, text⟩ :: ⟨.blank, [' ']⟩ :: pieces rest := by
  have isPiece := pieces_lexeme isLexeme
  have isBlank : cut ' ' rest = (⟨.blank, [' ']⟩, rest) := front_iff.mp (.blank rfl (.inl rfl))
  rw [pieces_append (.inl (.inl rfl)) ?separates rest, isPiece, pieces_cons, isBlank]
  · rfl
  · rw [isPiece]
    rintro _ ⟨⟩
    exact ⟨nofun, nofun, fun _ => by decide⟩

/-- The lexemes of tokens with a space between each two. -/
def rendered (tokens : List Token) : String := " ".intercalate (tokens.map (·.lexeme))

/-- The token that ends a text has no lexeme, and leaves a space behind each other one. -/
theorem toList_rendered (tokens : List Token) (endLine : Int) :
    (rendered (tokens ++ [.endOfText endLine])).toList =
      tokens.flatMap fun token => token.lexeme.toList ++ [' '] := by
  induction tokens with
  | nil => rfl
  | cons token tokens inductionHypothesis =>
    obtain ⟨next, further, isRest⟩ :=
      List.exists_cons_of_ne_nil (List.append_ne_nil_of_right_ne_nil tokens
        (List.cons_ne_nil (Token.endOfText endLine) []))
    rw [List.flatMap_cons, ← inductionHypothesis, List.cons_append, isRest, rendered, rendered,
      List.map_cons, List.map_cons, String.intercalate_cons_cons, String.toList_append,
      String.toList_append]
    rfl

/-- Spelled tokens are scanned again from their lexemes, up to their lines. -/
theorem scanOf_rendered {tokens : List Token} (spelled : ∀ token ∈ tokens, token.Spelled)
    (line : Int) :
    let again := scanOf line (pieces (tokens.flatMap fun token => token.lexeme.toList ++ [' ']))
    again.errors = [] ∧ List.Forall₂ Token.SameButLine tokens again.tokens := by
  induction tokens generalizing line with
  | nil => exact ⟨rfl, .nil⟩
  | cons token tokens inductionHypothesis =>
    obtain ⟨⟨isLexeme, isLiteral⟩, areSpelled⟩ := List.forall_mem_cons.mp spelled
    obtain ⟨noErrors, same⟩ := inductionHypothesis areSpelled
      (lineAfter (lineAfter line token.lexeme.toList) [' '])
    rw [List.flatMap_cons, List.append_assoc, List.singleton_append,
      pieces_lexeme_append isLexeme, scanOf_cons]
    dsimp only
    rw [scanOf_cons]
    refine ⟨noErrors, .cons ?_ same⟩
    rw [Token.SameButLine, String.ofList_toList, ← isLiteral]

/-- Tokens that fit their kinds are scanned again from their lexemes with spaces between them. -/
theorem scan_rendered_of_spelled {tokens : List Token}
    (spelled : ∀ token ∈ tokens, token.Spelled) (endLine : Int) :
    let again := scan (rendered (tokens ++ [.endOfText endLine]))
    again.errors = [] ∧
      List.Forall₂ Token.SameButLine (tokens ++ [.endOfText endLine]) again.closedTokens := by
  obtain ⟨noErrors, same⟩ := scanOf_rendered spelled 1
  rw [scan, toList_rendered, scanFrom_eq]
  exact ⟨noErrors, List.rel_append same (.cons rfl .nil)⟩

/-- The tokens of a text, written with single spaces between their lexemes, are scanned without
errors as tokens of the same kinds, lexemes and literals. Nothing is asked of the text: it may hold
comments, characters that are no part of the language, and a string that is not closed. -/
theorem scan_rendered (source : String) :
    let again := scan (rendered (scan source).closedTokens)
    again.errors = [] ∧
      List.Forall₂ Token.SameButLine (scan source).closedTokens again.closedTokens :=
  scan_rendered_of_spelled (spelled_of_mem_scan source) (scan source).endLine

example : rendered (scan "a@/=1.b//c").closedTokens = "a / = 1 . b " := by decide +kernel

/-! ## Lines -/

/-- Only a string holds a line feed. -/
theorem Lexeme.lineFeed_not_mem {kind : TokenKind} {text : List Char}
    (isLexeme : Lexeme kind text) (noString : kind ≠ .string) : '\n' ∉ text := by
  have noDigit : Number.isDigit '\n' = false := rfl
  have noWord : isWordCharacter '\n' = false := rfl
  intro isIn
  cases isLexeme with
  | mark isMark =>
    have noLineFeed : ∀ entry ∈ marks, '\n' ∉ entry.1 := by decide
    exact noLineFeed _ isMark isIn
  | whole _ areDigits => simpa [noDigit] using areDigits _ isIn
  | fraction _ wholeDigits _ areDigits =>
    rcases List.mem_append.mp isIn with isWhole | isFraction
    · simpa [noDigit] using wholeDigits _ isWhole
    · rcases List.mem_cons.mp isFraction with isPoint | isDigit
      · cases isPoint
      · simpa [noDigit] using areDigits _ isDigit
  | keyword isKeyword =>
    have areWords := List.all_eq_true.mp (keywords_spelled _ isKeyword).2.1
    simpa [noWord] using areWords _ isIn
  | identifier begins goesOn =>
    rcases List.mem_cons.mp isIn with rfl | isFurther
    · cases begins
    · simpa [noWord] using goesOn _ isFurther
  | string => exact noString rfl

/-- A lexeme at its place in a text: all the text in front of it, and its own. -/
structure Occurrence where
  front : List Char
  text : List Char
deriving DecidableEq

/-- The line on which the lexeme begins: one plus the number of line feeds in front of it. -/
def Occurrence.startLine (occurrence : Occurrence) : Int := 1 + occurrence.front.count '\n'

/-- The lexemes among pieces that follow one another behind a text. -/
def occurrencesBehind (front : List Char) : List Piece → List Occurrence
  | [] => []
  | ⟨.lexeme _, text⟩ :: parts => ⟨front, text⟩ :: occurrencesBehind (front ++ text) parts
  | ⟨_, text⟩ :: parts => occurrencesBehind (front ++ text) parts

/-- The lexemes of a text in order, the last one being the empty one that ends the text. -/
def occurrences (source : String) : List Occurrence :=
  occurrencesBehind [] (pieces source.toList) ++ [⟨source.toList, []⟩]

/-- The token was built from the lexeme at this place. -/
structure Occurrence.IsOf (occurrence : Occurrence) (token : Token) : Prop where
  lexeme : token.lexeme = .ofList occurrence.text
  /-- The line is the one on which the lexeme ends. -/
  line : token.line = occurrence.startLine + occurrence.text.count '\n'
  noString : token.kind ≠ .string → '\n' ∉ occurrence.text

/-- A token stands on the line on which its lexeme begins if the lexeme holds no line feed. -/
theorem Occurrence.IsOf.line_eq_iff {occurrence : Occurrence} {token : Token}
    (isOf : occurrence.IsOf token) :
    token.line = occurrence.startLine ↔ '\n' ∉ occurrence.text := by
  rw [isOf.line, ← List.count_eq_zero]
  omega

/-- An occurrence stands somewhere in the text, with all that is in front of it. -/
theorem prefix_of_mem_occurrencesBehind (front : List Char) (parts : List Piece) :
    ∀ occurrence ∈ occurrencesBehind front parts,
      occurrence.front ++ occurrence.text <+: front ++ parts.flatMap (·.text) := by
  induction parts generalizing front with
  | nil => exact List.forall_mem_nil _
  | cons piece parts inductionHypothesis =>
    obtain ⟨kind, text⟩ := piece
    have further := inductionHypothesis (front ++ text)
    rw [List.flatMap_cons, ← List.append_assoc]
    cases kind with
    | lexeme kind => exact List.forall_mem_cons.mpr ⟨List.prefix_append _ _, further⟩
    | _ => exact further

/-- Tokens are built from the lexemes of their pieces, in order. -/
theorem isOf_scanOf {parts : List Piece}
    (areLexemes : ∀ piece ∈ parts, ∀ kind, piece.kind = .lexeme kind → Lexeme kind piece.text)
    (front : List Char) :
    List.Forall₂ Occurrence.IsOf (occurrencesBehind front parts)
      (scanOf (lineAfter 1 front) parts).tokens := by
  induction parts generalizing front with
  | nil => exact .nil
  | cons piece parts inductionHypothesis =>
    obtain ⟨isFirst, areFurther⟩ := List.forall_mem_cons.mp areLexemes
    obtain ⟨kind, text⟩ := piece
    have further := inductionHypothesis areFurther (front ++ text)
    rw [lineAfter_append] at further
    rw [scanOf_cons]
    cases kind with
    | lexeme kind =>
      exact .cons ⟨rfl, rfl, fun noString => (isFirst kind rfl).lineFeed_not_mem noString⟩ further
    | _ => exact further

/-- Every token of a text is built from a lexeme at its place, and stands on the line on which that
lexeme ends. This is the line on which it begins unless the lexeme is a string with a line feed. -/
theorem tokens_stand_on_last_lines (source : String) :
    (∀ occurrence ∈ occurrences source,
      occurrence.front ++ occurrence.text <+: source.toList) ∧
    List.Forall₂ (fun occurrence token =>
        occurrence.IsOf token ∧ (token.line = occurrence.startLine ↔ '\n' ∉ occurrence.text))
      (occurrences source) (scan source).closedTokens := by
  constructor
  · have within := prefix_of_mem_occurrencesBehind [] (pieces source.toList)
    rw [flatMap_pieces, List.nil_append] at within
    refine List.forall_mem_append.mpr ⟨within, List.forall_mem_singleton.mpr ?_⟩
    rw [List.append_nil]
  · have areLexemes : ∀ piece ∈ pieces source.toList, ∀ kind, piece.kind = .lexeme kind →
        Lexeme kind piece.text := fun _ isIn _ isKind => lexeme_of_mem_pieces isIn isKind
    have isEnd : Occurrence.IsOf ⟨source.toList, []⟩ (.endOfText (scan source).endLine) := by
      refine ⟨rfl, ?_, fun _ => List.not_mem_nil⟩
      have endLine := endLine_scanOf 1 (pieces source.toList)
      rw [flatMap_pieces] at endLine
      exact endLine.trans (Int.add_zero _).symm
    have all : List.Forall₂ Occurrence.IsOf (occurrences source) (scan source).closedTokens :=
      List.rel_append (isOf_scanOf areLexemes []) (.cons isEnd .nil)
    exact all.imp fun _ _ isOf => ⟨isOf, isOf.line_eq_iff⟩

/-- A string over two lines stands on the second one. -/
theorem string_not_on_first_line :
    ¬ List.Forall₂ (fun occurrence token => token.line = occurrence.startLine)
      (occurrences "\"\n\"") (scan "\"\n\"").closedTokens := by
  have isScan : (scan "\"\n\"").closedTokens =
      [⟨.string, "\"\n\"", .text "\n", 2⟩, .endOfText 2] := by
    cbv
  have areOccurrences : occurrences "\"\n\"" =
      [⟨[], ['"', '\n', '"']⟩, ⟨['"', '\n', '"'], []⟩] := by
    cbv
  rw [isScan, areOccurrences]
  rintro (_ | ⟨onFirst, -⟩)
  exact absurd onFirst (by decide)

end Source
end LoxLang
