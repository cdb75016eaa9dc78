import LoxLang.Source.Scan
import LoxLang.Proofs.Source.Tiling

/-!
# Scans are exact

`Told` says without a scan which tokens and which errors belong to pieces that follow one another.
Together with the pieces that tile a text it settles the scan of the text.
-/

namespace LoxLang.Source

/-! ## Scans piece by piece -/

/-- The scan of pieces that follow one another from a line on. -/
def scanOf (line : Int) (parts : List Piece) : Scan :=
  .ofPieces (placeOnto [] line parts).1 (placeOnto [] line parts).2

/-- To scan is to cut into pieces and to place them. -/
theorem scanFrom_eq (line : Int) (text : List Char) :
    scanFrom line text = scanOf line (pieces text) := rfl

/-- Pieces are placed behind those that were placed before. -/
private theorem placeOnto_eq (done : List PlacedPiece) (line : Int) (parts : List Piece) :
    placeOnto done line parts =
      (done.reverse ++ (placeOnto [] line parts).1, (placeOnto [] line parts).2) := by
  induction parts generalizing done line with
  | nil => simp [placeOnto]
  | cons piece parts inductionHypothesis =>
    rw [placeOnto, placeOnto, inductionHypothesis, inductionHypothesis [_]]
    simp

/-- A piece adds its token or its error, and what follows it begins on the line it ends on. -/
theorem scanOf_cons (line : Int) (piece : Piece) (parts : List Piece) :
    scanOf line (piece :: parts) =
      let placed : PlacedPiece := ⟨piece, lineAfter line piece.text⟩
      let further := scanOf placed.line parts
      ⟨placed.token?.toList ++ further.tokens, further.endLine,
        placed.error?.toList ++ further.errors⟩ := by
  unfold scanOf
  rw [placeOnto, placeOnto_eq]
  unfold Scan.ofPieces
  simp only [List.reverse_singleton, List.singleton_append, List.filterMap_cons]
  cases PlacedPiece.token? _ <;> cases PlacedPiece.error? _ <;> rfl

/-! ## What pieces tell -/

/-- The value that a lexeme stands for: the text between the quotes of a string, the double of the
digits of a number, and nothing for every other lexeme. -/
inductive Denotes : TokenKind → List Char → Literal → Prop where
  | string {body : List Char} : Denotes .string ('"' :: body ++ ['"']) (.text (.ofList body))
  | number {text : List Char} {value : Float} (reads : Number.ofText? (.ofList text) = some value) :
      Denotes .number text (.number value)
  | nothing {kind : TokenKind} {text : List Char} (noString : kind ≠ .string)
      (noNumber : kind ≠ .number) : Denotes kind text .nil

/-- The tokens and errors of pieces that follow one another from a line on, in order. Each stands on
the line on which its piece ends; the token that ends the text stands on the last one. -/
inductive Told : Int → List Piece → List Token → List ScanError → Prop where
  | done {line : Int} : Told line [] [.endOfText line] []
  | lexeme {line : Int} {kind : TokenKind} {text : List Char} {literal : Literal}
      {parts : List Piece} {tokens : List Token} {errors : List ScanError}
      (denotes : Denotes kind text literal)
      (further : Told (lineAfter line text) parts tokens errors) :
      Told line (⟨.lexeme kind, text⟩ :: parts)
        (⟨kind, .ofList text, literal, lineAfter line text⟩ :: tokens) errors
  | layout {line : Int} {kind : PieceKind} {text : List Char} {parts : List Piece}
      {tokens : List Token} {errors : List ScanError}
      (isLayout : kind ∈ [.blank, .lineEnd, .comment])
      (further : Told (lineAfter line text) parts tokens errors) :
      Told line (⟨kind, text⟩ :: parts) tokens errors
  | stray {line : Int} {text : List Char} {parts : List Piece} {tokens : List Token}
      {errors : List ScanError} (further : Told (lineAfter line text) parts tokens errors) :
      Told line (⟨.stray, text⟩ :: parts) tokens
        (⟨.unexpectedCharacter, lineAfter line text⟩ :: errors)
  | unclosed {line : Int} {text : List Char} {parts : List Piece} {tokens : List Token}
      {errors : List ScanError} (further : Told (lineAfter line text) parts tokens errors) :
      Told line (⟨.unclosed, text⟩ :: parts) tokens
        (⟨.unterminatedString, lineAfter line text⟩ :: errors)

/-! ## The values of lexemes -/

/-- A number that begins with a digit is read without a sign. -/
private theorem ofText?_digits {whole mark : List Char} {value : Number.Decimal}
    (begins : whole ≠ []) (wholeDigits : ∀ digit ∈ whole, Number.isDigit digit = true)
    (reads : Number.Decimal.ofText? (whole ++ mark) = some value) :
    Number.ofText? (.ofList (whole ++ mark)) = some (value.toFloat false) := by
  obtain ⟨first, tail, rfl⟩ := List.exists_cons_of_ne_nil begins
  rw [List.cons_append] at reads ⊢
  have isFirst := (List.forall_mem_cons.mp wholeDigits).1
  have noSign : first ≠ '-' ∧ first ≠ '+' ∧ first ≠ 'i' ∧ first ≠ 'n' := by
    refine ⟨?_, ?_, ?_, ?_⟩ <;> (rintro rfl; cases isFirst)
  have isSplit : Number.splitSign (first :: (tail ++ mark)) = (false, first :: (tail ++ mark)) := by
    simp [Number.splitSign, noSign.1, noSign.2.1]
  have noInfinity : first :: (tail ++ mark) ≠ "inf".toList := fun same =>
    noSign.2.2.1 (List.cons.inj same).1
  have noNan : first :: (tail ++ mark) ≠ "nan".toList := fun same =>
    noSign.2.2.2 (List.cons.inj same).1
  simp only [Number.ofText?, String.toList_ofList, isSplit, noInfinity, noNan, if_false, reads,
    Option.map_some]

/-- A number is read as its digits. -/
theorem ofText?_of_lexeme {text : List Char} (isLexeme : Lexeme .number text) :
    Number.ofText? (.ofList text) = some ((Number.Decimal.ofLiteral text).toFloat false) := by
  have atEnd : ∀ character ∈ ([] : List Char).head?, Number.isDigit character = false := by simp
  cases isLexeme with
  | mark isMark => simp [marks] at isMark
  | @keyword word kind isKeyword => simp [TokenKind.keywords] at isKeyword
  | whole nonempty areDigits =>
    obtain ⟨isWhole, isRest⟩ := takeWhile_append_of_stops areDigits atEnd
    have reads : Number.Decimal.ofText? (text ++ []) = some (Number.Decimal.ofLiteral text) := by
      rw [List.append_nil] at isWhole isRest ⊢
      simp [Number.Decimal.ofText?, Number.Decimal.ofLiteral, isWhole, isRest, nonempty,
        Number.exponentOfText?]
    have asNumber := ofText?_digits nonempty areDigits reads
    rwa [List.append_nil] at asNumber
  | @fraction whole digits begins wholeDigits nonempty areDigits =>
    have atPoint : ∀ character ∈ ('.' :: digits).head?, Number.isDigit character = false := by
      rintro _ ⟨⟩
      rfl
    obtain ⟨isWhole, isRest⟩ := takeWhile_append_of_stops wholeDigits atPoint
    obtain ⟨isFraction, isEnd⟩ := takeWhile_append_of_stops areDigits atEnd
    rw [List.append_nil] at isFraction isEnd
    refine ofText?_digits begins wholeDigits ?_
    simp [Number.Decimal.ofText?, Number.Decimal.ofLiteral, isWhole, isRest, isFraction, isEnd,
      begins, Number.exponentOfText?]

/-- A string lexeme is a text between quotes. -/
theorem Lexeme.quoted {text : List Char} (isLexeme : Lexeme .string text) :
    ∃ body, text = '"' :: body ++ ['"'] ∧ '"' ∉ body := by
  cases isLexeme with
  | mark isMark => simp [marks] at isMark
  | @keyword word kind isKeyword => simp [TokenKind.keywords] at isKeyword
  | @string body noQuote => exact ⟨body, rfl, noQuote⟩

/-- The value that a scan finds for a lexeme is the one that the lexeme stands for. -/
theorem Lexeme.denotes_iff {kind : TokenKind} {text : List Char} (isLexeme : Lexeme kind text)
    {literal : Literal} : Denotes kind text literal ↔ literalOf kind text = literal := by
  have isString (body : List Char) :
      literalOf .string ('"' :: body ++ ['"']) = .text (.ofList body) := by
    simp [literalOf]
  constructor
  · rintro (_ | reads | ⟨noString, noNumber⟩)
    · exact isString _
    · rw [ofText?_of_lexeme isLexeme] at reads
      rw [literalOf, Option.some.inj reads]
    · unfold literalOf
      split
      · exact absurd rfl noString
      · exact absurd rfl noNumber
      · rfl
  · rintro rfl
    by_cases string : kind = .string
    · subst string
      obtain ⟨body, rfl, -⟩ := isLexeme.quoted
      rw [isString]
      exact .string
    · by_cases number : kind = .number
      · subst number
        exact .number (ofText?_of_lexeme isLexeme)
      · have isNothing : literalOf kind text = .nil := by
          unfold literalOf
          split
          · exact absurd rfl string
          · exact absurd rfl number
          · rfl
        rw [isNothing]
        exact .nothing string number

/-! ## The scan of a text -/

/-- Every lexeme piece of a text is a lexeme of its kind. -/
theorem lexeme_of_mem_pieces {text : List Char} {piece : Piece} (isIn : piece ∈ pieces text)
    {kind : TokenKind} (isKind : piece.kind = .lexeme kind) : Lexeme kind piece.text := by
  have tiled : Tiled text (pieces text) := tiled_iff.mpr rfl
  generalize pieces text = parts at tiled isIn
  induction tiled with
  | done => cases isIn
  | piece front _ inductionHypothesis =>
    rcases List.mem_cons.mp isIn with rfl | isFurther
    · cases front <;> cases isKind
      assumption
    · exact inductionHypothesis isFurther

/-- Pieces tell what their scan finds, and nothing else. -/
theorem told_iff {parts : List Piece}
    (areLexemes : ∀ piece ∈ parts, ∀ kind, piece.kind = .lexeme kind → Lexeme kind piece.text)
    {line : Int} {tokens : List Token} {errors : List ScanError} :
    Told line parts tokens errors ↔
      (scanOf line parts).closedTokens = tokens ∧ (scanOf line parts).errors = errors := by
  induction parts generalizing line tokens errors with
  | nil =>
    constructor
    · rintro ⟨⟩
      exact ⟨rfl, rfl⟩
    · rintro ⟨rfl, rfl⟩
      exact .done
  | cons piece parts inductionHypothesis =>
    obtain ⟨isFirst, areFurther⟩ := List.forall_mem_cons.mp areLexemes
    obtain ⟨kind, text⟩ := piece
    rw [scanOf_cons]
    constructor
    · rintro (_ | ⟨denotes, further⟩ | ⟨isLayout, further⟩ | further | further)
      · obtain ⟨rfl, rfl⟩ := (inductionHypothesis areFurther).mp further
        obtain rfl := (isFirst _ rfl).denotes_iff.mp denotes
        exact ⟨rfl, rfl⟩
      · obtain ⟨rfl, rfl⟩ := (inductionHypothesis areFurther).mp further
        simp only [List.mem_cons, List.not_mem_nil, or_false] at isLayout
        rcases isLayout with rfl | rfl | rfl <;> exact ⟨rfl, rfl⟩
      · obtain ⟨rfl, rfl⟩ := (inductionHypothesis areFurther).mp further
        exact ⟨rfl, rfl⟩
      · obtain ⟨rfl, rfl⟩ := (inductionHypothesis areFurther).mp further
        exact ⟨rfl, rfl⟩
    · rintro ⟨rfl, rfl⟩
      have further : Told (lineAfter line text) parts _ _ :=
        (inductionHypothesis areFurther).mpr ⟨rfl, rfl⟩
      cases kind with
      | lexeme kind => exact .lexeme ((isFirst kind rfl).denotes_iff.mpr rfl) further
      | blank | lineEnd | comment => exact .layout (by decide) further
      | stray => exact .stray further
      | unclosed => exact .unclosed further

/-- No lexeme ends a text, and its kind is a reserved word's exactly if its text is reserved. -/
theorem Lexeme.kind_reserved {kind : TokenKind} {text : List Char} (isLexeme : Lexeme kind text) :
    kind ≠ .endOfFile ∧ (kind ∈ TokenKind.keywords.map (·.2) ↔
      String.ofList text ∈ TokenKind.keywords.map (·.1)) := by
  have notSpelled {first : Char} {tail : List Char} (noLetter : isLetter first = false) :
      String.ofList (first :: tail) ∉ TokenKind.keywords.map (·.1) := by
    intro isIn
    obtain ⟨entry, isEntry, same⟩ := List.mem_map.mp isIn
    have begins := (keywords_spelled entry isEntry).1
    rw [same, String.toList_ofList] at begins
    simp [noLetter] at begins
  have number {text : List Char} (begins : text.head?.any Number.isDigit = true) :
      String.ofList text ∉ TokenKind.keywords.map (·.1) := by
    cases text with
    | nil => cases begins
    | cons first tail =>
      refine notSpelled (Bool.eq_false_iff.mpr fun isLetter => ?_)
      simp [not_isDigit_of_isLetter isLetter] at begins
  cases isLexeme with
  | mark isMark =>
    have unreserved : ∀ entry ∈ marks, entry.2 ≠ .endOfFile ∧
        entry.2 ∉ TokenKind.keywords.map (·.2) ∧ entry.1.head?.any (!isLetter ·) = true := by
      decide
    obtain ⟨noEnd, noKeyword, noLetter⟩ := unreserved _ isMark
    cases text with
    | nil => cases noLetter
    | cons first tail =>
      exact ⟨noEnd, iff_of_false noKeyword (notSpelled (by simpa using noLetter))⟩
  | whole nonempty areDigits =>
    obtain ⟨first, tail, rfl⟩ := List.exists_cons_of_ne_nil nonempty
    have begins := (List.forall_mem_cons.mp areDigits).1
    exact ⟨by decide, iff_of_false (by decide) (number (by simpa using begins))⟩
  | fraction nonempty areDigits =>
    obtain ⟨first, tail, rfl⟩ := List.exists_cons_of_ne_nil nonempty
    have begins := (List.forall_mem_cons.mp areDigits).1
    exact ⟨by decide, iff_of_false (by decide) (number (by simpa using begins))⟩
  | @keyword word kind isKeyword =>
    have noEnd : ∀ entry ∈ TokenKind.keywords, entry.2 ≠ .endOfFile := by decide
    rw [String.ofList_toList]
    exact ⟨noEnd _ isKeyword, iff_of_true (List.mem_map.mpr ⟨_, isKeyword, rfl⟩)
      (List.mem_map.mpr ⟨_, isKeyword, rfl⟩)⟩
  | identifier _ _ notReserved =>
    refine ⟨by decide, iff_of_false (by decide) fun isIn => ?_⟩
    obtain ⟨entry, isEntry, same⟩ := List.mem_map.mp isIn
    exact notReserved entry.2 (same ▸ isEntry)
  | string => exact ⟨by decide, iff_of_false (by decide) (notSpelled (by decide))⟩

/-- A token has the kind and the text of a piece. -/
theorem mem_tokens_scanOf {line : Int} {parts : List Piece} {token : Token}
    (isIn : token ∈ (scanOf line parts).tokens) :
    ∃ piece ∈ parts, piece.kind = .lexeme token.kind ∧ token.lexeme = .ofList piece.text := by
  induction parts generalizing line with
  | nil => cases isIn
  | cons piece parts inductionHypothesis =>
    rw [scanOf_cons] at isIn
    rcases List.mem_append.mp isIn with isFirst | isFurther
    · refine ⟨piece, List.mem_cons_self, ?_⟩
      unfold PlacedPiece.token? at isFirst
      split at isFirst
      next kind isKind =>
        obtain rfl := List.mem_singleton.mp isFirst
        exact ⟨isKind, rfl⟩
      next => cases isFirst
    · obtain ⟨found, isFound, same⟩ := inductionHypothesis isFurther
      exact ⟨found, List.mem_cons_of_mem _ isFound, same⟩

/-- The pieces of a source text are its fronts one after the other, with nothing between them and
nothing left. Its tokens and errors are those that the pieces tell, and only the last token ends the
text. -/
theorem scan_exact (source : String) :
    (∀ parts, Tiled source.toList parts ↔ pieces source.toList = parts) ∧
      (pieces source.toList).flatMap (·.text) = source.toList ∧
      (∀ tokens errors, Told 1 (pieces source.toList) tokens errors ↔
        (scan source).closedTokens = tokens ∧ (scan source).errors = errors) ∧
      ∀ token ∈ (scan source).tokens, token.kind ≠ .endOfFile ∧
        (token.kind ∈ TokenKind.keywords.map (·.2) ↔
          token.lexeme ∈ TokenKind.keywords.map (·.1)) := by
  have areLexemes : ∀ piece ∈ pieces source.toList, ∀ kind, piece.kind = .lexeme kind →
      Lexeme kind piece.text := fun _ isIn _ isKind => lexeme_of_mem_pieces isIn isKind
  refine ⟨fun _ => tiled_iff, flatMap_pieces _, fun _ _ => told_iff areLexemes, ?_⟩
  intro token isIn
  obtain ⟨piece, isPiece, isKind, isText⟩ := mem_tokens_scanOf isIn
  rw [isText]
  exact (areLexemes piece isPiece _ isKind).kind_reserved

end LoxLang.Source
