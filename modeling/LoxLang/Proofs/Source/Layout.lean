import LoxLang.Proofs.Source.Telling
import LoxLang.Proofs.Syntax.Pairing

/-!
# Texts put together

A blank, a line end or a comment ends the lexeme in front of it. So the pieces of a text in front of
one are its pieces alone, and what follows has the tokens that it has alone, on later lines.
-/

namespace LoxLang.Source

/-- A character that can begin layout. -/
def BeginsLayout (character : Char) : Prop :=
  IsBlank character ∨ character = '\n' ∨ character = '/'

/-- The character does not go on the piece. A string that is not closed is gone on by anything, a
comment by anything but a line end, and a slash would go into a comment with another slash. -/
structure Separates (next : Char) (piece : Piece) : Prop where
  closed : piece.kind ≠ .unclosed
  comment : piece.kind = .comment → next = '\n'
  slash : piece.kind = .lexeme .slash → next ≠ '/'

/-- Layout does not go on with a word. -/
theorem BeginsLayout.not_isWordCharacter {next : Char} (begins : BeginsLayout next) :
    isWordCharacter next = false := by
  rcases begins with (rfl | rfl | rfl) | rfl | rfl <;> rfl

/-- Layout does not go on with a number. -/
theorem BeginsLayout.not_isDigit {next : Char} (begins : BeginsLayout next) :
    Number.isDigit next = false := by
  rcases begins with (rfl | rfl | rfl) | rfl | rfl <;> rfl

/-- Layout begins with nothing that could go on with a mark, a fraction or a string. -/
theorem BeginsLayout.ne {next : Char} (begins : BeginsLayout next) :
    next ≠ '=' ∧ next ≠ '.' ∧ next ≠ '"' := by
  rcases begins with (rfl | rfl | rfl) | rfl | rfl <;> decide

/-- What is taken from the front of a text stays the same if it ends inside the text or the
character behind it stops it. -/
theorem takeWhile_append_stop {p : Char → Bool} {text : List Char} {next : Char}
    (stops : text.dropWhile p = [] → p next = false) (rest : List Char) :
    (text ++ next :: rest).takeWhile p = text.takeWhile p ∧
      (text ++ next :: rest).dropWhile p = text.dropWhile p ++ next :: rest := by
  have whole := List.takeWhile_append_dropWhile (p := p) (l := text)
  have ends : ∀ character ∈ (text.dropWhile p ++ next :: rest).head?, p character = false := by
    have stopsInside := List.head?_dropWhile_not p text
    cases isRest : text.dropWhile p with
    | nil =>
      rintro _ ⟨⟩
      exact stops isRest
    | cons character further =>
      rw [isRest] at stopsInside
      rintro _ ⟨⟩
      simpa using stopsInside
  have split := takeWhile_append_of_stops (forall_mem_takeWhile p text) ends
  rwa [← List.append_assoc, whole] at split

/-- A number is cut off in front of layout as at the end of the text. -/
theorem cutNumber_append_layout {next : Char} (begins : BeginsLayout next)
    (text rest : List Char) :
    cutNumber (text ++ next :: rest) =
      ((cutNumber text).1, (cutNumber text).2 ++ next :: rest) := by
  have notDigit := begins.not_isDigit
  have stops (text : List Char) := takeWhile_append_stop (fun _ : text.dropWhile _ = [] => notDigit)
    rest
  unfold cutNumber
  rw [(stops text).1, (stops text).2]
  cases text.dropWhile Number.isDigit with
  | nil => simp [begins.ne.2.1]
  | cons character further =>
    by_cases isPoint : character = '.'
    · subst isPoint
      cases further with
      | nil => simp [notDigit]
      | cons digit further =>
        simp only [List.cons_append, (stops further).1, (stops further).2]
        split <;> rfl
    · simp [isPoint]

/-- A piece is cut alike from a longer text if it ends inside the shorter one, or if the character
behind that does not go on it. -/
theorem cut_append_layout {first next : Char} {text : List Char} (begins : BeginsLayout next)
    (separates : (cut first text).2 = [] → Separates next (cut first text).1) (rest : List Char) :
    cut first (text ++ next :: rest) =
      ((cut first text).1, (cut first text).2 ++ next :: rest) := by
  obtain ⟨notEqual, -, notQuote⟩ := begins.ne
  unfold cut at separates ⊢
  split
  next => rfl
  next =>
    cases text with
    | nil => simp [notEqual]
    | cons character text =>
      by_cases isEqual : character = '='
      · subst isEqual
        rfl
      · simp [isEqual]
  next noSingle noPair =>
    simp only [noSingle, noPair] at separates
    split
    next isSlash =>
      simp only [isSlash, if_true] at separates
      cases text with
      | nil =>
        have notSlash := (separates rfl).slash rfl
        simp [notSlash]
      | cons character text =>
        by_cases isSecond : character = '/'
        · subst isSecond
          have stops (isNil : text.dropWhile (· ≠ '\n') = []) : decide (next ≠ '\n') = false := by
            simpa using (separates isNil).comment rfl
          obtain ⟨isBody, isRest⟩ := takeWhile_append_stop stops rest
          simp only [List.cons_append, isBody, isRest]
        · simp [isSecond]
    next noSlash =>
      simp only [noSlash, if_false] at separates
      split
      next => rfl
      next noBlank =>
        simp only [noBlank, if_false] at separates
        split
        next => rfl
        next noLineEnd =>
          simp only [noLineEnd, if_false] at separates
          split
          next isQuote =>
            simp only [isQuote, if_true] at separates
            cases isRest : text.dropWhile (· ≠ '"') with
            | nil =>
              rw [isRest] at separates
              exact absurd rfl (separates rfl).closed
            | cons quote further =>
              obtain ⟨isBody, isLeft⟩ := @takeWhile_append_stop (· ≠ '"') text next
                (fun isNil => absurd (isRest.symm.trans isNil) (List.cons_ne_nil _ _)) rest
              rw [isBody, isLeft, isRest, List.cons_append]
          next =>
            split
            next => rw [cutNumber_append_layout begins]
            next =>
              split
              next =>
                obtain ⟨isWord, isLeft⟩ := @takeWhile_append_stop isWordCharacter text next
                  (fun _ => begins.not_isWordCharacter) rest
                rw [isWord, isLeft]
              next => rfl

/-- The pieces of a text stay the same if what stands behind it begins with a character of layout
that does not go on the last of them. -/
theorem pieces_append {front : List Char} {next : Char} (begins : BeginsLayout next)
    (separates : ∀ piece ∈ (pieces front).getLast?, Separates next piece) (rest : List Char) :
    pieces (front ++ next :: rest) = pieces front ++ pieces (next :: rest) := by
  generalize bound : front.length = count
  induction count using Nat.strongRecOn generalizing front with
  | _ count inductionHypothesis =>
    cases front with
    | nil => rfl
    | cons first text =>
      have shorter := cut_rest_length first text
      rw [List.length_cons] at bound
      rw [pieces_cons, List.getLast?_cons] at separates
      have separatesFirst (isNil : (cut first text).2 = []) :
          Separates next (cut first text).1 := by
        rw [isNil] at separates
        exact separates _ rfl
      have separatesRest :
          ∀ piece ∈ (pieces (cut first text).2).getLast?, Separates next piece := by
        intro piece isLast
        rw [Option.mem_def.mp isLast] at separates
        exact separates _ rfl
      rw [List.cons_append, pieces_cons, cut_append_layout begins separatesFirst,
        pieces_cons first text, List.cons_append,
        inductionHypothesis _ (by omega) separatesRest rfl]

/-! ## Scans put together -/

/-- The pieces of one list and those of another behind them. -/
theorem scanOf_append (line : Int) (front behind : List Piece) :
    scanOf line (front ++ behind) =
      let first := scanOf line front
      let second := scanOf first.endLine behind
      ⟨first.tokens ++ second.tokens, second.endLine, first.errors ++ second.errors⟩ := by
  induction front generalizing line with
  | nil => rfl
  | cons piece front inductionHypothesis =>
    rw [List.cons_append, scanOf_cons, scanOf_cons]
    simp only [inductionHypothesis, List.append_assoc]

/-- A text ends on the line that its characters lead to. -/
theorem endLine_scanOf (line : Int) (parts : List Piece) :
    (scanOf line parts).endLine = lineAfter line (parts.flatMap (·.text)) :=
  placeOnto_line [] line parts

/-- The same error on a later line. -/
def ScanError.moved (error : ScanError) (lines : Int) : ScanError :=
  { error with line := error.line + lines }

/-- A scan from a later line finds the same on later lines. -/
theorem scanOf_moved (line lines : Int) (parts : List Piece) :
    scanOf (line + lines) parts =
      let found := scanOf line parts
      ⟨found.tokens.map (·.moved lines), found.endLine + lines,
        found.errors.map (·.moved lines)⟩ := by
  induction parts generalizing line with
  | nil => rfl
  | cons piece parts inductionHypothesis =>
    have sameLine : lineAfter (line + lines) piece.text = lineAfter line piece.text + lines := by
      unfold lineAfter
      omega
    obtain ⟨kind, text⟩ := piece
    rw [scanOf_cons, scanOf_cons, sameLine]
    simp only [inductionHypothesis, List.map_append]
    cases kind <;> rfl

/-- Pieces have the same tokens up to their lines wherever they begin. -/
theorem sameButLine_scanOf (line other : Int) (parts : List Piece) :
    List.Forall₂ Token.SameButLine (scanOf line parts).closedTokens
        (scanOf other parts).closedTokens ∧
      ((scanOf line parts).errors = [] → (scanOf other parts).errors = []) := by
  have isMoved := scanOf_moved line (other - line) parts
  rw [show line + (other - line) = other by omega] at isMoved
  rw [isMoved]
  refine ⟨List.rel_append ?_ (.cons rfl .nil), fun noErrors => List.map_eq_nil_iff.mpr noErrors⟩
  exact List.forall₂_map_right_iff.mpr (List.forall₂_same.mpr fun token _ => rfl)

/-! ## Two texts on lines of their own -/

/-- A string that is not closed is reported, and nothing else is reported as one. -/
theorem unterminated_iff {line : Int} {parts : List Piece} :
    (∃ error ∈ (scanOf line parts).errors, error.problem = .unterminatedString) ↔
      ∃ piece ∈ parts, piece.kind = .unclosed := by
  induction parts generalizing line with
  | nil => simp [show (scanOf line []).errors = [] from rfl]
  | cons piece parts inductionHypothesis =>
    rw [scanOf_cons]
    simp only [List.mem_append, or_and_right, exists_or, inductionHypothesis, List.mem_cons,
      exists_eq_left]
    refine or_congr_left ?_
    obtain ⟨kind, text⟩ := piece
    cases kind <;> simp [PlacedPiece.error?]

/-- A text that closes its strings and another one from the next line on have the tokens and the
errors of both, those of the second on later lines. -/
theorem scan_joined {former : String}
    (closed : ∀ error ∈ (scan former).errors, error.problem ≠ .unterminatedString)
    (latter : String) :
    scan (former ++ "\n" ++ latter) =
      let lines : Int := former.toList.count '\n' + 1
      ⟨(scan former).tokens ++ (scan latter).tokens.map (·.moved lines),
        (scan latter).endLine + lines,
        (scan former).errors ++ (scan latter).errors.map (·.moved lines)⟩ := by
  have isFormer : scanOf 1 (pieces former.toList) = scan former := rfl
  have isLatter : scanOf 1 (pieces latter.toList) = scan latter := rfl
  have separates : ∀ piece ∈ (pieces former.toList).getLast?, Separates '\n' piece := by
    intro piece isLast
    refine ⟨fun isUnclosed => ?_, fun _ => rfl, fun _ => by decide⟩
    obtain ⟨error, isIn, isUnterminated⟩ :=
      unterminated_iff.mpr ⟨piece, List.mem_of_getLast? isLast, isUnclosed⟩
    exact closed error (isFormer ▸ isIn) isUnterminated
  have whole := pieces_append (.inr (.inl rfl)) separates latter.toList
  have isLineEnd : cut '\n' latter.toList = (⟨.lineEnd, ['\n']⟩, latter.toList) :=
    front_iff.mp (.lineEnd rfl)
  rw [pieces_cons, isLineEnd] at whole
  have endLine : lineAfter (scan former).endLine ['\n'] =
      1 + ((former.toList.count '\n' : Int) + 1) := by
    unfold scan
    rw [scanFrom_eq, endLine_scanOf, flatMap_pieces]
    simp only [lineAfter, List.count_singleton_self]
    omega
  have isText : (former ++ "\n" ++ latter).toList = former.toList ++ '\n' :: latter.toList := by
    rw [String.toList_append, String.toList_append, List.append_assoc]
    rfl
  rw [scan, scanFrom_eq, isText, whole, scanOf_append, isFormer]
  dsimp only
  rw [scanOf_cons]
  dsimp only
  rw [endLine, scanOf_moved, isLatter]
  rfl

/-- Scanning goes line by line: a text that closes its strings, a line end and another text have the
tokens of the first without the one that ends it, then those of the second, and the errors of the
first, then those of the second. All of the second is as many lines further on as the first has line
ends, those inside strings included, and one more. -/
theorem scan_of_lines {former : String}
    (closed : ∀ error ∈ (scan former).errors, error.problem ≠ .unterminatedString)
    (latter : String) :
    let whole := scan (former ++ "\n" ++ latter)
    let lines : Int := former.toList.count '\n' + 1
    whole.closedTokens = (scan former).tokens ++ (scan latter).closedTokens.map (·.moved lines) ∧
      whole.errors = (scan former).errors ++ (scan latter).errors.map (·.moved lines) := by
  intro whole lines
  have joined := scan_joined closed latter
  refine ⟨?tokens, congrArg (·.errors) joined⟩
  calc whole.closedTokens
      = ((scan former).tokens ++ (scan latter).tokens.map (·.moved lines)) ++
          [.endOfText ((scan latter).endLine + lines)] := congrArg (·.closedTokens) joined
    _ = (scan former).tokens ++ (scan latter).closedTokens.map (·.moved lines) := by
      rw [List.append_assoc, Scan.closedTokens, List.map_append]
      rfl

/-- The first text has a line end in a string, a character that is no part of the language and a
comment at its end; the second has another such character. -/
theorem scan_of_lines_errors :
    let whole := scan ("\"a\nb\" @ x // c" ++ "\n" ++ "= #")
    whole.closedTokens = [⟨.string, "\"a\nb\"", .text "a\nb", 2⟩, ⟨.identifier, "x", .nil, 2⟩,
        ⟨.equal, "=", .nil, 3⟩, .endOfText 3] ∧
      whole.errors = [⟨.unexpectedCharacter, 2⟩, ⟨.unexpectedCharacter, 3⟩] := by
  have isFormer : scan "\"a\nb\" @ x // c" =
      ⟨[⟨.string, "\"a\nb\"", .text "a\nb", 2⟩, ⟨.identifier, "x", .nil, 2⟩], 2,
        [⟨.unexpectedCharacter, 2⟩]⟩ := by
    cbv
  obtain ⟨tokens, errors⟩ := @scan_of_lines "\"a\nb\" @ x // c" (by simp [isFormer]) "= #"
  rw [isFormer] at tokens errors
  exact ⟨tokens, errors⟩

/-- A string that is not closed goes on through all the text behind it if that has no quote. -/
theorem unclosed_append {front : List Char} {next : Char} {rest : List Char}
    (begins : BeginsLayout next) (noQuote : '"' ∉ next :: rest)
    (unclosed : ∃ piece ∈ pieces front, piece.kind = .unclosed) :
    ∃ piece ∈ pieces (front ++ next :: rest), piece.kind = .unclosed := by
  generalize bound : front.length = count
  induction count using Nat.strongRecOn generalizing front with
  | _ count inductionHypothesis =>
    cases front with
    | nil => simp at unclosed
    | cons first text =>
      have shorter := cut_rest_length first text
      rw [List.length_cons] at bound
      rw [pieces_cons, List.exists_mem_cons_iff] at unclosed
      rw [List.cons_append, pieces_cons, List.exists_mem_cons_iff]
      have isFront := front_cut first text
      obtain ⟨⟨found, left⟩, isCut⟩ : ∃ parts, cut first text = parts := ⟨_, rfl⟩
      rw [isCut] at isFront unclosed shorter
      change left.length ≤ text.length at shorter
      rcases unclosed with isUnclosed | further
      · -- The first piece is the string: it takes the longer text as a whole, too.
        cases isFront with
        | unclosed splits noQuoteInside =>
          obtain ⟨rfl, rfl⟩ := List.cons.inj splits
          have isWhole := front_iff.mp (.unclosed rfl fun isIn =>
            (List.mem_append.mp isIn).elim noQuoteInside noQuote)
          exact .inl (congrArg (·.1.kind) isWhole)
        | lexeme | blank | lineEnd | comment | stray => cases isUnclosed
      · have notEnd : left ≠ [] := by
          rintro rfl
          simp at further
        have isLonger : cut first (text ++ next :: rest) = _ := cut_append_layout begins
          (fun isEnd => absurd ((congrArg Prod.snd isCut).symm.trans isEnd) notEnd) rest
        rw [isLonger, isCut]
        exact .inr (inductionHypothesis left.length (by omega) further rfl)

/-! ## Inserted layout -/

/-- The text consists of blanks, line ends and comments, in front of another text. A comment goes up
to a line end, which may be the first character of that text, or to the end of both. -/
inductive IsLayout (behind : List Char) : List Char → Prop where
  | nil : IsLayout behind []
  | blank {character : Char} {rest : List Char} (isBlank : IsBlank character)
      (isLayout : IsLayout behind rest) : IsLayout behind (character :: rest)
  | lineEnd {rest : List Char} (isLayout : IsLayout behind rest) : IsLayout behind ('\n' :: rest)
  | comment {body rest : List Char} (sameLine : '\n' ∉ body)
      (ends : rest ++ behind = [] ∨ (rest ++ behind).head? = some '\n')
      (isLayout : IsLayout behind rest) : IsLayout behind ('/' :: '/' :: body ++ rest)

/-- Inserted layout begins as layout does. -/
theorem IsLayout.begins {layout behind : List Char} (isLayout : IsLayout behind layout) :
    ∀ next ∈ layout.head?, BeginsLayout next := by
  cases isLayout with
  | nil => exact nofun
  | blank isBlank =>
    rintro _ ⟨⟩
    exact .inl isBlank
  | lineEnd =>
    rintro _ ⟨⟩
    exact .inr (.inl rfl)
  | comment =>
    rintro _ ⟨⟩
    exact .inr (.inr rfl)

/-- Layout is cut into pieces of its own. -/
theorem pieces_layout {layout behind : List Char} (isLayout : IsLayout behind layout) :
    ∃ parts : List Piece, pieces (layout ++ behind) = parts ++ pieces behind ∧
      ∀ piece ∈ parts, piece.kind ∈ [.blank, .lineEnd, .comment] := by
  induction isLayout with
  | nil => exact ⟨[], rfl, List.forall_mem_nil _⟩
  | @blank character rest isBlank _ inductionHypothesis =>
    obtain ⟨parts, same, areLayout⟩ := inductionHypothesis
    have isCut : cut character (rest ++ behind) = (⟨.blank, [character]⟩, rest ++ behind) :=
      front_iff.mp (.blank rfl isBlank)
    refine ⟨⟨.blank, [character]⟩ :: parts, ?_, List.forall_mem_cons.mpr ⟨by simp, areLayout⟩⟩
    rw [List.cons_append, pieces_cons, isCut, same]
    rfl
  | @lineEnd rest _ inductionHypothesis =>
    obtain ⟨parts, same, areLayout⟩ := inductionHypothesis
    have isCut : cut '\n' (rest ++ behind) = (⟨.lineEnd, ['\n']⟩, rest ++ behind) :=
      front_iff.mp (.lineEnd rfl)
    refine ⟨⟨.lineEnd, ['\n']⟩ :: parts, ?_, List.forall_mem_cons.mpr ⟨by decide, areLayout⟩⟩
    rw [List.cons_append, pieces_cons, isCut, same]
    rfl
  | @comment body rest sameLine ends _ inductionHypothesis =>
    obtain ⟨parts, same, areLayout⟩ := inductionHypothesis
    have isCut : cut '/' ('/' :: body ++ (rest ++ behind)) =
        (⟨.comment, '/' :: '/' :: body⟩, rest ++ behind) :=
      front_iff.mp (.comment rfl sameLine ends)
    refine ⟨⟨.comment, '/' :: '/' :: body⟩ :: parts, ?_,
      List.forall_mem_cons.mpr ⟨by simp, areLayout⟩⟩
    simp only [List.append_assoc, List.cons_append] at isCut ⊢
    rw [pieces_cons, isCut, same]

/-- Layout has no tokens and no errors. -/
theorem scanOf_layout {parts : List Piece}
    (areLayout : ∀ piece ∈ parts, piece.kind ∈ [.blank, .lineEnd, .comment]) (line : Int) :
    (scanOf line parts).tokens = [] ∧ (scanOf line parts).errors = [] := by
  induction parts generalizing line with
  | nil => exact ⟨rfl, rfl⟩
  | cons piece parts inductionHypothesis =>
    obtain ⟨isLayout, areLayout⟩ := List.forall_mem_cons.mp areLayout
    obtain ⟨noTokens, noErrors⟩ := inductionHypothesis areLayout (lineAfter line piece.text)
    obtain ⟨kind, text⟩ := piece
    rw [scanOf_cons]
    simp only [noTokens, noErrors]
    cases kind with
    | blank | lineEnd | comment => exact ⟨rfl, rfl⟩
    | lexeme | stray | unclosed => simp at isLayout

/-- A place between two pieces of a text at which layout can stand. -/
structure Between (front layout behind : List Char) : Prop where
  splits : pieces (front ++ behind) = pieces front ++ pieces behind
  isLayout : IsLayout behind layout
  separates : ∀ next ∈ layout.head?, ∀ piece ∈ (pieces front).getLast?, Separates next piece

/-- Layout between two pieces changes the lines of the tokens behind it, and nothing else. -/
theorem sameButLine_scan {front layout behind : String}
    (between : Between front.toList layout.toList behind.toList) :
    List.Forall₂ Token.SameButLine (scan (front ++ behind)).closedTokens
        (scan (front ++ layout ++ behind)).closedTokens ∧
      ((scan (front ++ behind)).errors = [] → (scan (front ++ layout ++ behind)).errors = []) := by
  obtain ⟨splits, isLayout, separates⟩ := between
  obtain ⟨parts, isParts, areLayout⟩ := pieces_layout isLayout
  have whole : pieces (front.toList ++ (layout.toList ++ behind.toList)) =
      pieces front.toList ++ pieces (layout.toList ++ behind.toList) := by
    have begins := isLayout.begins
    cases isNext : layout.toList with
    | nil => exact splits
    | cons next rest =>
      rw [isNext] at begins separates
      exact pieces_append (begins next rfl) (separates next rfl) _
  have sameTokens (line other : Int) : List.Forall₂ Token.SameButLine
      (scanOf line (pieces behind.toList)).closedTokens
      (scanOf other (pieces behind.toList)).closedTokens := (sameButLine_scanOf _ _ _).1
  have noErrors (line other : Int) : (scanOf line (pieces behind.toList)).errors = [] →
      (scanOf other (pieces behind.toList)).errors = [] := (sameButLine_scanOf _ _ _).2
  unfold scan
  rw [String.toList_append, String.toList_append, String.toList_append, List.append_assoc,
    scanFrom_eq, scanFrom_eq, splits, whole, isParts]
  simp only [scanOf_append, Scan.closedTokens, List.append_assoc, scanOf_layout areLayout,
    List.nil_append, List.append_eq_nil_iff]
  have itself (token : Token) : token.SameButLine token := rfl
  refine ⟨List.rel_append (List.forall₂_same.mpr fun token _ => itself token) (sameTokens _ _), ?_⟩
  exact fun clean => ⟨clean.1, noErrors _ _ clean.2⟩

end LoxLang.Source
