import LoxLang.Source.Piece

/-!
# Lexemes

What the lexemes of the language are, as texts and apart from how a scan finds them: marks, numbers,
words and closed strings. No two sorts of lexemes begin alike. `lexeme_cons_iff` says how a lexeme
goes on after its first character, which tells its sort.
-/

namespace LoxLang.Source

/-- The marks of the language as they are written. -/
def marks : List (List Char × TokenKind) := [
  (['('], .leftParen), ([')'], .rightParen), (['\x7b'], .leftBrace), (['\x7d'], .rightBrace),
  ([','], .comma), (['.'], .dot), (['-'], .minus), (['+'], .plus), ([';'], .semicolon),
  (['*'], .star), (['/'], .slash),
  (['!'], .bang), (['!', '='], .bangEqual), (['='], .equal), (['=', '='], .equalEqual),
  (['<'], .less), (['<', '='], .lessEqual), (['>'], .greater), (['>', '='], .greaterEqual)]

/-- The text is a lexeme of this kind. -/
inductive Lexeme : TokenKind → List Char → Prop where
  | mark {kind : TokenKind} {text : List Char} (isMark : (text, kind) ∈ marks) : Lexeme kind text
  | whole {digits : List Char} (nonempty : digits ≠ [])
      (areDigits : ∀ digit ∈ digits, Number.isDigit digit = true) : Lexeme .number digits
  | fraction {whole digits : List Char} (begins : whole ≠ [])
      (wholeDigits : ∀ digit ∈ whole, Number.isDigit digit = true) (nonempty : digits ≠ [])
      (areDigits : ∀ digit ∈ digits, Number.isDigit digit = true) :
      Lexeme .number (whole ++ '.' :: digits)
  | keyword {word : String} {kind : TokenKind} (isKeyword : (word, kind) ∈ TokenKind.keywords) :
      Lexeme kind word.toList
  | identifier {first : Char} {rest : List Char} (begins : isLetter first = true)
      (goesOn : ∀ character ∈ rest, isWordCharacter character = true)
      (notReserved : ∀ kind, (String.ofList (first :: rest), kind) ∉ TokenKind.keywords) :
      Lexeme .identifier (first :: rest)
  | string {body : List Char} (noQuote : '"' ∉ body) : Lexeme .string ('"' :: body ++ ['"'])

/-! ## Marks and words -/

/-- A character that is a token by itself is among the marks. -/
theorem mem_marks_of_singleKind? {first : Char} {kind : TokenKind}
    (isKind : singleKind? first = some kind) : ([first], kind) ∈ marks := by
  unfold singleKind? at isKind
  split at isKind <;> cases isKind <;> decide

/-- A character that can be followed by an equals sign is among the marks, with it and without. -/
theorem mem_marks_of_equalKinds? {first : Char} {paired alone : TokenKind}
    (areKinds : equalKinds? first = some (paired, alone)) :
    ([first, '='], paired) ∈ marks ∧ ([first], alone) ∈ marks := by
  unfold equalKinds? at areKinds
  split at areKinds <;> cases areKinds <;> decide

/-- No mark holds a character of a word. -/
theorem not_isWordCharacter_of_mem_marks :
    ∀ entry ∈ marks, ∀ character ∈ entry.1, isWordCharacter character = false := by
  simp only [marks, List.forall_mem_cons, List.not_mem_nil, false_implies, implies_true, and_true]
  decide

/-- The character begins no mark, string, comment or layout. -/
structure IsPlain (character : Char) : Prop where
  noSingle : singleKind? character = none
  noPair : equalKinds? character = none
  noSlash : character ≠ '/'
  noBlank : ¬ (character = ' ' ∨ character = '\r' ∨ character = '\t')
  noLineEnd : character ≠ '\n'
  noQuote : character ≠ '"'

/-- A character of a word is plain. -/
theorem isPlain_of_isWordCharacter {character : Char}
    (isWord : isWordCharacter character = true) : IsPlain character where
  noSingle := by
    refine Option.eq_none_iff_forall_ne_some.mpr fun kind isKind => ?_
    have noWord := not_isWordCharacter_of_mem_marks _ (mem_marks_of_singleKind? isKind)
    exact absurd isWord (Bool.eq_false_iff.mp (noWord character (List.mem_singleton_self _)))
  noPair := by
    refine Option.eq_none_iff_forall_ne_some.mpr fun (_, _) areKinds => ?_
    have noWord := not_isWordCharacter_of_mem_marks _ (mem_marks_of_equalKinds? areKinds).2
    exact absurd isWord (Bool.eq_false_iff.mp (noWord character (List.mem_singleton_self _)))
  noSlash := by rintro rfl; cases isWord
  noBlank := by rintro (rfl | rfl | rfl) <;> cases isWord
  noLineEnd := by rintro rfl; cases isWord
  noQuote := by rintro rfl; cases isWord

/-- A digit is plain. -/
theorem isPlain_of_isDigit {character : Char} (isDigit : Number.isDigit character = true) :
    IsPlain character :=
  isPlain_of_isWordCharacter (by simp [isWordCharacter, isDigit])

/-- A letter is plain. -/
theorem isPlain_of_isLetter {character : Char} (begins : isLetter character = true) :
    IsPlain character :=
  isPlain_of_isWordCharacter (by simp [isWordCharacter, begins])

/-- A letter is no digit. -/
theorem not_isDigit_of_isLetter {character : Char} (begins : isLetter character = true) :
    Number.isDigit character = false := by
  simp only [isLetter, Number.isDigit, Bool.or_eq_true, Bool.and_eq_true, decide_eq_true_eq,
    Bool.and_eq_false_iff, decide_eq_false_iff_not, Char.le_def, UInt32.le_iff_toNat_le] at begins ⊢
  have nine : ('9' : Char).val.toNat = 57 := rfl
  have small : ('a' : Char).val.toNat = 97 := rfl
  have large : ('A' : Char).val.toNat = 65 := rfl
  right
  rcases begins with (lower | upper) | rfl
  · omega
  · omega
  · decide

/-- A reserved word is spelled like a name, and its kind is the one that is found for it. -/
theorem keywords_spelled : ∀ entry ∈ TokenKind.keywords,
    entry.1.toList.head?.any isLetter = true ∧ entry.1.toList.all isWordCharacter = true ∧
      TokenKind.ofWord entry.1 = entry.2 := by
  decide

/-- A word that is not reserved is an identifier. -/
theorem ofWord_of_not_mem {word : String}
    (notReserved : ∀ kind, (word, kind) ∉ TokenKind.keywords) :
    TokenKind.ofWord word = .identifier := by
  have isAbsent : TokenKind.keywords.lookup word = none := by
    refine List.lookup_eq_none_iff.mpr fun entry isIn => bne_iff_ne.mpr ?_
    rintro rfl
    exact notReserved entry.2 isIn
  rw [TokenKind.ofWord, isAbsent]
  rfl

/-- A word is reserved under the kind that is found for it, or it is a name. -/
theorem ofWord_cases (word : String) :
    (word, TokenKind.ofWord word) ∈ TokenKind.keywords ∨
      TokenKind.ofWord word = .identifier ∧ ∀ kind, (word, kind) ∉ TokenKind.keywords := by
  by_cases isReserved : ∃ kind, (word, kind) ∈ TokenKind.keywords
  · obtain ⟨kind, isIn⟩ := isReserved
    have isKind : TokenKind.ofWord word = kind := (keywords_spelled _ isIn).2.2
    rw [isKind]
    exact .inl isIn
  · have notReserved := not_exists.mp isReserved
    exact .inr ⟨ofWord_of_not_mem notReserved, notReserved⟩

/-! ## How a lexeme goes on -/

/-- What can follow the first digit of a number. -/
def GoesOnNumber (tail : List Char) : Prop :=
  (∀ digit ∈ tail, Number.isDigit digit = true) ∨
    ∃ whole digits, tail = whole ++ '.' :: digits ∧
      (∀ digit ∈ whole, Number.isDigit digit = true) ∧ digits ≠ [] ∧
      ∀ digit ∈ digits, Number.isDigit digit = true

/-- How a lexeme of a kind goes on after its first character. -/
def GoesOn (kind : TokenKind) (first : Char) (tail : List Char) : Prop :=
  match singleKind? first, equalKinds? first with
  | some single, _ => kind = single ∧ tail = []
  | none, some (paired, alone) => kind = paired ∧ tail = ['='] ∨ kind = alone ∧ tail = []
  | none, none =>
    if first = '/' then kind = .slash ∧ tail = []
    else if first = '"' then kind = .string ∧ ∃ body, '"' ∉ body ∧ tail = body ++ ['"']
    else if Number.isDigit first then kind = .number ∧ GoesOnNumber tail
    else if isLetter first then
      kind = .ofWord (.ofList (first :: tail)) ∧
        ∀ character ∈ tail, isWordCharacter character = true
    else False

/-- Behind a digit only a number goes on. -/
theorem goesOn_digit {kind : TokenKind} {first : Char} {tail : List Char}
    (isDigit : Number.isDigit first = true) :
    GoesOn kind first tail ↔ kind = .number ∧ GoesOnNumber tail := by
  have plain := isPlain_of_isDigit isDigit
  simp [GoesOn, plain.noSingle, plain.noPair, plain.noSlash, plain.noQuote, isDigit]

/-- Behind a letter only a word goes on, and its kind is that of the whole word. -/
theorem goesOn_letter {kind : TokenKind} {first : Char} {tail : List Char}
    (begins : isLetter first = true) :
    GoesOn kind first tail ↔ kind = .ofWord (.ofList (first :: tail)) ∧
      ∀ character ∈ tail, isWordCharacter character = true := by
  have plain := isPlain_of_isLetter begins
  simp [GoesOn, plain.noSingle, plain.noPair, plain.noSlash, plain.noQuote, begins,
    not_isDigit_of_isLetter begins]

/-- Every mark goes on as its first character allows. -/
private theorem goesOn_of_mem_marks : ∀ entry ∈ marks, ∃ first tail, entry.1 = first :: tail ∧
    GoesOn entry.2 first tail := by
  simp only [marks, List.forall_mem_cons]
  iterate 11 refine ⟨⟨_, _, rfl, rfl, rfl⟩, ?_⟩
  iterate 4 refine ⟨⟨_, _, rfl, .inr ⟨rfl, rfl⟩⟩, ⟨_, _, rfl, .inl ⟨rfl, rfl⟩⟩, ?_⟩
  exact List.forall_mem_nil _

/-- A lexeme has a first character. -/
theorem Lexeme.goesOn {kind : TokenKind} {text : List Char} (isLexeme : Lexeme kind text) :
    ∃ first tail, text = first :: tail ∧ GoesOn kind first tail := by
  cases isLexeme with
  | mark isMark => exact goesOn_of_mem_marks _ isMark
  | whole nonempty areDigits =>
    obtain ⟨first, tail, rfl⟩ := List.exists_cons_of_ne_nil nonempty
    obtain ⟨isFirst, areFurther⟩ := List.forall_mem_cons.mp areDigits
    exact ⟨first, tail, rfl, (goesOn_digit isFirst).mpr ⟨rfl, .inl areFurther⟩⟩
  | @fraction whole digits begins wholeDigits nonempty areDigits =>
    obtain ⟨first, tail, rfl⟩ := List.exists_cons_of_ne_nil begins
    obtain ⟨isFirst, areFurther⟩ := List.forall_mem_cons.mp wholeDigits
    have further : GoesOnNumber (tail ++ '.' :: digits) :=
      .inr ⟨tail, digits, rfl, areFurther, nonempty, areDigits⟩
    exact ⟨first, tail ++ '.' :: digits, rfl, (goesOn_digit isFirst).mpr ⟨rfl, further⟩⟩
  | @keyword word _ isKeyword =>
    obtain ⟨begins, goesOn, isKind⟩ := keywords_spelled _ isKeyword
    cases isText : word.toList with
    | nil => simp [isText] at begins
    | cons first tail =>
      rw [isText] at begins goesOn
      obtain ⟨-, areFurther⟩ := List.forall_mem_cons.mp (List.all_eq_true.mp goesOn)
      refine ⟨first, tail, rfl, (goesOn_letter begins).mpr ⟨?_, areFurther⟩⟩
      rw [← isText, String.ofList_toList, isKind]
  | @identifier first tail begins goesOn notReserved =>
    exact ⟨first, tail, rfl,
      (goesOn_letter begins).mpr ⟨(ofWord_of_not_mem notReserved).symm, goesOn⟩⟩
  | @string body noQuote => exact ⟨'"', body ++ ['"'], rfl, rfl, body, noQuote, rfl⟩

/-- The lexemes that begin with a character are those that go on from it. -/
theorem lexeme_cons_iff {kind : TokenKind} {first : Char} {tail : List Char} :
    Lexeme kind (first :: tail) ↔ GoesOn kind first tail := by
  constructor
  · intro isLexeme
    obtain ⟨_, _, same, goesOn⟩ := isLexeme.goesOn
    obtain ⟨rfl, rfl⟩ := List.cons.inj same
    exact goesOn
  · intro goesOn
    unfold GoesOn at goesOn
    split at goesOn
    next isKind =>
      obtain ⟨rfl, rfl⟩ := goesOn
      exact .mark (mem_marks_of_singleKind? isKind)
    next areKinds =>
      rcases goesOn with ⟨rfl, rfl⟩ | ⟨rfl, rfl⟩
      · exact .mark (mem_marks_of_equalKinds? areKinds).1
      · exact .mark (mem_marks_of_equalKinds? areKinds).2
    next =>
      split at goesOn
      next isSlash =>
        obtain ⟨rfl, rfl⟩ := goesOn
        subst isSlash
        exact .mark (by decide)
      next =>
        split at goesOn
        next isQuote =>
          obtain ⟨rfl, body, noQuote, rfl⟩ := goesOn
          subst isQuote
          exact .string noQuote
        next =>
          split at goesOn
          next isFirst =>
            obtain ⟨rfl, areDigits | ⟨whole, digits, rfl, wholeDigits, nonempty, areDigits⟩⟩ :=
              goesOn
            · exact .whole (List.cons_ne_nil _ _) (List.forall_mem_cons.mpr ⟨isFirst, areDigits⟩)
            · exact .fraction (List.cons_ne_nil _ _)
                (List.forall_mem_cons.mpr ⟨isFirst, wholeDigits⟩) nonempty areDigits
          next =>
            split at goesOn
            next begins =>
              obtain ⟨rfl, areFurther⟩ := goesOn
              rcases ofWord_cases (String.ofList (first :: tail)) with
                isKeyword | ⟨isName, notReserved⟩
              · have isLexeme := Lexeme.keyword isKeyword
                rwa [String.toList_ofList] at isLexeme
              · rw [isName]
                exact .identifier begins areFurther notReserved
            next => exact goesOn.elim

/-- A text is a lexeme of one kind only. -/
theorem Lexeme.kind_unique {kind other : TokenKind} {text : List Char}
    (isLexeme : Lexeme kind text) (isOther : Lexeme other text) : other = kind := by
  obtain ⟨first, tail, rfl, goesOn⟩ := isLexeme.goesOn
  have goesOther := lexeme_cons_iff.mp isOther
  unfold GoesOn at goesOn goesOther
  cases isSingle : singleKind? first with
  | some single =>
    simp only [isSingle] at goesOn goesOther
    exact goesOther.1.trans goesOn.1.symm
  | none =>
    cases isPair : equalKinds? first with
    | some kinds =>
      simp only [isSingle, isPair] at goesOn goesOther
      grind
    | none =>
      simp only [isSingle, isPair] at goesOn goesOther
      grind

/-- A word is a lexeme of its kind. -/
theorem Lexeme.ofWord {word : String} (begins : word.toList.head?.any isLetter = true)
    (goesOn : word.toList.all isWordCharacter = true) :
    Lexeme (TokenKind.ofWord word) word.toList := by
  cases isText : word.toList with
  | nil => simp [isText] at begins
  | cons first tail =>
    rw [isText] at begins goesOn
    rw [← String.ofList_toList (s := word), isText]
    refine lexeme_cons_iff.mpr ((goesOn_letter begins).mpr ⟨rfl, ?_⟩)
    exact (List.forall_mem_cons.mp (List.all_eq_true.mp goesOn)).2

/-- A name is not reserved, and begins with a letter. -/
theorem Lexeme.isName {word : String} (isLexeme : Lexeme .identifier word.toList) :
    TokenKind.ofWord word = .identifier ∧ word.toList.head?.any isLetter = true := by
  generalize isText : word.toList = text at isLexeme
  cases isLexeme with
  | mark isMark => simp [marks] at isMark
  | keyword isKeyword => simp [TokenKind.keywords] at isKeyword
  | identifier begins _ notReserved =>
    rw [← isText, String.ofList_toList] at notReserved
    exact ⟨ofWord_of_not_mem notReserved, begins⟩

/-- The marks and the reserved words. -/
def spellings : List (List Char × TokenKind) :=
  marks ++ TokenKind.keywords.map fun entry => (entry.1.toList, entry.2)

/-- A lexeme that is no name, string or number is spelled in one way only. -/
theorem Lexeme.text_unique {kind : TokenKind} {text other : List Char} (isLexeme : Lexeme kind text)
    (isOther : Lexeme kind other) (fixed : kind ∉ [.identifier, .string, .number]) :
    other = text := by
  have spelled {text : List Char} (isLexeme : Lexeme kind text) : (text, kind) ∈ spellings := by
    cases isLexeme with
    | mark isMark => exact List.mem_append_left _ isMark
    | keyword isKeyword => exact List.mem_append_right _ (List.mem_map_of_mem isKeyword)
    | whole | fraction | identifier | string => simp at fixed
  have unique : ∀ entry ∈ spellings, ∀ other ∈ spellings, entry.2 = other.2 →
      other.1 = entry.1 := by
    decide +kernel
  exact unique _ (spelled isLexeme) _ (spelled isOther) rfl

end LoxLang.Source
