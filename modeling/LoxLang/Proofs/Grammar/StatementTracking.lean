import Mathlib
import LoxLang.Proofs.Grammar.ExpressionTracking

/-!
# Rules for statements track what may follow

The first token of a declaration or statement decides which form it has. After a statement anything
may follow, an `else` too, but that only where a statement and then the rest may stand behind it: a
rule that takes each `else` that it meets cannot go wrong.
-/

namespace LoxLang.Grammar

open Rule
open Computability

variable {α : Type}

/-! ## The first token of a statement -/

/-- The first token decides which of its forms a phrase of the symbol has. -/
structure Predicts (form : TokenKind → Nonterminal) (symbol : Nonterminal) : Prop where
  chosen : ∀ tokens ∈ phrases symbol, ∃ token more, tokens = token :: more ∧
    tokens ∈ phrases (form token.kind)
  fits : ∀ kind, ∀ tokens ∈ phrases (form kind), tokens ∈ phrases symbol

/-- The form of the statements that begin with a token of this kind. -/
def statementForm : TokenKind → Nonterminal
  | .keyFor => .forStatement
  | .keyIf => .ifStatement
  | .keyPrint => .printStatement
  | .keyReturn => .returnStatement
  | .keyWhile => .whileStatement
  | .leftBrace => .block
  | _ => .expressionStatement

/-- The form of the declarations that begin with a token of this kind. -/
def declarationForm : TokenKind → Nonterminal
  | .keyFun => .functionDeclaration
  | .keyVar => .variableDeclaration
  | _ => .statement

/-- If every kind that a symbol can begin with chooses the symbol, the first token chooses rightly.
-/
theorem Begins.chosen {form : TokenKind → Nonterminal} {symbol : Nonterminal}
    {kinds : List TokenKind} (begins : Begins kinds (phrases symbol))
    (chooses : ∀ kind ∈ kinds, form kind = symbol) {tokens : List Token}
    (isPhrase : tokens ∈ phrases symbol) :
    ∃ token more, tokens = token :: more ∧ tokens ∈ phrases (form token.kind) := by
  obtain ⟨token, more, rfl, isKind⟩ := begins tokens isPhrase
  exact ⟨token, more, rfl, (chooses token.kind isKind).symm ▸ isPhrase⟩

/-- An expression statement begins as an expression. -/
theorem begins_expressionStatement :
    Begins Symbol.assignment.starts (phrases .expressionStatement) := by
  rw [phrases_expressionStatement]
  exact begins_expression.mul _

/-- The kinds of the tokens that statements begin with. -/
def statementOpeners : List TokenKind :=
  [.keyFor, .keyIf, .keyPrint, .keyReturn, .keyWhile, .leftBrace] ++ Symbol.assignment.starts

/-- What is written with a keyword in front begins with the keyword. -/
theorem begins_keyword {symbol : Nonterminal} {kind : TokenKind} {tail : Language Token}
    (same : phrases symbol = tokenOf [kind] * tail) : Begins [kind] (phrases symbol) := by
  rw [same]
  exact (begins_tokenOf _).mul tail

/-- A statement begins with a keyword, a brace, or as an expression. -/
theorem begins_statement : Begins statementOpeners (phrases .statement) := by
  rw [phrases_statement]
  exact (begins_expressionStatement.add <| (begins_keyword phrases_forStatement).add <|
    (begins_keyword phrases_ifStatement).add <| (begins_keyword phrases_printStatement).add <|
    (begins_keyword phrases_returnStatement).add <| (begins_keyword phrases_whileStatement).add <|
    begins_keyword phrases_block).mono (by decide)

/-- There are statements: an expression with a semicolon is one. -/
theorem derivable_statement : Derivable (phrases .statement) := by
  rw [phrases_statement, phrases_expressionStatement]
  exact (derivable_expression.mul (derivable_tokenOf _ _)).add_right _

/-- The first token tells which form a statement has. -/
theorem predicts_statement : Predicts statementForm .statement where
  chosen := by
    rw [phrases_statement]
    rintro tokens (isPhrase | isPhrase | isPhrase | isPhrase | isPhrase | isPhrase | isPhrase)
    · exact begins_expressionStatement.chosen (by decide) isPhrase
    · exact (begins_keyword phrases_forStatement).chosen (by decide) isPhrase
    · exact (begins_keyword phrases_ifStatement).chosen (by decide) isPhrase
    · exact (begins_keyword phrases_printStatement).chosen (by decide) isPhrase
    · exact (begins_keyword phrases_returnStatement).chosen (by decide) isPhrase
    · exact (begins_keyword phrases_whileStatement).chosen (by decide) isPhrase
    · exact (begins_keyword phrases_block).chosen (by decide) isPhrase
  fits kind tokens isPhrase := by
    rw [phrases_statement]
    unfold statementForm at isPhrase
    split at isPhrase
    · exact .inr (.inl isPhrase)
    · exact .inr (.inr (.inl isPhrase))
    · exact .inr (.inr (.inr (.inl isPhrase)))
    · exact .inr (.inr (.inr (.inr (.inl isPhrase))))
    · exact .inr (.inr (.inr (.inr (.inr (.inl isPhrase)))))
    · exact .inr (.inr (.inr (.inr (.inr (.inr isPhrase)))))
    · exact .inl isPhrase

/-- The kinds of the tokens that declarations begin with. -/
def declarationOpeners : List TokenKind := [.keyFun, .keyVar] ++ statementOpeners

/-- A declaration begins with a keyword of its own or as a statement. -/
theorem begins_declaration : Begins declarationOpeners (phrases .declaration) := by
  rw [phrases_declaration]
  exact ((begins_keyword phrases_functionDeclaration).add <|
    (begins_keyword phrases_variableDeclaration).add begins_statement).mono (by decide)

/-- The first token tells which form a declaration has. -/
theorem predicts_declaration : Predicts declarationForm .declaration where
  chosen := by
    rw [phrases_declaration]
    rintro tokens (isPhrase | isPhrase | isPhrase)
    · exact (begins_keyword phrases_functionDeclaration).chosen (by decide) isPhrase
    · exact (begins_keyword phrases_variableDeclaration).chosen (by decide) isPhrase
    · exact begins_statement.chosen (by decide) isPhrase
  fits kind tokens isPhrase := by
    rw [phrases_declaration]
    unfold declarationForm at isPhrase
    split at isPhrase
    · exact .inl isPhrase
    · exact .inr (.inl isPhrase)
    · exact .inr (.inr isPhrase)

/-- Behind the first token, only the form that it tells is left. -/
theorem Predicts.cons_mem_mul {form : TokenKind → Nonterminal} {symbol : Nonterminal}
    (predicts : Predicts form symbol) {token : Token} {tokens : List Token}
    {rest : Language Token} :
    token :: tokens ∈ phrases symbol * rest ↔
      token :: tokens ∈ phrases (form token.kind) * rest := by
  constructor
  · intro isIn
    obtain ⟨former, isPhrase, latter, isRest, same⟩ := Language.mem_mul.mp isIn
    obtain ⟨first, more, rfl, isForm⟩ := predicts.chosen former isPhrase
    obtain ⟨rfl, rfl⟩ := List.cons.inj same
    exact Language.append_mem_mul isForm isRest
  · intro isIn
    obtain ⟨former, isForm, latter, isRest, same⟩ := Language.mem_mul.mp isIn
    exact same ▸ Language.append_mem_mul (predicts.fits _ _ isForm) isRest

/-- A rule that goes on by the first token, which it takes if a form begins with it. -/
theorem Predicts.tracks {form : TokenKind → Nonterminal} {symbol absent : Nonterminal}
    (predicts : Predicts form symbol) {kinds : List TokenKind} {next : Option Token → Rule α}
    {rest : Language Token} {after : α → Language Token} (refused : .endOfFile ∉ kinds)
    (others : ∀ kind, kind ∉ kinds → form kind = absent)
    (tracksAbsent : Tracks (next none) (phrases absent * rest) after)
    (tracksTaken : ∀ token, token.kind ∈ kinds →
      Tracks (next (some token)) ((phrases (form token.kind) * rest).leftQuotient [token]) after) :
    Tracks (accept kinds >>= next) (phrases symbol * rest) after := by
  refine .accept_bind ?_ ?_ tracksAbsent fun token isKind => ?_
  · intro further isIn
    obtain ⟨former, isAbsent, latter, isRest, rfl⟩ := Language.mem_mul.mp isIn
    rw [← others .endOfFile refused] at isAbsent
    exact Language.append_mem_mul (predicts.fits _ _ isAbsent) isRest
  · intro further isIn stops
    obtain ⟨former, isPhrase, latter, isRest, rfl⟩ := Language.mem_mul.mp isIn
    obtain ⟨first, more, rfl, isForm⟩ := predicts.chosen former isPhrase
    rw [others first.kind (stops_cons.mp stops)] at isForm
    exact Language.append_mem_mul isForm isRest
  · have same : (phrases symbol * rest).leftQuotient [token] =
        (phrases (form token.kind) * rest).leftQuotient [token] :=
      Language.ext fun _ => predicts.cons_mem_mul
    rw [same]
    exact tracksTaken token isKind

/-- Behind the keyword, what is left is what stands behind it. -/
theorem leftQuotient_keyword {kind : TokenKind} {keyword : Token} (isKind : keyword.kind = kind)
    (tail rest : Language Token) :
    (tokenOf [kind] * tail * rest).leftQuotient [keyword] = tail * rest := by
  rw [mul_assoc, leftQuotient_tokenOf_mul (List.mem_singleton.mpr isKind)]

/-- What follows the first token of a phrase whose form begins with it. -/
theorem leftQuotient_form {form : TokenKind → Nonterminal} {kind : TokenKind} {keyword : Token}
    {tail : Language Token} (isKind : keyword.kind = kind)
    (same : phrases (form kind) = tokenOf [kind] * tail) (rest : Language Token) :
    (phrases (form keyword.kind) * rest).leftQuotient [keyword] = tail * rest := by
  rw [isKind, same, leftQuotient_keyword isKind]

/-! ## Rules for statements -/

/-- What may follow a statement. An `else` in front of it would go with the statement, so that
nothing is lost if a rule takes it. -/
structure AfterStatement (rest : Language Token) : Prop where
  derivable : Derivable rest
  takesElse : ∀ (otherwise : Token) (further : List Token), otherwise.kind = .keyElse →
    otherwise :: further ∈ rest → further ∈ phrases .statement * rest

/-- What does not begin with `else` may follow every statement. -/
theorem Avoids.afterStatement {rest : Language Token} (avoids : Avoids [.keyElse] rest) :
    AfterStatement rest where
  derivable := avoids.derivable
  takesElse _ _ isElse isRest :=
    absurd (List.mem_singleton.mpr isElse) (stops_cons.mp (avoids.stops _ isRest))

/-- After the first branch of a conditional there may be an `else` as well. -/
theorem AfterStatement.alternative {rest : Language Token} (after : AfterStatement rest) :
    AfterStatement (rest + tokenOf [.keyElse] * (phrases .statement * rest)) where
  derivable := after.derivable.add_right _
  takesElse otherwise further isElse := by
    rw [mul_add]
    rintro (isRest | isAlternative)
    · exact .inl (after.takesElse otherwise further isElse isRest)
    · exact .inl (cons_mem_tokenOf_mul.mp isAlternative).2

/-- The rule reads the phrases of a language wherever they may follow a statement. -/
def Rule.RecognizesStatement (rule : Rule α) (language : Language Token) : Prop :=
  ∀ rest, AfterStatement rest → Tracks rule (language * rest) fun _ => rest

section Statements

variable {expression : Rule Expr} {statement : Rule Stmt} {declaration : Rule (Option Stmt)}
  {rest : Language Token}

section Expressions

variable (recognizes : Recognizes expression (phrases .expression) Symbol.assignment.extenders)

include recognizes

/-- An expression statement tracks its expression and its semicolon. -/
theorem tracks_expressionStatement (derivable : Derivable rest) :
    Tracks (expressionStatement expression) (phrases .expressionStatement * rest)
      fun _ => rest := by
  rw [phrases_expressionStatement, mul_assoc]
  exact (recognizes _ (avoids_tokenOf_mul derivable (by decide))).bind fun value =>
    (Tracks.expect _ _ derivable).bind fun _ => .pure rfl

/-- A print statement tracks its expression and its semicolon, behind the keyword. -/
theorem tracks_printStatement (derivable : Derivable rest) :
    Tracks (printStatement expression) (phrases .expression * (tokenOf [.semicolon] * rest))
      fun _ => rest :=
  (recognizes _ (avoids_tokenOf_mul derivable (by decide))).bind fun value =>
    (Tracks.expect _ _ derivable).bind fun _ => .pure rfl

/-- A variable declaration tracks its name, an initializer if there is one, and its semicolon. -/
theorem tracks_varDeclaration (derivable : Derivable rest) :
    Tracks (varDeclaration expression)
      (tokenOf [.identifier] *
        ((1 + tokenOf [.equal] * phrases .expression) * (tokenOf [.semicolon] * rest)))
      fun _ => rest := by
  have ended := (derivable_tokenOf .semicolon []).mul derivable
  have ends (name : Token) (start : Option Expr) : Tracks
      (do
        let _ ← expect .semicolon .semicolonAfterDeclaration
        return Stmt.var name start)
      (tokenOf [.semicolon] * rest) fun _ => rest :=
    (Tracks.expect _ _ derivable).bind fun _ => .pure rfl
  rw [one_add_mul, mul_assoc]
  refine (Tracks.expect _ _ (ended.add_right _)).bind fun name => ?_
  refine .accept_clause (avoids_tokenOf_mul derivable (by decide))
    ((Tracks.pure rfl).bind (ends name)) fun equals => ?_
  exact (recognizes _ (avoids_tokenOf_mul derivable (by decide))).map.bind (ends name)

/-- A return statement tracks its value, if there is one, and its semicolon. -/
theorem tracks_returnStatement (keyword : Token) (derivable : Derivable rest) :
    Tracks (returnStatement expression keyword)
      ((1 + phrases .expression) * (tokenOf [.semicolon] * rest)) fun _ => rest := by
  have ends (value : Option Expr) : Tracks
      (do
        let _ ← expect .semicolon .semicolonAfterReturnValue
        return Stmt.ret keyword value)
      (tokenOf [.semicolon] * rest) fun _ => rest :=
    (Tracks.expect _ _ derivable).bind fun _ => .pure rfl
  have valued : Tracks
      (do
        let value ← if ← nextIs .semicolon then pure none else some <$> expression
        let _ ← expect .semicolon .semicolonAfterReturnValue
        return Stmt.ret keyword value)
      ((1 + phrases .expression) * (tokenOf [.semicolon] * rest)) fun _ => rest :=
    .unless_bind begins_expression (by decide) ((Tracks.pure rfl).bind ends)
      ((recognizes _ (avoids_tokenOf_mul derivable (by decide))).map.bind ends)
  exact Tracks.inFunction.bind fun isInside =>
    .ite ((Tracks.reportAt keyword rfl).bind fun _ => valued) valued

/-- A clause that may be absent is tracked, as the token that closes it begins no expression. -/
theorem tracks_optionalExpression {closing : TokenKind} (derivable : Derivable rest)
    (apart : closing ∉ Symbol.assignment.starts)
    (ends : closing ∉ Symbol.assignment.extenders) :
    Tracks (optionalExpression expression closing)
      ((1 + phrases .expression) * (tokenOf [closing] * rest))
      fun _ => tokenOf [closing] * rest :=
  .unless_bind begins_expression apart (.pure rfl)
    (recognizes _ (avoids_tokenOf_mul derivable ends)).map

/-- What a for loop starts with is tracked in each of its three forms. -/
theorem tracks_forStart (derivable : Derivable rest) :
    Tracks (forStart expression)
      ((tokenOf [.semicolon] + (phrases .variableDeclaration + phrases .expressionStatement)) *
        rest) fun _ => rest := by
  have apart : ∀ tokens ∈ phrases .expressionStatement * rest,
      Stops [.semicolon, .keyVar] tokens :=
    fun tokens isIn => (begins_expressionStatement.mul rest tokens isIn).stops (by decide)
  have begins := ((begins_tokenOf [.semicolon]).add
    (begins_keyword phrases_variableDeclaration)).mul rest
  rw [← add_assoc, add_comm, add_mul]
  refine .accept_or apart begins (tracks_expressionStatement recognizes derivable).map
    fun token isKind => ?_
  rw [add_mul]
  dsimp only
  split
  next isSemicolon =>
    have others : ∀ tokens, token :: tokens ∉ phrases .variableDeclaration * rest :=
      ((begins_keyword phrases_variableDeclaration).mul rest).not_cons_mem (by simp [isSemicolon])
    rw [add_comm, leftQuotient_add others, leftQuotient_tokenOf_mul (by simp [isSemicolon])]
    exact .pure rfl
  next notSemicolon =>
    have isVar : token.kind = .keyVar := by simpa [notSemicolon] using isKind
    have others : ∀ tokens, token :: tokens ∉ tokenOf [.semicolon] * rest :=
      ((begins_tokenOf _).mul rest).not_cons_mem (by simp [isVar])
    rw [leftQuotient_add others, phrases_variableDeclaration, leftQuotient_keyword isVar,
      mul_assoc, mul_assoc]
    exact (tracks_varDeclaration recognizes derivable).map

end Expressions

/-- A conditional takes the `else` behind it, and so does each that ends its consequent. -/
theorem tracks_ifStatement
    (recognizes : Recognizes expression (phrases .expression) Symbol.assignment.extenders)
    (recognizesStatement : RecognizesStatement statement (phrases .statement))
    (after : AfterStatement rest) :
    Tracks (ifStatement expression statement)
      (tokenOf [.leftParen] * (phrases .expression * (tokenOf [.rightParen] *
        (phrases .statement * (rest + tokenOf [.keyElse] * (phrases .statement * rest))))))
      fun _ => rest := by
  have consequents := derivable_statement.mul after.alternative.derivable
  have ended := (derivable_tokenOf .rightParen []).mul consequents
  have ends (condition : Expr) (consequent : Stmt) (alternative : Option Stmt) : Tracks
      (return Stmt.conditional condition consequent alternative) rest fun _ => rest :=
    .pure rfl
  refine (Tracks.expect _ _ (derivable_expression.mul ended)).bind fun _ => ?_
  refine (recognizes _ (avoids_tokenOf_mul consequents (by decide))).bind fun condition => ?_
  refine (Tracks.expect _ _ consequents).bind fun _ => ?_
  refine (recognizesStatement _ after.alternative).bind fun consequent => ?_
  -- The rest may itself begin with an `else`, so that the clause is not told from it by its first
  -- token; but whatever follows an `else` of the rest follows the `else` of the clause as well.
  refine .accept_bind (fun further isRest => .inl isRest) ?_ ((Tracks.pure rfl).bind (ends _ _))
    fun otherwise isElse => ?_
  · rintro further (isRest | isAlternative) stops
    · exact isRest
    · obtain ⟨token, more, rfl, isElse⟩ := (begins_tokenOf _).mul _ further isAlternative
      exact absurd isElse (stops_cons.mp stops)
  · have taken : (rest + tokenOf [.keyElse] * (phrases .statement * rest)).leftQuotient
        [otherwise] = phrases .statement * rest := by
      ext further
      rw [Language.mem_leftQuotient, List.singleton_append, Language.mem_add,
        cons_mem_tokenOf_mul, and_iff_right isElse, or_iff_right_iff_imp]
      exact after.takesElse otherwise further (List.mem_singleton.mp isElse)
    rw [taken]
    exact (recognizesStatement rest after).map.bind (ends _ _)

/-- A while loop tracks its condition and its body. -/
theorem tracks_whileStatement
    (recognizes : Recognizes expression (phrases .expression) Symbol.assignment.extenders)
    (recognizesStatement : RecognizesStatement statement (phrases .statement))
    (after : AfterStatement rest) :
    Tracks (whileStatement expression statement)
      (tokenOf [.leftParen] * (phrases .expression * (tokenOf [.rightParen] *
        (phrases .statement * rest)))) fun _ => rest := by
  have body := derivable_statement.mul after.derivable
  have ended := (derivable_tokenOf .rightParen []).mul body
  exact (Tracks.expect _ _ (derivable_expression.mul ended)).bind fun _ =>
    (recognizes _ (avoids_tokenOf_mul body (by decide))).bind fun condition =>
      (Tracks.expect _ _ body).bind fun _ =>
        (recognizesStatement rest after).bind fun body => .pure rfl

/-- A for loop tracks its clauses and its body. -/
theorem tracks_forStatement
    (recognizes : Recognizes expression (phrases .expression) Symbol.assignment.extenders)
    (recognizesStatement : RecognizesStatement statement (phrases .statement))
    (after : AfterStatement rest) :
    Tracks (forStatement expression statement)
      (tokenOf [.leftParen] *
        ((tokenOf [.semicolon] + (phrases .variableDeclaration + phrases .expressionStatement)) *
          ((1 + phrases .expression) * (tokenOf [.semicolon] *
            ((1 + phrases .expression) * (tokenOf [.rightParen] * (phrases .statement * rest)))))))
      fun _ => rest := by
  have body := derivable_statement.mul after.derivable
  have increment := (derivable_one.add_right (phrases .expression)).mul
    ((derivable_tokenOf .rightParen []).mul body)
  have condition := (derivable_one.add_right (phrases .expression)).mul
    ((derivable_tokenOf .semicolon []).mul increment)
  exact (Tracks.expect _ _ (((derivable_tokenOf _ _).add_right _).mul condition)).bind fun _ =>
    (tracks_forStart recognizes condition).bind fun start =>
      (tracks_optionalExpression recognizes increment (by decide) (by decide)).bind fun condition =>
        (Tracks.expect _ _ increment).bind fun _ =>
          (tracks_optionalExpression recognizes body (by decide) (by decide)).bind fun increment =>
            (Tracks.expect _ _ body).bind fun _ =>
              (recognizesStatement rest after).bind fun body => .pure rfl

/-- What is expected in a dropped declaration is said before anything else is read. -/
theorem tracks_recovering (depth : Nat) {rule : Rule Stmt} {before : Language Token}
    (tracks : Tracks rule before fun _ => rest) :
    Tracks (recovering depth rule) before fun _ => rest := by
  intro surroundings tokens
  have recovers := recovery depth rule surroundings tokens
  cases tracks surroundings tokens with
  | deep isDeep => exact .deep (isDeep_recovering depth isDeep)
  | found used value split isOk silent possible necessary =>
    generalize recovering depth rule surroundings tokens = reply at recovers ⊢
    cases recovers with
    | kept isKept =>
      obtain rfl := Except.ok.inj (isOk.symm.trans isKept)
      exact .found used (some value) split rfl silent possible necessary
    | _ stopped => exact nomatch isOk.symm.trans stopped
  | missed used next missing split first viable strays =>
    have firstAfter := firstExpectation_append_of_some first
    generalize recovering depth rule surroundings tokens = reply at recovers ⊢
    cases recovers with
    | kept => exact .missed used next missing split first viable strays
    | dropped => exact .missed used next missing split first viable strays
    | tooDeep => exact .missed used next missing split (firstAfter _) viable strays
    | passedOn => exact .missed used next missing split (firstAfter _) viable strays

/-- The rule tells whether a declaration is next, where otherwise the declarations are over. -/
theorem tracks_declarations {more : Rule Bool} (test : Option Token → Bool)
    (looksAhead : LooksAhead more) (advances : Advances declaration)
    (recognizes : RecognizesStatement declaration (phrases .declaration))
    (looks : ∀ surroundings tokens,
      more surroundings tokens = ⟨[], tokens, .ok (test tokens.head?)⟩)
    (goesOn : ∀ token : Token, token.kind ∈ declarationOpeners → test (some token) = true)
    (avoids : Avoids [.keyElse] rest) (ends : ∀ tokens ∈ rest, test tokens.head? = false) :
    Tracks (declarations more declaration) ((phrases .declaration)∗ * rest) fun _ => rest := by
  have avoidsFurther : Avoids [.keyElse] ((phrases .declaration)∗ * rest) :=
    avoids.star begins_declaration (by decide)
  refine Tracks.bind ?_ fun found => .pure rfl
  refine .repeated (steady_declarationStep looksAhead advances) (fun found => ?_) []
  have step : Tracks (declarationStep more declaration found)
      (phrases .declaration * ((phrases .declaration)∗ * rest) + rest)
      fun found => found.elim rest fun _ => (phrases .declaration)∗ * rest := by
    refine .look_bind looks ?_ ends ?_ (.pure rfl)
    · intro tokens isIn
      obtain ⟨token, more, rfl, isKind⟩ := begins_declaration.mul _ tokens isIn
      exact goesOn token isKind
    · refine (recognizes _ avoidsFurther.afterStatement).bind fun declared => ?_
      cases declared with
      | none => exact .pure rfl
      | some statement => exact .pure rfl
  rwa [add_comm, ← star_mul_eq] at step

/-- A block tracks its declarations and its brace. -/
theorem tracks_block (advances : Advances declaration)
    (recognizes : RecognizesStatement declaration (phrases .declaration))
    (derivable : Derivable rest) :
    Tracks (block declaration) ((phrases .declaration)∗ * (tokenOf [.rightBrace] * rest))
      fun _ => rest := by
  refine (tracks_declarations (fun next => next.isSome && !next.any (·.kind = .rightBrace))
    inBlock_looksAhead advances recognizes (fun _ _ => rfl) (fun token isKind => ?_)
    (avoids_tokenOf_mul derivable (by decide)) fun tokens isRest => ?_).bind fun statements =>
      (Tracks.expect _ _ derivable).bind fun _ => .pure rfl
  · have noBrace : token.kind ≠ .rightBrace := by
      rintro isBrace
      exact absurd (isBrace ▸ isKind) (by decide)
    simp [noBrace]
  · obtain ⟨token, more, rfl, isBrace⟩ := (begins_tokenOf _).mul rest tokens isRest
    simpa using isBrace

/-- A function tracks its name, its parameters and its body. -/
theorem tracks_function (advances : Advances declaration)
    (recognizes : RecognizesStatement declaration (phrases .declaration))
    (derivable : Derivable rest) :
    Tracks (function declaration)
      (tokenOf [.identifier] * (tokenOf [.leftParen] * ((1 + phrases .parameters) *
        (tokenOf [.rightParen] * (tokenOf [.leftBrace] *
          ((phrases .declaration)∗ * (tokenOf [.rightBrace] * rest)))))))
      fun _ => rest := by
  have body := (derivable_star (phrases .declaration)).mul
    ((derivable_tokenOf .rightBrace []).mul derivable)
  have opened := (derivable_tokenOf .leftBrace []).mul body
  have closed := (derivable_one.add_right (phrases .parameters)).mul
    ((derivable_tokenOf .rightParen []).mul opened)
  have begins : Begins [.identifier] (phrases .parameters) := begins_keyword phrases_parameters
  have parameters : Recognizes (listed .tooManyParameters (expect .identifier .parameterName))
      (phrases .parameters) [.comma] :=
    phrases_parameters ▸ recognizes_listed rfl (.expect _ _) (.expect _ _ _) (by decide)
  refine (Tracks.expect _ _ ((derivable_tokenOf _ _).mul closed)).bind fun name =>
    (Tracks.expect _ _ closed).bind fun _ => ?_
  have ends (parameters : List Token) : Tracks
      (do
        let _ ← expect .rightParen .parenAfterParameters
        let _ ← expect .leftBrace .braceBeforeBody
        let body ← withinFunction (block declaration)
        return Stmt.function name parameters body)
      (tokenOf [.rightParen] * (tokenOf [.leftBrace] *
          ((phrases .declaration)∗ * (tokenOf [.rightBrace] * rest)))) fun _ => rest :=
    (Tracks.expect _ _ opened).bind fun _ => (Tracks.expect _ _ body).bind fun _ =>
      (tracks_block advances recognizes derivable).withinFunction.bind fun body => .pure rfl
  exact .unless_bind begins (by decide) ((Tracks.pure rfl).bind ends)
    ((parameters _ (avoids_tokenOf_mul opened (by decide))).bind ends)

/-- A statement recognizes whichever form its first token tells. -/
theorem recognizes_statementBody (advances : Advances declaration)
    (recognizes : Recognizes expression (phrases .expression) Symbol.assignment.extenders)
    (recognizesStatement : RecognizesStatement statement (phrases .statement))
    (recognizesDeclaration : RecognizesStatement declaration (phrases .declaration)) :
    RecognizesStatement (statementBody statement declaration expression) (phrases .statement) := by
  intro rest after
  refine predicts_statement.tracks (by decide) (fun kind => by cases kind <;> decide)
    (tracks_expressionStatement recognizes after.derivable) fun keyword isKeyword => ?_
  have derivable := after.derivable
  simp only [List.mem_cons, List.not_mem_nil, or_false] at isKeyword
  obtain isFor | isIf | isPrint | isReturn | isWhile | opens := isKeyword
  · rw [leftQuotient_form isFor phrases_forStatement]
    simpa only [keywordStatement, isFor, mul_assoc] using
      tracks_forStatement recognizes recognizesStatement after
  · rw [leftQuotient_form isIf phrases_ifStatement]
    simpa only [keywordStatement, isIf, mul_assoc, one_add_mul] using
      tracks_ifStatement recognizes recognizesStatement after
  · rw [leftQuotient_form isPrint phrases_printStatement]
    simpa only [keywordStatement, isPrint, mul_assoc] using
      tracks_printStatement recognizes derivable
  · rw [leftQuotient_form isReturn phrases_returnStatement]
    simpa only [keywordStatement, isReturn, mul_assoc] using
      tracks_returnStatement recognizes keyword derivable
  · rw [leftQuotient_form isWhile phrases_whileStatement]
    simpa only [keywordStatement, isWhile, mul_assoc] using
      tracks_whileStatement recognizes recognizesStatement after
  · rw [leftQuotient_form opens phrases_block]
    simpa only [keywordStatement, opens, mul_assoc] using
      (tracks_block advances recognizesDeclaration derivable).map

/-- A declaration recognizes whichever form its first token tells. -/
theorem recognizes_declarationBody (advances : Advances declaration)
    (recognizes : Recognizes expression (phrases .expression) Symbol.assignment.extenders)
    (recognizesStatement : RecognizesStatement statement (phrases .statement))
    (recognizesDeclaration : RecognizesStatement declaration (phrases .declaration)) :
    RecognizesStatement (declarationBody statement declaration expression)
      (phrases .declaration) := by
  intro rest after
  refine predicts_declaration.tracks (by decide) (fun kind => by cases kind <;> decide)
    (recognizesStatement rest after) fun keyword isKeyword => ?_
  have derivable := after.derivable
  unfold keywordDeclaration
  dsimp only
  split
  next isFun =>
    rw [leftQuotient_form isFun phrases_functionDeclaration, phrases_block]
    simpa only [mul_assoc] using tracks_function advances recognizesDeclaration derivable
  next notFun =>
    have isVar : keyword.kind = .keyVar := by simpa [notFun] using isKeyword
    rw [leftQuotient_form isVar phrases_variableDeclaration]
    simpa only [mul_assoc] using tracks_varDeclaration recognizes derivable

end Statements

/-- Statements and declarations are recognized with every limit, by induction on it. -/
theorem recognizes_statement_declaration (depth : Nat) :
    RecognizesStatement (statement depth) (phrases .statement) ∧
      RecognizesStatement (declaration depth) (phrases .declaration) := by
  induction depth with
  | zero => exact ⟨fun _ _ => .tooDeep, fun _ _ => .tooDeep⟩
  | succ depth inductionHypothesis =>
    obtain ⟨recognizesStatement, recognizesDeclaration⟩ := inductionHypothesis
    have recognizes := (recognizes_unary_expression depth).2
    have advances := advances_declaration depth
    exact ⟨recognizes_statementBody advances recognizes recognizesStatement recognizesDeclaration,
      fun rest after => tracks_recovering depth (recognizes_declarationBody advances recognizes
        recognizesStatement recognizesDeclaration rest after)⟩

/-- The declarations of a program: nothing may follow them. -/
theorem tracks_program (depth : Nat) :
    Tracks (declarations hasNext (declaration depth)) (phrases .declaration)∗ fun _ => 1 := by
  have nothing : Avoids [.keyElse] 1 := by
    refine ⟨derivable_one, ?_⟩
    rintro _ rfl
    exact stops_nil _
  have tracks := tracks_declarations (·.isSome) hasNext_looksAhead (advances_declaration depth)
    (recognizes_statement_declaration depth).2 (fun _ _ => rfl) (fun _ _ => rfl) nothing
    (by rintro _ rfl; rfl)
  rwa [mul_one] at tracks

end LoxLang.Grammar
