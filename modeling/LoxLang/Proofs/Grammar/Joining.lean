import LoxLang.Proofs.Grammar.Companions

/-!
# Programs one after the other

A program is read one declaration at a time: `parse_cons`. Where each of its declarations is read
alike with further tokens behind, a list of tokens and what stands behind it are read as the two
programs one after the other: `parse_append`. A program without errors is such a list, whatever
stands behind it: `parse_of_cleanFront`. Tokens that stand for others are read as trees that stand
for theirs: `parse_companions`.
-/

namespace LoxLang.Grammar

open Rule

/-- Two programs one after the other. -/
instance : Append Parsed :=
  ⟨fun first second => ⟨first.statements ++ second.statements, first.errors ++ second.errors⟩⟩

namespace Parsed

/-- The statements of two texts are those of the first and then those of the second. -/
@[simp] theorem statements_append (first second : Parsed) :
    (first ++ second).statements = first.statements ++ second.statements := rfl

/-- The errors of two texts are those of the first and then those of the second. -/
@[simp] theorem errors_append (first second : Parsed) :
    (first ++ second).errors = first.errors ++ second.errors := rfl

/-- Nothing read in front changes nothing. -/
@[simp] theorem nil_append (parsed : Parsed) : (⟨[], []⟩ : Parsed) ++ parsed = parsed := rfl

/-- Three texts may be put together from either side. -/
theorem append_assoc (first second third : Parsed) :
    first ++ second ++ third = first ++ (second ++ third) :=
  congrArg₂ mk (List.append_assoc ..) (List.append_assoc ..)

end Parsed

/-- What a declaration adds to a program. -/
def Reply.parsed (reply : Reply (Option Stmt)) : Parsed :=
  ⟨match reply.result with
    | .ok (some statement) => [statement]
    | _ => [], reply.errors⟩

/-- The reply with further tokens behind those that are left. -/
def Reply.before {α : Type} (reply : Reply α) (behind : List Token) : Reply α :=
  ⟨reply.errors, reply.rest ++ behind, reply.result⟩

/-! ## One declaration after the other -/

/-- A step over the declarations of a program keeps what its declaration adds. -/
private theorem declarationStep_cons {depth : Nat} (enough : recoveryDepth ≤ depth)
    (rule : Rule Stmt) (found : List Stmt) (surroundings : Surroundings) (token : Token)
    (tokens : List Token) :
    declarationStep hasNext (recovering depth rule) found surroundings (token :: tokens) =
      let reply := recovering depth rule surroundings (token :: tokens)
      ⟨reply.errors, reply.rest, .ok (some (reply.parsed.statements.reverse ++ found))⟩ := by
  have isMore : hasNext surroundings (token :: tokens) = ⟨[], token :: tokens, .ok true⟩ := rfl
  obtain ⟨kept, isOk⟩ := recovering_ok enough rule surroundings (token :: tokens)
  unfold declarationStep
  rw [bind_eq, isMore]
  simp only [if_true, after_nil]
  rw [bind_eq]
  generalize recovering depth rule surroundings (token :: tokens) = reply at isOk ⊢
  obtain ⟨errors, rest, result⟩ := reply
  obtain rfl : result = .ok kept := isOk
  cases kept <;> simp [Reply.after, Reply.parsed, pure, Rule.pure]

/-- The declarations that were found before matter to nothing that is read after them. -/
private theorem repeated_declarations (limit : Nat) (surroundings : Surroundings)
    (tokens : List Token) :
    ∃ parsed : Parsed, ∀ found : List Stmt,
      repeated found (declarationStep hasNext (declaration (depthOf limit + 1))) surroundings
          tokens =
        ⟨parsed.errors, [], .ok (parsed.statements.reverse ++ found)⟩ := by
  have steady := steady_declarations hasNext_looksAhead (depthOf limit + 1)
  generalize bound : tokens.length = count
  -- The induction is on the number of tokens, which every declaration makes smaller.
  induction count using Nat.strongRecOn generalizing tokens with
  | _ count inductionHypothesis =>
    cases tokens with
    | nil =>
      refine ⟨⟨[], []⟩, fun found => ?_⟩
      rw [repeated_eq steady, bind_eq, steady.idle]
      rfl
    | cons token tokens =>
      obtain ⟨kept, isOk⟩ := declaration_ok limit surroundings (token :: tokens)
      have shorter := advances_declaration (depthOf limit + 1) surroundings (token :: tokens) kept
        (List.cons_ne_nil _ _) isOk
      obtain ⟨further, isFurther⟩ := inductionHypothesis _ (bound ▸ shorter) _ rfl
      refine ⟨(declaration (depthOf limit + 1) surroundings (token :: tokens)).parsed ++ further,
        fun found => ?_⟩
      rw [repeated_eq steady, bind_eq, declaration_succ,
        declarationStep_cons (recoveryDepth_le limit)]
      dsimp only
      rw [← declaration_succ, isFurther]
      simp [Reply.after, Reply.parsed]

/-- Declarations that are gathered onto others are those that the text is read as. -/
private theorem repeated_eq_parse (limit : Nat) (endLine : Int) (found : List Stmt)
    (tokens : List Token) :
    repeated found (declarationStep hasNext (declaration (depthOf limit + 1))) ⟨endLine, false⟩
        tokens =
      ⟨(parse limit tokens endLine).errors, [],
        .ok ((parse limit tokens endLine).statements.reverse ++ found)⟩ := by
  obtain ⟨parsed, all⟩ := repeated_declarations limit ⟨endLine, false⟩ tokens
  have isParsed : parse limit tokens endLine = parsed := by
    unfold parse
    rw [declarations_eq, bind_eq, all]
    simp [Reply.after, pure, Rule.pure]
  rw [all, isParsed]

/-- Nothing is read from no tokens. -/
@[simp] theorem parse_nil (limit : Nat) (endLine : Int) : parse limit [] endLine = ⟨[], []⟩ := rfl

/-- A program is its first declaration and the program behind that. -/
theorem parse_cons (limit : Nat) (endLine : Int) (token : Token) (tokens : List Token) :
    parse limit (token :: tokens) endLine =
      let reply := declaration (depthOf limit + 1) ⟨endLine, false⟩ (token :: tokens)
      reply.parsed ++ parse limit reply.rest endLine := by
  have whole := repeated_eq_parse limit endLine [] (token :: tokens)
  rw [repeated_eq (steady_declarations hasNext_looksAhead (depthOf limit + 1)), bind_eq,
    declaration_succ, declarationStep_cons (recoveryDepth_le limit)] at whole
  dsimp only at whole
  rw [← declaration_succ, repeated_eq_parse] at whole
  obtain ⟨errors, -, result⟩ := Reply.mk.inj whole
  have statements := congrArg List.reverse (Except.ok.inj result)
  simp only [List.append_nil, List.reverse_append, List.reverse_reverse] at statements
  exact congrArg₂ Parsed.mk statements.symm errors.symm

/-- A declaration with all of the limit leaves fewer tokens than it was given. -/
theorem declaration_length_lt (limit : Nat) (surroundings : Surroundings) (token : Token)
    (tokens : List Token) :
    (declaration (depthOf limit + 1) surroundings (token :: tokens)).rest.length <
      (token :: tokens).length := by
  obtain ⟨found, isOk⟩ := declaration_ok limit surroundings (token :: tokens)
  exact advances_declaration (depthOf limit + 1) _ _ found (List.cons_ne_nil _ _) isOk

/-- If every declaration on the way is read alike with further tokens behind, so is the program. -/
theorem parse_append {limit : Nat} {behind : List Token} {endLine otherLine : Int}
    (stands : List Token → Prop)
    (declares : ∀ token tokens, stands (token :: tokens) →
      declaration (depthOf limit + 1) ⟨otherLine, false⟩ (token :: tokens ++ behind) =
          (declaration (depthOf limit + 1) ⟨endLine, false⟩ (token :: tokens)).before behind ∧
        stands (declaration (depthOf limit + 1) ⟨endLine, false⟩ (token :: tokens)).rest)
    {tokens : List Token} (isFirst : stands tokens) :
    parse limit (tokens ++ behind) otherLine =
      parse limit tokens endLine ++ parse limit behind otherLine := by
  generalize bound : tokens.length = count
  induction count using Nat.strongRecOn generalizing tokens with
  | _ count inductionHypothesis =>
    cases tokens with
    | nil => simp
    | cons token tokens =>
      obtain ⟨same, isNext⟩ := declares token tokens isFirst
      have shorter := declaration_length_lt limit ⟨endLine, false⟩ token tokens
      have further := inductionHypothesis _ (bound ▸ shorter) isNext rfl
      rw [parse_cons limit endLine, List.cons_append, parse_cons, ← List.cons_append, same]
      simp only [Reply.before]
      rw [further, Parsed.append_assoc]
      rfl

/-! ## Companions of programs -/

/-- Tokens that stand for others are read as trees that stand for theirs, and the same is reported
at tokens that stand for each other. -/
theorem parse_companions (limit : Nat) {pairing : Pairing} {tokens others : List Token}
    {endLine otherLine : Int} (all : List.Forall₂ pairing.Pairs tokens others)
    (endsAlike : pairing.Pairs (.endOfText endLine) (.endOfText otherLine)) :
    List.Forall₂ pairing.OnStmt (parse limit tokens endLine).statements
        (parse limit others otherLine).statements ∧
      List.Forall₂ pairing.OnError (parse limit tokens endLine).errors
        (parse limit others otherLine).errors := by
  let companion : Companion := ⟨pairing, [], endLine, otherLine⟩
  have extend : companion.Extends tokens others := ⟨others, all, (List.append_nil others).symm⟩
  have parallel := parallel_declarations hasNext_looksAhead
    (advances_declaration (depthOf limit + 1)) parallel_hasNext
    (parallel_statement_declaration companion (depthOf limit + 1)).2
  have beside := @parallel false tokens others extend
  obtain ⟨errors, -, result⟩ := beside.replies (.inr (.inl ⟨rfl, endsAlike⟩))
  change List.Forall₂ _ (parse limit tokens companion.endLine).statements
      (parse limit others companion.otherLine).statements ∧
    List.Forall₂ _ (parse limit tokens companion.endLine).errors
      (parse limit others companion.otherLine).errors
  unfold parse
  generalize declarations hasNext (declaration (depthOf limit + 1)) _ tokens = reply at *
  generalize declarations hasNext (declaration (depthOf limit + 1)) _ others = other at *
  obtain ⟨_, rest, found⟩ := reply
  obtain ⟨_, otherRest, otherFound⟩ := other
  cases result with
  | ok statements => exact ⟨statements, errors⟩
  | error stop => exact ⟨.nil, errors⟩

/-- To a companion with the same tokens a rule gives the same reply, with what stands behind. -/
theorem Companion.Replies.eq_before {behind : List Token} {endLine otherLine : Int}
    {reply other : Reply Stmt}
    (replies : Companion.Replies ⟨.equality, behind, endLine, otherLine⟩
      Pairing.equality.OnStmt reply other) : other = reply.before behind := by
  obtain ⟨errors, rest, result⟩ := reply
  obtain ⟨otherErrors, otherRest, otherResult⟩ := other
  obtain ⟨sameErrors, ⟨front, sameTokens, isRest⟩, sameResult⟩ := replies
  obtain rfl : otherErrors = errors :=
    Pairing.eq_of_forall₂ (fun _ _ => Pairing.eq_of_onError) sameErrors
  obtain rfl : front = rest := Pairing.eq_of_pairs sameTokens
  obtain rfl : otherRest = front ++ behind := isRest
  cases sameResult with
  | ok trees => rw [Pairing.eq_of_onStmt trees, Reply.before]
  | error stop => rfl

/-- The search for the next statement does not look at what stands behind, if it finds its place
before that. -/
theorem synchronize_append {tokens : List Token} (nonempty : tokens ≠ [])
    (settled : synchronize tokens ≠ [] ∨ (tokens.map (·.kind)).getLast? = some .semicolon)
    (behind : List Token) : synchronize (tokens ++ behind) = synchronize tokens ++ behind := by
  let companion : Companion := ⟨.equality, behind, 0, 0⟩
  have extend : companion.Extends tokens (tokens ++ behind) :=
    ⟨tokens, List.forall₂_same.mpr fun _ _ => rfl, rfl⟩
  obtain ⟨front, same, isRest⟩ := extends_synchronize extend (.inl nonempty)
    (settled.imp_right .inr)
  rwa [Pairing.eq_of_pairs same] at isRest

/-- A problem is reported at the next token, whatever stands behind that. -/
theorem atNext_append (problem : Problem) {tokens : List Token} (nonempty : tokens ≠ [])
    (behind : List Token) (endLine otherLine : Int) :
    SyntaxError.atNext problem (tokens ++ behind) otherLine = .atNext problem tokens endLine := by
  obtain ⟨token, tokens, rfl⟩ := List.exists_cons_of_ne_nil nonempty
  rfl

/-- The rule reads the tokens to their end and finds a phrase, or it is stopped at a token of theirs
from which the search for the next statement does not lead behind them. -/
def Reply.StaysWithin {α : Type} (reply : Reply α) : Prop :=
  match reply.result with
  | .ok _ => True
  | .error _ => reply.rest ≠ [] ∧ (synchronize reply.rest ≠ [] ∨
      (reply.rest.map (·.kind)).getLast? = some .semicolon)

/-- A declaration is read alike with further tokens behind if it stays within its own. -/
theorem declaration_before {depth : Nat} {tokens behind : List Token} {endLine otherLine : Int}
    (staysWithin : (declarationBody (statement depth) (declaration depth) (expression depth)
      ⟨endLine, false⟩ tokens).StaysWithin)
    (notElse : Stops [.keyElse] behind) :
    declaration (depth + 1) ⟨otherLine, false⟩ (tokens ++ behind) =
      (declaration (depth + 1) ⟨endLine, false⟩ tokens).before behind := by
  let companion : Companion := ⟨.equality, behind, endLine, otherLine⟩
  obtain ⟨parallelBody, parallelDeclaration⟩ := parallel_statement_declaration companion depth
  have extend : companion.Extends tokens (tokens ++ behind) :=
    ⟨tokens, List.forall₂_same.mpr fun _ _ => rfl, rfl⟩
  have beside := @parallel_declarationBody _ _ parallelBody parallelDeclaration false _ _ extend
  rw [declaration_succ]
  unfold recovering
  dsimp only
  generalize declarationBody (statement depth) (declaration depth) (expression depth) = body at *
  have replies := beside.replies
  change companion.Settles _ (body ⟨endLine, false⟩ tokens) →
    companion.Replies _ (body ⟨endLine, false⟩ tokens) (body ⟨otherLine, false⟩ (tokens ++ behind))
    at replies
  generalize body ⟨endLine, false⟩ tokens = reply at *
  generalize body ⟨otherLine, false⟩ (tokens ++ behind) = other at *
  obtain ⟨errors, rest, result⟩ := reply
  cases result with
  | ok statement =>
    have settled : companion.Settles (Stops [.keyElse] companion.behind)
        (⟨errors, rest, .ok statement⟩ : Reply Stmt) := .inr (.inr ⟨notElse, statement, rfl⟩)
    rw [(replies settled).eq_before]
    rfl
  | error stop =>
    obtain ⟨isLeft, isSearched⟩ := staysWithin
    rw [(replies (.inl isLeft)).eq_before]
    cases stop with
    | syntaxError => simp only [Reply.before, synchronize_append isLeft isSearched]
    | tooDeep =>
      simp only [Reply.before, synchronize_append isLeft isSearched,
        atNext_append _ isLeft behind endLine]
      split
      · rfl
      · split <;> rfl

/-- A declaration that reports nothing is kept. -/
theorem ok_of_recovering {depth : Nat} (enough : recoveryDepth ≤ depth) {rule : Rule Stmt}
    (orderly : Orderly rule) {surroundings : Surroundings} {tokens : List Token}
    (clean : (recovering depth rule surroundings tokens).errors = []) :
    ∃ statement, (rule surroundings tokens).result = .ok statement := by
  have recovers := recovery depth rule surroundings tokens
  generalize recovering depth rule surroundings tokens = reply at recovers clean
  cases recovers with
  | kept isOk => exact ⟨_, isOk⟩
  | dropped stopped => exact absurd clean (orderly.reported surroundings tokens stopped)
  | tooDeep => exact absurd clean (List.append_ne_nil_of_right_ne_nil _ (List.cons_ne_nil _ _))
  | passedOn _ tooLittle => exact absurd enough (Nat.not_le_of_lt tooLittle)

/-- A program without errors is read alike with a further program behind, unless that would go on
its last conditional. -/
theorem parse_append_of_clean {limit : Nat} {tokens behind : List Token} {endLine : Int}
    (clean : (parse limit tokens endLine).errors = []) (notElse : Stops [.keyElse] behind)
    (otherLine : Int) :
    parse limit (tokens ++ behind) otherLine =
      parse limit tokens endLine ++ parse limit behind otherLine := by
  refine parse_append (fun tokens => (parse limit tokens endLine).errors = [])
    (fun token tokens clean => ?_) clean
  rw [parse_cons, Parsed.errors_append, List.append_eq_nil_iff] at clean
  obtain ⟨cleanFirst, cleanRest⟩ := clean
  refine ⟨declaration_before ?_ notElse, cleanRest⟩
  obtain ⟨statement, isOk⟩ := ok_of_recovering (recoveryDepth_le limit)
    (orderly_declarationBody (depthOf limit)) cleanFirst
  rw [Reply.StaysWithin, isOk]
  trivial

/-- Parsing goes on behind a program without errors as at the beginning of a text: the statements of
the program are followed by those of what stands behind it, and the errors are the errors of that.
Only an `else` would go on the program. -/
theorem parse_of_cleanFront {limit : Nat} {front behind : List Token} {own last : Token}
    {statements : List Stmt} (noEnd : ∀ token ∈ front ++ behind, token.kind ≠ .endOfFile)
    (ownEnds : own.kind = .endOfFile) (lastEnds : last.kind = .endOfFile)
    (clean : parseClosed limit (front ++ [own]) = some ⟨statements, []⟩)
    (notElse : Stops [.keyElse] behind) :
    ∃ parsed : Parsed, parseClosed limit (behind ++ [last]) = some parsed ∧
      parseClosed limit (front ++ behind ++ [last]) =
        some ⟨statements ++ parsed.statements, parsed.errors⟩ := by
  obtain ⟨noEndInFront, noEndBehind⟩ := List.forall_mem_append.mp noEnd
  rw [parseClosed_append noEndInFront ownEnds, Option.some.injEq] at clean
  refine ⟨parse limit behind last.line, parseClosed_append noEndBehind lastEnds, ?_⟩
  have joined := parse_append_of_clean (congrArg (·.errors) clean) notElse last.line
  rw [parseClosed_append noEnd lastEnds, joined, clean]
  rfl

/-- Behind a conditional without an `else` stands text that is no program: its error is the one it
has alone, and the statement that follows it is read. -/
theorem parse_of_cleanFront_conditional :
    let a : Token := ⟨.identifier, "a", .nil, 1⟩
    let semicolon : Token := ⟨.semicolon, ";", .nil, 1⟩
    let paren : Token := ⟨.rightParen, ")", .nil, 2⟩
    let front := [⟨.keyIf, "if", .nil, 1⟩, ⟨.leftParen, "(", .nil, 1⟩, a, paren, a, semicolon]
    let behind := [paren, semicolon, a, semicolon]
    parseClosed 6 (front ++ behind ++ [.endOfText 2]) =
      some ⟨[.conditional (.reference a) (.expression (.reference a)) none,
        .expression (.reference a)], [.atToken (.expected .expression) paren]⟩ := by
  intro a semicolon paren front behind
  have notElse : Stops [.keyElse] behind := by
    rintro _ ⟨⟩
    decide
  have clean : parseClosed 6 (front ++ [.endOfText 1]) =
      some ⟨[.conditional (.reference a) (.expression (.reference a)) none], []⟩ := by
    cbv
  have isEnd : (Token.endOfText 2).kind = .endOfFile := rfl
  obtain ⟨parsed, isBehind, isWhole⟩ :=
    parse_of_cleanFront (by decide) rfl isEnd clean notElse
  have isParsed : parseClosed 6 (behind ++ [.endOfText 2]) = some
      ⟨[.expression (.reference a)], [.atToken (.expected .expression) paren]⟩ := by
    cbv
  obtain rfl := Option.some.inj (isParsed.symm.trans isBehind)
  exact isWhole

end LoxLang.Grammar
