import LoxLang.Proofs.Grammar.Joining

/-!
# Bare expressions

Tokens can be read as a program or as one bare expression. They are an expression if and only if
they are an expression statement with a semicolon behind them: `derives_expression_iff`. They are
never both an expression and a program, since the two end with different tokens:
`not_derives_of_phrase`.

Where the rules read the statement, they also read the expression without the semicolon, within the
same limit on nesting: `parseExpression_of_parse`. No rule for expressions ever takes a semicolon or
asks for one, so that a semicolon is as good as the end of the text: `Rule.LeavesLast`.
-/

namespace LoxLang.Grammar

open Rule

/-! ## Last tokens -/

/-- The tokens end with one of these kinds. -/
def EndsWith (kinds : List TokenKind) (tokens : List Token) : Prop :=
  ∃ front last, tokens = front ++ [last] ∧ last.kind ∈ kinds

namespace EndsWith

variable {kinds others : List TokenKind} {tokens : List Token}

/-- What stands last is of its kind. -/
theorem last {token : Token} (isKind : token.kind ∈ kinds) (front : List Token) :
    EndsWith kinds (front ++ [token]) :=
  ⟨front, token, rfl, isKind⟩

/-- Tokens in front do not change how a list ends. -/
theorem append (ends : EndsWith kinds tokens) (front : List Token) :
    EndsWith kinds (front ++ tokens) := by
  obtain ⟨middle, last, rfl, isKind⟩ := ends
  exact ⟨front ++ middle, last, (List.append_assoc ..).symm, isKind⟩

/-- A token in front does not change how a list ends. -/
theorem cons (ends : EndsWith kinds tokens) (token : Token) : EndsWith kinds (token :: tokens) :=
  ends.append [token]

/-- A list does not end with kinds of two sorts at once. -/
theorem not_disjoint (ends : EndsWith kinds tokens) (endsToo : EndsWith others tokens) :
    ¬ ∀ kind ∈ kinds, kind ∉ others := by
  intro disjoint
  obtain ⟨front, last, rfl, isKind⟩ := ends
  obtain ⟨front', last', same, isOther⟩ := endsToo
  obtain ⟨-, sameLast⟩ := List.append_inj' same rfl
  obtain rfl := List.singleton_injective sameLast
  exact disjoint _ isKind isOther

end EndsWith

/-- The kinds of tokens that a phrase can end with. -/
def Symbol.ends : List TokenKind :=
  [.number, .string, .keyTrue, .keyFalse, .keyNil, .identifier, .rightParen]

/-- A phrase of any symbol ends with a literal, a name or a parenthesis, by induction on the phrase.
-/
theorem Phrase.endsWith {symbol : Symbol} {tokens : List Token} {tree : Expr}
    (phrase : Phrase symbol tokens tree) : EndsWith Symbol.ends tokens := by
  induction phrase with
  | assign _ _ _ value => exact (value.cons _).cons _
  | operations _ inner | operand _ inner | called _ inner | callee _ inner => exact inner
  | operate _ _ _ _ right => exact (right.cons _).append _
  | unary _ _ operand => exact operand.cons _
  | call _ _ _ _ _ closes | grouping _ _ closes => exact .last (by simp [closes, Symbol.ends]) _
  | number isKind | text isKind | truth isKind | falsehood isKind | nil isKind | name isKind =>
    exact .last (by simp [isKind, Symbol.ends]) []

/-- A variable declaration ends with its semicolon. -/
theorem VariableDeclaration.endsWith {tokens : List Token} {tree : Stmt}
    (declared : VariableDeclaration tokens tree) : EndsWith [.semicolon] tokens := by
  cases declared with
  | @bare keyword name _ _ _ ends => exact .last (List.mem_singleton.mpr ends) [keyword, name]
  | initialized _ _ _ _ ends => exact .last (List.mem_singleton.mpr ends) _

/-- The kinds of tokens that a sentence can end with. -/
def Form.ends : List TokenKind := [.semicolon, .rightBrace]

/-- A sentence ends with a semicolon or a brace. -/
theorem Sentence.endsWith {inFunction : Bool} {form : Form} {tokens : List Token} {tree : Stmt}
    (sentence : Sentence inFunction form tokens tree) : EndsWith Form.ends tokens := by
  induction sentence with
  | function _ _ _ _ _ _ _ _ _ closes | block _ _ closes =>
    exact .last (by simp [closes, Form.ends]) _
  | var declared =>
    obtain ⟨front, last, same, isKind⟩ := declared.endsWith
    exact ⟨front, last, same, List.mem_cons.mpr (.inl (List.mem_singleton.mp isKind))⟩
  | statement _ inner => exact inner
  | expression evaluated =>
    obtain ⟨-, ends⟩ := evaluated
    exact .last (by simp [ends, Form.ends]) _
  | print _ _ ends | ret _ _ ends => exact .last (by simp [ends, Form.ends]) _
  | loop _ _ _ _ _ body | forLoop _ _ _ _ _ _ _ _ body | ifThen _ _ _ _ _ body
  | ifElse _ _ _ _ _ _ _ _ body => exact (body.cons _).append _

/-- A program is derived if it is made of sentences one after the other. -/
theorem derives_iff {tokens : List Token} {statements : List Stmt} :
    Derives tokens statements ↔ ∃ parts : List (List Token × Stmt),
      (parts.map (·.1)).flatten = tokens ∧ parts.map (·.2) = statements ∧
        ∀ part ∈ parts, Sentence false .declaration part.1 part.2 := by
  constructor
  · rintro ⟨each⟩
    exact ⟨_, rfl, rfl, each⟩
  · rintro ⟨parts, rfl, rfl, each⟩
    exact .intro each

/-- No tokens are both a bare expression and a program. -/
theorem not_derives_of_phrase {tokens : List Token} {tree : Expr}
    (phrase : Phrase .assignment tokens tree) (statements : List Stmt) :
    ¬ Derives tokens statements := by
  rw [derives_iff]
  rintro ⟨parts, rfl, -, each⟩
  rcases List.eq_nil_or_concat parts with rfl | ⟨front, part, rfl⟩
  · exact absurd phrase.startsWith.length_pos (Nat.lt_irrefl 0)
  · have sentence := each part (by simp)
    have ends := sentence.endsWith.append (front.map (·.1)).flatten
    exact phrase.endsWith.not_disjoint (by simpa using ends) (by decide)

/-! ## The expression of a statement -/

/-- The tree of a for loop is a loop or a block, and no expression statement. -/
theorem forTree_ne_expression (start : Option Stmt) (condition increment : Option Expr)
    (body : Stmt) (value : Expr) : forTree start condition increment body ≠ .expression value := by
  cases start <;> exact nofun

/-- Only an expression statement has the tree of one. -/
theorem Sentence.expressionStatement {inFunction : Bool} {form : Form} {tokens : List Token}
    {tree : Stmt} (sentence : Sentence inFunction form tokens tree) {value : Expr}
    (isValue : tree = .expression value) : ExpressionStatement tokens (.expression value) := by
  induction sentence with
  | var declared => cases declared <;> cases isValue
  | statement _ inner => exact inner isValue
  | expression evaluated => exact isValue ▸ evaluated
  | forLoop => exact absurd isValue (forTree_ne_expression _ _ _ _ _)
  | function | print | ret | block | loop | ifThen | ifElse => cases isValue

/-- An expression statement is an expression with the last token taken off. -/
theorem ExpressionStatement.phrase {tokens : List Token} {semicolon : Token} {value : Expr}
    (evaluated : ExpressionStatement (tokens ++ [semicolon]) (.expression value)) :
    Phrase .assignment tokens value := by
  generalize isWhole : tokens ++ [semicolon] = whole at evaluated
  cases evaluated with
  | intro phrase =>
    obtain ⟨rfl, -⟩ := List.append_inj' isWhole rfl
    exact phrase

/-- One sentence is a program. -/
theorem derives_singleton {tokens : List Token} {tree : Stmt}
    (sentence : Sentence false .declaration tokens tree) : Derives tokens [tree] :=
  derives_iff.mpr ⟨[(tokens, tree)], by simp, rfl, List.forall_mem_singleton.mpr sentence⟩

/-- Tokens are a bare expression if and only if they are a statement with a semicolon. -/
theorem derives_expression_iff {tokens : List Token} {semicolon : Token}
    (ends : semicolon.kind = .semicolon) {value : Expr} :
    Derives (tokens ++ [semicolon]) [.expression value] ↔ Phrase .assignment tokens value := by
  constructor
  · intro derives
    obtain ⟨parts, isWhole, isTrees, each⟩ := derives_iff.mp derives
    obtain ⟨⟨used, tree⟩, rfl, isTree⟩ := List.map_eq_singleton_iff.mp isTrees
    obtain rfl : used = tokens ++ [semicolon] := by simpa using isWhole
    exact ((each _ (List.mem_singleton_self _)).expressionStatement isTree).phrase
  · intro phrase
    exact derives_singleton (.statement (.expression (.intro phrase ends)))

/-! ## Semicolons and ends of texts -/

namespace Rule

variable {α β : Type}

/-- The rule does not take a token that stands last, and it reads what stands in front of that token
without it, too. -/
def LeavesLast (last : Token) (rule : Rule α) (tokens : List Token) : Prop :=
  ∀ ⦃surroundings others : Surroundings⦄ ⦃value : α⦄ ⦃rest : List Token⦄,
    Reads rule surroundings (tokens ++ [last]) value rest →
      ∃ left, rest = left ++ [last] ∧ Reads rule others tokens value left

namespace LeavesLast

variable {last : Token} {tokens : List Token}

/-- A rule that only gives a value takes nothing. -/
protected theorem pure (value : α) : LeavesLast last (pure value) tokens := by
  intro surroundings others found rest reads
  obtain ⟨rfl, rfl⟩ := reads_pure.mp reads
  exact ⟨tokens, rfl, reads_pure.mpr ⟨rfl, rfl⟩⟩

/-- A sequence leaves the last token if its second part does so wherever it is run. -/
protected theorem bind {first : Rule α} {second : α → Rule β}
    (leavesFirst : LeavesLast last first tokens)
    (leavesSecond : ∀ ⦃surroundings : Surroundings⦄ ⦃between : α⦄ ⦃left : List Token⦄,
      Reads first surroundings tokens between left → LeavesLast last (second between) left) :
    LeavesLast last (first >>= second) tokens := by
  intro surroundings others value rest reads
  obtain ⟨between, middle, readsFirst, readsSecond⟩ := reads_bind.mp reads
  obtain ⟨left, rfl, readsAlone⟩ := @leavesFirst _ others _ _ readsFirst
  obtain ⟨further, isRest, readsFurther⟩ := leavesSecond readsAlone readsSecond
  exact ⟨further, isRest, reads_bind.mpr ⟨between, left, readsAlone, readsFurther⟩⟩

/-- A rule that reports something or is stopped reads nothing. -/
protected theorem absurd {rule : Rule α}
    (never : ∀ {surroundings tokens value rest}, ¬ Reads rule surroundings tokens value rest) :
    LeavesLast last rule tokens :=
  fun _ _ _ _ reads => absurd reads never

/-- A token of another kind that stands last is not accepted; without it, nothing else would be. -/
protected theorem accept {kinds : List TokenKind} (isOther : last.kind ∉ kinds) :
    LeavesLast last (accept kinds) tokens := by
  intro surroundings others found rest reads
  cases found with
  | none =>
    obtain ⟨stops, rfl⟩ := reads_accept_none.mp reads
    refine ⟨tokens, rfl, reads_accept_none.mpr ⟨?_, rfl⟩⟩
    cases tokens with
    | nil => exact stops_nil kinds
    | cons token tokens => exact stops
  | some token =>
    obtain ⟨isNext, isKind⟩ := reads_accept_some.mp reads
    cases tokens with
    | nil =>
      obtain ⟨rfl, -⟩ := List.cons.inj isNext
      exact absurd isKind isOther
    | cons first tokens =>
      obtain ⟨rfl, rfl⟩ := List.cons.inj isNext
      exact ⟨tokens, rfl, reads_accept_some.mpr ⟨rfl, isKind⟩⟩

/-- Whether a kind is next does not depend on a last token of another kind. -/
protected theorem nextIs {kind : TokenKind} (isOther : last.kind ≠ kind) :
    LeavesLast last (nextIs kind) tokens := by
  intro surroundings others found rest reads
  obtain ⟨rfl, rfl⟩ := reads_nextIs.mp reads
  refine ⟨tokens, rfl, reads_nextIs.mpr ⟨?_, rfl⟩⟩
  cases tokens with
  | nil => simp [isOther]
  | cons token tokens => rfl

/-- An expected token is not a last one of another kind. -/
protected theorem expect {kind : TokenKind} (missing : Expected) (isOther : last.kind ≠ kind) :
    LeavesLast last (expect kind missing) tokens := by
  refine .bind (.accept (by simpa using isOther)) fun surroundings found left _ => ?_
  cases found with
  | none => exact .absurd not_reads_fail
  | some token => exact .pure token

/-- A choice that does not depend on the tokens leaves the last one on both branches. -/
protected theorem ite {condition : Prop} [Decidable condition] {rule rule' : Rule α}
    (leaves : LeavesLast last rule tokens) (leaves' : LeavesLast last rule' tokens) :
    LeavesLast last (if condition then rule else rule') tokens := by
  split
  · exact leaves
  · exact leaves'

/-- In front of the last token there is one to be looked at. -/
protected theorem next {token : Token} : LeavesLast last next (token :: tokens) := by
  intro surroundings others found rest reads
  obtain ⟨rfl, rfl⟩ := reads_next.mp reads
  exact ⟨token :: tokens, rfl, reads_next.mpr ⟨rfl, rfl⟩⟩

/-- A token in front of the last one is skipped with it or without it. -/
protected theorem skip {token : Token} : LeavesLast last skip (token :: tokens) := by
  intro surroundings others found rest reads
  obtain rfl := reads_skip.mp reads
  exact ⟨tokens, rfl, reads_skip.mpr rfl⟩

/-- A step that begins by taking a token of some kinds, of which the last token is none. -/
theorem acceptStep {kinds : List TokenKind} {step : Token → Rule (Option α)}
    (isOther : last.kind ∉ kinds) (leaves : ∀ token left, LeavesLast last (step token) left) :
    LeavesLast last
      (do
        match ← accept kinds with
        | none => return none
        | some token => step token) tokens := by
  refine .bind (.accept isOther) fun surroundings found left _ => ?_
  cases found with
  | none => exact .pure none
  | some token => exact leaves token left

/-- A steady repetition leaves the last token if its step does, by induction on the turns. -/
protected theorem repeated {step : α → Rule (Option α)} (steady : Steady step)
    (leaves : ∀ value left, LeavesLast last (step value) left) (value : α) :
    LeavesLast last (repeated value step) tokens := by
  generalize bound : tokens.length = count
  -- The induction is on the number of tokens, which every further turn makes smaller.
  induction count using Nat.strongRecOn generalizing value tokens with
  | _ count inductionHypothesis =>
    rw [repeated_eq steady]
    refine .bind (leaves value tokens) fun surroundings found left reads => ?_
    cases found with
    | none => exact .pure value
    | some further =>
      have shorter : left.length < tokens.length := by
        have taken := steady.takes (congrArg Reply.result reads)
        rwa [reads] at taken
      exact inductionHypothesis _ (by omega) further rfl

end LeavesLast
end Rule

section Expressions

variable {semicolon : Token} {expression unary operand : Rule Expr} {tokens : List Token}

/-- The rule never takes a semicolon at the end of the tokens. -/
def LeavesSemicolon {α : Type} (rule : Rule α) : Prop :=
  ∀ ⦃semicolon : Token⦄ ⦃tokens : List Token⦄, semicolon.kind = .semicolon →
    LeavesLast semicolon rule tokens

/-- A chain of operators leaves the semicolon, which is none of them. -/
theorem leavesLast_chain {level : Level} (notSemicolon : .semicolon ∉ level.operators)
    (orderly : Orderly operand) (leaves : LeavesSemicolon operand) :
    LeavesSemicolon (chain level operand) := by
  intro semicolon tokens ends
  have step (value : Expr) (left : List Token) :
      LeavesLast semicolon (chainStep level operand value) left :=
    .acceptStep (ends ▸ notSemicolon) fun _ _ => .bind (leaves ends) fun _ _ _ _ => .pure _
  exact .bind (leaves ends) fun _ _ _ _ => .repeated (steady_chainStep orderly) step _

/-- Levels of operators above each other leave the semicolon. -/
theorem leavesLast_operations (orderly : Orderly operand) (leaves : LeavesSemicolon operand)
    {levels : List Level} (notSemicolon : ∀ level ∈ levels, .semicolon ∉ level.operators) :
    LeavesSemicolon (operations levels operand) := by
  induction levels with
  | nil => exact leaves
  | cons level levels inductionHypothesis =>
    obtain ⟨notHere, notFurther⟩ := List.forall_mem_cons.mp notSemicolon
    exact leavesLast_chain notHere (refined_operations levels orderly.refined).orderly
      (inductionHypothesis notFurther)

/-- A list leaves the semicolon, since it goes on with commas only. -/
theorem leavesLast_listed {α : Type} {tooMany : Problem} {item : Rule α} (orderly : Orderly item)
    (leaves : LeavesSemicolon item) : LeavesSemicolon (listed tooMany item) := by
  intro semicolon tokens ends
  have further (found : Nat × List α) (left : List Token) :
      LeavesLast semicolon (item >>= fun further => pure (some (found.1 + 1, further :: found.2)))
        left :=
    .bind (leaves ends) fun _ _ _ _ => .pure _
  have step (found : Nat × List α) (left : List Token) :
      LeavesLast semicolon (listedStep tooMany item found) left :=
    .acceptStep (by simp [ends]) fun _ _ =>
      .ite (.bind (.absurd not_reads_reportNext) fun _ _ _ _ => further found _) (further found _)
  exact .bind (leaves ends) fun _ _ _ _ =>
    .bind (.repeated (steady_listedStep orderly) step _) fun _ _ _ _ => .pure _

/-- Calls leave the semicolon, since they go on with parentheses only. -/
theorem leavesLast_calls (orderly : Orderly expression) (leaves : LeavesSemicolon expression)
    (callee : Expr) : LeavesSemicolon (calls expression callee) := by
  intro semicolon tokens ends
  have closed (callee : Expr) (arguments : List Expr) (left : List Token) :
      LeavesLast semicolon (expect .rightParen .parenAfterArguments >>= fun paren =>
        pure (some (Expr.call callee paren arguments))) left :=
    .bind (.expect _ (by simp [ends])) fun _ _ _ _ => .pure _
  have step (callee : Expr) (left : List Token) :
      LeavesLast semicolon (callStep expression callee) left :=
    .acceptStep (by simp [ends]) fun _ _ => .bind (.nextIs (by simp [ends])) fun _ _ _ _ =>
      .ite (.bind (.pure _) fun _ _ _ _ => closed _ _ _)
        (.bind (leavesLast_listed orderly leaves ends) fun _ _ _ _ => closed _ _ _)
  exact .repeated (steady_callStep orderly) step callee

/-- A primary expression leaves the semicolon. -/
theorem leavesLast_primary (leaves : LeavesSemicolon expression) :
    LeavesSemicolon (primary expression) := by
  intro semicolon tokens ends
  cases tokens with
  | nil =>
    -- A semicolon is no more of an expression than the end of the text.
    intro surroundings others value rest reads
    simp [primary, ends] at reads
  | cons token tokens =>
    refine .bind .next fun surroundings found left reads => ?_
    obtain ⟨rfl, rfl⟩ := reads_next.mp reads
    have taken (tree : Expr) :
        LeavesLast semicolon (skip >>= fun _ => pure tree) (token :: tokens) :=
      .bind .skip fun _ _ _ _ => .pure tree
    dsimp only [List.head?_cons]
    split
    iterate 6 exact taken _
    · exact .bind .skip fun _ _ _ _ => .bind (leaves ends) fun _ _ _ _ =>
        .bind (.expect _ (by simp [ends])) fun _ _ _ _ => .pure _
    · exact .absurd not_reads_fail

/-- The body of a unary expression leaves the semicolon if its parts do. -/
theorem leavesLast_unaryBody (orderly : Orderly expression) (leavesUnary : LeavesSemicolon unary)
    (leaves : LeavesSemicolon expression) : LeavesSemicolon (unaryBody unary expression) := by
  intro semicolon tokens ends
  refine .bind (.accept (by simp [ends])) fun surroundings operator left _ => ?_
  cases operator with
  | none => exact .bind (leavesLast_primary leaves ends) fun _ callee _ _ =>
      leavesLast_calls orderly leaves callee ends
  | some operator => exact .bind (leavesUnary ends) fun _ _ _ _ => .pure _

/-- The body of an expression leaves the semicolon if its parts do. -/
theorem leavesLast_expressionBody (orderly : Orderly unary) (leavesUnary : LeavesSemicolon unary)
    (leaves : LeavesSemicolon expression) : LeavesSemicolon (expressionBody unary expression) := by
  intro semicolon tokens ends
  refine .bind (leavesLast_operations orderly leavesUnary (by decide) ends) fun _ target left _ =>
    .bind (.accept (by simp [ends])) fun surroundings equals left _ => ?_
  cases equals with
  | none => exact .pure _
  | some equals =>
    refine .bind (leaves ends) fun _ value left _ => ?_
    cases target with
    | reference name => exact .pure _
    | _ => exact .bind (.absurd not_reads_reportAt) fun _ _ _ _ => .pure _

/-- Unary expressions and expressions leave the semicolon, by induction on the limit. -/
theorem leavesLast_unary_expression (depth : Nat) :
    LeavesSemicolon (Grammar.unary depth) ∧ LeavesSemicolon (Grammar.expression depth) := by
  induction depth with
  | zero =>
    exact ⟨fun _ _ _ => .absurd not_reads_tooDeep, fun _ _ _ => .absurd not_reads_tooDeep⟩
  | succ depth inductionHypothesis =>
    obtain ⟨leavesUnary, leaves⟩ := inductionHypothesis
    exact ⟨leavesLast_unaryBody (orderly_expression depth) leavesUnary leaves,
      leavesLast_expressionBody (orderly_unary depth) leavesUnary leaves⟩

end Expressions

/-! ## One expression -/

/-- Tokens are read as one expression if and only if the rule for expressions reads all of them. -/
theorem parseExpression_eq_iff {limit : Nat} {tokens : List Token} {endLine : Int} {expr : Expr} :
    parseExpression limit tokens endLine = (some expr, []) ↔
      Reads (expression (depthOf limit)) ⟨endLine, false⟩ tokens expr [] := by
  constructor
  · intro parsed
    obtain ⟨rest, reads⟩ := reads_of_parseExpression parsed
    obtain ⟨value, middle, readsValue, readsEnd⟩ := reads_bind.mp reads
    cases middle with
    | nil =>
      have readsResult : Reads (pure value) ⟨endLine, false⟩ [] expr rest := readsEnd
      obtain ⟨rfl, -⟩ := reads_pure.mp readsResult
      exact readsValue
    | cons token middle =>
      have readsNothing :
          Reads (fail .endOfExpression) ⟨endLine, false⟩ (token :: middle) expr rest := readsEnd
      exact absurd readsNothing not_reads_fail
  · intro reads
    have whole : Reads (wholeExpression limit) ⟨endLine, false⟩ tokens expr [] :=
      reads_bind.mpr ⟨expr, [], reads, rfl⟩
    rw [parseExpression, whole]
    rfl

/-- What a rule gives without any report, it reads. -/
theorem reads_of_ok {α : Type} {rule : Rule α} {surroundings : Surroundings} {tokens : List Token}
    {value : α} (clean : (rule surroundings tokens).errors = [])
    (isOk : (rule surroundings tokens).result = .ok value) :
    Reads rule surroundings tokens value (rule surroundings tokens).rest := by
  unfold Reads
  rw [← clean, ← isOk]

/-- The first declaration of a program without errors is read by its rule. -/
theorem reads_first {limit : Nat} {tokens : List Token} {endLine : Int} (nonempty : tokens ≠ [])
    (clean : (parse limit tokens endLine).errors = []) :
    ∃ tree rest, Reads
      (declarationBody (statement (depthOf limit)) (declaration (depthOf limit))
        (expression (depthOf limit)))
      ⟨endLine, false⟩ tokens tree rest := by
  obtain ⟨token, tokens, rfl⟩ := List.exists_cons_of_ne_nil nonempty
  rw [parse_cons, Parsed.errors_append, List.append_eq_nil_iff, declaration_succ] at clean
  obtain ⟨found, isOk⟩ := recovering_ok (recoveryDepth_le limit) _ _ _
  obtain ⟨tree, -, reads⟩ := (reads_recovering (orderly_declarationBody (depthOf limit))).mp
    (reads_of_ok clean.1 isOk)
  exact ⟨tree, _, reads⟩

/-- A declaration that begins with an expression is read by the rule for that expression. -/
theorem reads_expression_of_first {larger : Nat} {tokens rest : List Token}
    {surroundings : Surroundings} {tree : Stmt}
    (starts : StartsWith Symbol.assignment.starts tokens)
    (reads : Reads (declarationBody (statement larger) (declaration larger) (expression larger))
      surroundings tokens tree rest) :
    ∃ depth value middle, larger = depth + 1 ∧
      Reads (expression depth) surroundings tokens value middle := by
  have noDeclaration : Stops [.keyFun, .keyVar] tokens := starts.stops (by decide)
  have noKeyword : Stops [.keyFor, .keyIf, .keyPrint, .keyReturn, .keyWhile, .leftBrace] tokens :=
    starts.stops (by decide)
  obtain ⟨keyword, middle, readsKeyword, readsStatement⟩ := reads_bind.mp reads
  cases keyword with
  | some keyword =>
    obtain ⟨rfl, isKeyword⟩ := reads_accept_some.mp readsKeyword
    exact absurd isKeyword (stops_cons.mp noDeclaration)
  | none =>
    obtain ⟨-, rfl⟩ := reads_accept_none.mp readsKeyword
    cases larger with
    | zero => exact absurd readsStatement not_reads_tooDeep
    | succ depth =>
      obtain ⟨keyword, middle, readsKeyword, readsLine⟩ := reads_bind.mp readsStatement
      cases keyword with
      | some keyword =>
        obtain ⟨rfl, isKeyword⟩ := reads_accept_some.mp readsKeyword
        exact absurd isKeyword (stops_cons.mp noKeyword)
      | none =>
        obtain ⟨-, rfl⟩ := reads_accept_none.mp readsKeyword
        obtain ⟨value, left, readsValue, -⟩ := reads_bind.mp readsLine
        exact ⟨depth, value, left, rfl, readsValue⟩

/-- An expression with a larger limit refines the one with a smaller limit. -/
theorem refined_expression {smaller larger : Nat} (le : smaller ≤ larger) :
    Refined (expression smaller) (expression larger) := by
  induction le with
  | refl => exact (orderly_expression smaller).refined
  | step _ inductionHypothesis => exact inductionHypothesis.trans (refined_unary_expression _).2

/-- An expression that is read is the one that is derived, whatever the limit. -/
theorem reads_of_phrase {tokens rest : List Token} {tree value : Expr}
    (phrase : Phrase .assignment tokens tree) {depth larger : Nat} (le : depth ≤ larger)
    {surroundings : Surroundings}
    (reads : Reads (expression depth) surroundings tokens value rest) :
    Reads (expression larger) surroundings tokens tree [] := by
  have large {more : Nat} (le : depth ≤ more) :
      Reads (expression more) surroundings tokens value rest := by
    rcases (refined_expression le).agree surroundings tokens with isDeep | same
    · rw [reads] at isDeep
      obtain ⟨⟨⟩⟩ | ⟨error, member, -⟩ := isDeep
      cases member
    · exact same.symm.trans reads
  have enough : Reads (expression (max depth (tokens.length + 1))) surroundings (tokens ++ []) tree
      [] :=
    phrase.complete.reads (Nat.le_max_right depth (tokens.length + 1)) (stops_nil _)
  rw [List.append_nil] at enough
  have same := (large (Nat.le_max_left _ _)).symm.trans enough
  obtain ⟨-, rfl, isValue⟩ := Reply.mk.inj same
  obtain rfl := Except.ok.inj isValue
  exact large le

/-- Where the tokens with a semicolon behind them are read as a statement, they are read as its
expression within the same limit. -/
theorem parseExpression_of_parse {limit : Nat} {tokens : List Token} {semicolon : Token}
    (ends : semicolon.kind = .semicolon) {lastLine : Int} {expr : Expr}
    (parsed : parse limit (tokens ++ [semicolon]) lastLine = ⟨[.expression expr], []⟩)
    (endLine : Int) : parseExpression limit tokens endLine = (some expr, []) := by
  have phrase := (derives_expression_iff ends).mp (derives_of_parse parsed)
  obtain ⟨tree, rest, readsFirst⟩ := reads_first (by simp) (congrArg (·.errors) parsed)
  obtain ⟨depth, value, middle, isSucc, reads⟩ :=
    reads_expression_of_first (phrase.startsWith.append _) readsFirst
  obtain ⟨left, -, readsAlone⟩ := (leavesLast_unary_expression depth).2 ends reads
  have le : depth ≤ depthOf limit := isSucc ▸ Nat.le_succ depth
  exact parseExpression_eq_iff.mpr (reads_of_phrase phrase le readsAlone)

/-- What is read as a whole expression without any report is an expression. -/
theorem phrase_of_parseExpression {limit : Nat} {tokens : List Token} {endLine : Int} {expr : Expr}
    (parsed : parseExpression limit tokens endLine = (some expr, [])) :
    Phrase .assignment tokens expr := by
  obtain ⟨used, isUsed, phrase⟩ :=
    sound_expression (depthOf limit) (parseExpression_eq_iff.mp parsed)
  rw [List.append_nil] at isUsed
  exact isUsed ▸ phrase

end LoxLang.Grammar
