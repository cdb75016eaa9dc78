import LoxLang.Proofs.Cursor.Following

/-!
# The walks of the grammar follow its rules

Every walk of the grammar follows the rule it is named after: one lemma for each rule, where the
walks inside it follow, and then an induction on the limit on nesting. Expressions are followed on
every list. A declaration is followed only where a token stands before the end of the text, since
the search for the next statement looks back; nothing that calls a declaration does so elsewhere.
-/

namespace LoxLang.Grammar

open Rule (Orderly)

namespace Follows

variable {α : Type} {floor : Nat} {walk : Walk Expr} {rule : Rule Expr}

/-! ## Looking for kinds of tokens -/

/-- A rule that accepts a first token of the right kind goes on with it. -/
private theorem accept_bind_next {kinds : List TokenKind} {token : Token}
    (isKind : token.kind ∈ kinds) (next : Option Token → Rule α) (surroundings : Surroundings)
    (tokens : List Token) :
    (Rule.accept kinds >>= next) surroundings (token :: tokens) =
      next (some token) surroundings tokens := by
  rw [Rule.bind_eq]
  simp only [Rule.accept, isKind, if_true, Rule.after_nil]

/-- A rule that accepts nothing goes on without it. -/
private theorem accept_bind_other {kinds : List TokenKind} {token : Token}
    (noKind : token.kind ∉ kinds) (next : Option Token → Rule α) (surroundings : Surroundings)
    (tokens : List Token) :
    (Rule.accept kinds >>= next) surroundings (token :: tokens) =
      next none surroundings (token :: tokens) := by
  rw [Rule.bind_eq]
  simp only [Rule.accept, noKind, if_false, Rule.after_nil]

/-- Kinds can be looked for one after the other. -/
private theorem accept_cons_bind (kind : TokenKind) (kinds : List TokenKind)
    (next : Option Token → Rule α) :
    (Rule.accept (kind :: kinds) >>= next) = (do
      match ← Rule.accept [kind] with
      | some token => next (some token)
      | none => Rule.accept kinds >>= next) := by
  funext surroundings tokens
  cases tokens with
  | nil => rfl
  | cons token tokens =>
    by_cases isKind : token.kind = kind
    · rw [accept_bind_next (by simp [isKind]), accept_bind_next (by simp [isKind])]
    · have noKind : token.kind ∉ [kind] := by simp [isKind]
      rw [accept_bind_other noKind]
      dsimp only
      by_cases isOther : token.kind ∈ kinds
      · rw [accept_bind_next isOther, accept_bind_next (List.mem_cons_of_mem _ isOther)]
      · have noneOf : token.kind ∉ kind :: kinds := by simp [isKind, isOther]
        rw [accept_bind_other isOther, accept_bind_other noneOf]

/-- A walk that looks for a token of one kind, and for further kinds if it is none of that. -/
private theorem takesOneOf {kind : TokenKind} {kinds : List TokenKind} {yes others : Walk α}
    {next : Option Token → Rule α}
    (followsKind : ∀ token, token.kind = kind → FollowsBehind token floor yes (next (some token)))
    (followsOthers : Follows floor others (Rule.accept kinds >>= next)) :
    Follows floor (do if ← Walk.takes [kind] then yes else others)
      (Rule.accept (kind :: kinds) >>= next) := by
  rw [accept_cons_bind]
  exact .takes followsOthers fun token isKind => followsKind token (List.mem_singleton.mp isKind)

/-! ## Expressions -/

/-- One more operator is taken and its operand walked over. -/
theorem chainTurn (level : Level) (follows : Follows floor walk rule) (left : Expr) :
    Follows floor (Walk.chainTurn level walk left) (chainStep level rule left) := by
  refine .takes (.pure none) fun operator _ => .previous (Follows.behind ?_ operator)
  exact follows.bind fun _ => .pure _

/-- A chain of operators follows the repetition of its step. -/
theorem chain (level : Level) (follows : Follows floor walk rule) (orderly : Orderly rule) :
    Follows floor (Walk.chain level walk) (chain level rule) :=
  follows.bind fun left => .loop (steady_chainStep orderly) (follows.chainTurn level) left

/-- Levels of operators above each other follow if the operands of the highest one do. -/
theorem operations (levels : List Level) (follows : Follows floor walk rule)
    (orderly : Orderly rule) :
    Follows floor (Walk.operations levels walk) (operations levels rule) := by
  induction levels with
  | nil => exact follows
  | cons level levels inductionHypothesis =>
    exact inductionHypothesis.chain level (refined_operations levels orderly.refined).orderly

/-- One more item is walked over behind a comma; too many of them are reported in the same place. -/
theorem listedTurn {walk : Walk α} {rule : Rule α} (tooMany : Problem)
    (follows : Follows floor walk rule) (listed : Nat × List α) :
    Follows floor (Walk.listedTurn tooMany walk listed) (listedStep tooMany rule listed) := by
  refine .takes (.pure none) fun comma _ => Follows.behind ?_ comma
  have reads : Follows floor (do return some (listed.1 + 1, (← walk) :: listed.2))
      (do return some (listed.1 + 1, (← rule) :: listed.2)) := follows.bind fun _ => .pure _
  exact .ite ((reportNext tooMany).bind fun _ => reads) reads

/-- A list follows if its items do. -/
theorem listed {walk : Walk α} {rule : Rule α} (tooMany : Problem)
    (follows : Follows floor walk rule) (orderly : Orderly rule) :
    Follows floor (Walk.listed tooMany walk) (listed tooMany rule) :=
  follows.bind fun _ => .bind
    (.loop (steady_listedStep orderly) (follows.listedTurn tooMany) _) fun _ => .pure _

/-- One more list of arguments is walked over. -/
theorem callTurn (follows : Follows floor walk rule) (orderly : Orderly rule) (callee : Expr) :
    Follows floor (Walk.callTurn walk callee) (callStep rule callee) := by
  refine .takes (.pure none) fun paren _ => Follows.behind ?_ paren
  refine (check .rightParen).bind fun closes => ?_
  have closed (arguments : List Expr) : Follows floor
      (do
        let paren ← Walk.consume .rightParen .parenAfterArguments
        return some (Expr.call callee paren arguments))
      (do
        let paren ← Rule.expect .rightParen .parenAfterArguments
        return some (Expr.call callee paren arguments)) :=
    (consume .rightParen .parenAfterArguments).bind fun _ => .pure _
  exact .ite ((Follows.pure []).bind closed) ((follows.listed _ orderly).bind closed)

/-- Calls follow the repetition of their step. -/
theorem calls (follows : Follows floor walk rule) (orderly : Orderly rule) (callee : Expr) :
    Follows floor (Walk.calls walk callee) (calls rule callee) :=
  .loop (steady_callStep orderly) (follows.callTurn orderly) callee

/-- A primary expression looks for one kind of token after the other. -/
private theorem primary_eq (expression : Rule Expr) :
    primary expression = (do
      match ← Rule.accept [.keyFalse] with
      | some _ => return .literal (.bool false)
      | none =>
      match ← Rule.accept [.keyTrue] with
      | some _ => return .literal (.bool true)
      | none =>
      match ← Rule.accept [.keyNil] with
      | some _ => return .literal .nil
      | none =>
      match ← Rule.accept [.number, .string] with
      | some token => return .literal token.literal
      | none =>
      match ← Rule.accept [.identifier] with
      | some token => return .reference token
      | none =>
      match ← Rule.accept [.leftParen] with
      | some _ =>
        let inner ← expression
        let _ ← Rule.expect .rightParen .parenAfterExpression
        return .grouping inner
      | none => Rule.fail .expression) := by
  funext surroundings tokens
  cases tokens with
  | nil => rfl
  | cons token tokens =>
    obtain ⟨kind, lexeme, literal, line⟩ := token
    cases kind
    case leftParen =>
      simp (disch := simp) only [accept_bind_other, accept_bind_next]
      rfl
    all_goals rfl

/-- A primary expression follows, whichever kind of token it begins with. -/
theorem primary (follows : Follows floor walk rule) :
    Follows floor (Walk.primary walk) (primary rule) := by
  rw [primary_eq]
  have literal (literal : Literal) (token : Token) : FollowsBehind token floor
      (pure (Expr.literal literal)) (pure (Expr.literal literal)) := (Follows.pure _).behind token
  refine .takes ?_ fun token _ => literal _ token
  refine .takes ?_ fun token _ => literal _ token
  refine .takes ?_ fun token _ => literal _ token
  refine .takes ?_ fun token _ => .previous (literal _ token)
  refine .takes ?_ fun token _ => .previous ((Follows.pure _).behind token)
  refine .takes (missing _) fun token _ => Follows.behind ?_ token
  exact follows.bind fun _ => (consume _ _).bind fun _ => .pure _

/-- Unary expressions and expressions follow their rules with every limit, by induction on it. -/
theorem unary_expression (depth : Nat) :
    Follows floor (Walk.unary depth) (unary depth) ∧
      Follows floor (Walk.expression depth) (expression depth) := by
  induction depth with
  | zero => exact ⟨tooDeep, tooDeep⟩
  | succ depth inductionHypothesis =>
    obtain ⟨followsUnary, followsExpression⟩ := inductionHypothesis
    constructor
    · refine .takes ?_ fun operator _ => .previous (Follows.behind ?_ operator)
      · exact followsExpression.primary.bind fun callee =>
          followsExpression.calls (orderly_expression depth) callee
      · exact followsUnary.bind fun _ => .pure _
    · refine (followsUnary.operations levels (orderly_unary depth)).bind fun target => ?_
      refine .takes (.pure target) fun equals _ => .previous (Follows.behind ?_ equals)
      refine followsExpression.bind fun value => ?_
      cases target with
      | reference name => exact .pure _
      | _ => exact (reportAt _ _).bind fun _ => .pure _

/-- Expressions follow their rule with every limit. -/
theorem expression (depth : Nat) : Follows floor (Walk.expression depth) (expression depth) :=
  (unary_expression depth).2

/-! ## Statements -/

section Statements

variable {walkStatement : Walk Stmt} {statement : Rule Stmt}
  {walkDeclaration : Walk (Option Stmt)} {declaration : Rule (Option Stmt)}

/-- One more declaration is walked over, and may be dropped. -/
theorem declarationTurn {walkMore : Walk Bool} {more : Rule Bool}
    (followsMore : Follows floor walkMore more)
    (follows : Follows floor walkDeclaration declaration) (found : List Stmt) :
    Follows floor (Walk.declarationTurn walkMore walkDeclaration found)
      (declarationStep more declaration found) := by
  refine followsMore.bind fun isMore => .ite (follows.bind fun statement => ?_) (.pure none)
  cases statement with
  | none => exact .pure _
  | some statement => exact .pure _

/-- Declarations one after the other follow if they advance, since then their step is steady. -/
theorem declarations {walkMore : Walk Bool} {more : Rule Bool}
    (followsMore : Follows floor walkMore more) (looksAhead : LooksAhead more)
    (follows : Follows floor walkDeclaration declaration) (advances : Advances declaration) :
    Follows floor (Walk.declarations walkMore walkDeclaration) (declarations more declaration) :=
  .bind (.loop (steady_declarationStep looksAhead advances) (declarationTurn followsMore follows) _)
    fun _ => .pure _

/-- A block follows if its declarations do. -/
theorem block (follows : Follows floor walkDeclaration declaration)
    (advances : Advances declaration) :
    Follows floor (Walk.block walkDeclaration) (block declaration) :=
  (declarations inBlock inBlock_looksAhead follows advances).bind fun _ =>
    (consume _ _).bind fun _ => .pure _

/-- A function follows if the declarations of its body do, which are walked over within one more
body. -/
theorem function (follows : Follows floor walkDeclaration declaration)
    (advances : Advances declaration) :
    Follows floor (Walk.function walkDeclaration) (function declaration) := by
  refine (consume _ _).bind fun name => (consume _ _).bind fun _ => ?_
  have ends (parameters : List Token) : Follows floor
      (do
        let _ ← Walk.consume .rightParen .parenAfterParameters
        let _ ← Walk.consume .leftBrace .braceBeforeBody
        return Stmt.function name parameters (← Walk.withinFunction (Walk.block walkDeclaration)))
      (do
        let _ ← Rule.expect .rightParen .parenAfterParameters
        let _ ← Rule.expect .leftBrace .braceBeforeBody
        return Stmt.function name parameters
          (← Rule.withinFunction (Grammar.block declaration))) :=
    (consume _ _).bind fun _ => (consume _ _).bind fun _ =>
      (follows.block advances).withinFunction.bind fun _ => .pure _
  refine (check .rightParen).bind fun closes => .ite ((Follows.pure []).bind ends) ?_
  exact ((consume _ _).listed _ (Orderly.expect _ _)).bind ends

/-- A variable declaration follows if its initializer does. -/
theorem varDeclaration (follows : Follows floor walk rule) :
    Follows floor (Walk.varDeclaration walk) (varDeclaration rule) := by
  refine (consume _ _).bind fun name => ?_
  have ends (start : Option Expr) : Follows floor
      (do
        let _ ← Walk.consume .semicolon .semicolonAfterDeclaration
        return Stmt.var name start)
      (do
        let _ ← Rule.expect .semicolon .semicolonAfterDeclaration
        return Stmt.var name start) := (consume _ _).bind fun _ => .pure _
  exact .takes ((Follows.pure none).bind ends) fun equals _ =>
    (follows.map.bind ends).behind equals

/-- An expression statement follows if its expression does. -/
theorem expressionStatement (follows : Follows floor walk rule) :
    Follows floor (Walk.expressionStatement walk) (expressionStatement rule) :=
  follows.bind fun _ => (consume _ _).bind fun _ => .pure _

/-- A print statement follows if its expression does. -/
theorem printStatement (follows : Follows floor walk rule) :
    Follows floor (Walk.printStatement walk) (printStatement rule) :=
  follows.bind fun _ => (consume _ _).bind fun _ => .pure _

/-- A return statement follows behind its keyword, at which it is reported outside of functions. -/
theorem returnStatement (follows : Follows floor walk rule) (keyword : Token) :
    FollowsBehind keyword floor (Walk.returnStatement walk) (returnStatement rule keyword) := by
  refine .previous (Follows.behind ?_ keyword)
  have ends (value : Option Expr) : Follows floor
      (do
        let _ ← Walk.consume .semicolon .semicolonAfterReturnValue
        return Stmt.ret keyword value)
      (do
        let _ ← Rule.expect .semicolon .semicolonAfterReturnValue
        return Stmt.ret keyword value) := (consume _ _).bind fun _ => .pure _
  have further : Follows floor
      (do
        let value ← if ← Walk.check .semicolon then pure none else some <$> walk
        let _ ← Walk.consume .semicolon .semicolonAfterReturnValue
        return Stmt.ret keyword value)
      (do
        let value ← if ← Rule.nextIs .semicolon then pure none else some <$> rule
        let _ ← Rule.expect .semicolon .semicolonAfterReturnValue
        return Stmt.ret keyword value) :=
    (check _).bind fun _ => .ite ((Follows.pure none).bind ends) (follows.map.bind ends)
  exact inFunction.bind fun _ => .ite ((reportAt _ _).bind fun _ => further) further

/-- A conditional follows if its condition and its branches do. -/
theorem ifStatement (follows : Follows floor walk rule)
    (followsStatement : Follows floor walkStatement statement) :
    Follows floor (Walk.ifStatement walk walkStatement) (ifStatement rule statement) := by
  refine (consume _ _).bind fun _ => follows.bind fun condition => ?_
  refine (consume _ _).bind fun _ => followsStatement.bind fun consequent => ?_
  exact .takes ((Follows.pure none).bind fun _ => .pure _) fun otherwise _ =>
    (followsStatement.map.bind fun _ => .pure _).behind otherwise

/-- A while loop follows if its condition and its body do. -/
theorem whileStatement (follows : Follows floor walk rule)
    (followsStatement : Follows floor walkStatement statement) :
    Follows floor (Walk.whileStatement walk walkStatement) (whileStatement rule statement) :=
  (consume _ _).bind fun _ => follows.bind fun _ => (consume _ _).bind fun _ =>
    followsStatement.bind fun _ => .pure _

/-- What a for loop starts with follows, whichever of three forms it has. -/
theorem forStart (follows : Follows floor walk rule) :
    Follows floor (Walk.forStart walk) (forStart rule) := by
  refine takesOneOf (fun token isSemicolon => ?_) (.takes ?_ fun token isVar => ?_)
  · dsimp only
    rw [if_pos isSemicolon]
    exact (Follows.pure none).behind token
  · exact follows.expressionStatement.map
  · dsimp only
    rw [List.mem_singleton.mp isVar, if_neg (by decide)]
    exact follows.varDeclaration.map.behind token

/-- A clause of a for loop that may be absent follows if its expression does. -/
theorem optionalExpression (follows : Follows floor walk rule) (closing : TokenKind) :
    Follows floor (Walk.optionalExpression walk closing) (optionalExpression rule closing) :=
  (check closing).bind fun _ => .ite (.pure none) follows.map

/-- A for loop follows if its clauses and its body do. -/
theorem forStatement (follows : Follows floor walk rule)
    (followsStatement : Follows floor walkStatement statement) :
    Follows floor (Walk.forStatement walk walkStatement) (forStatement rule statement) :=
  (consume _ _).bind fun _ => follows.forStart.bind fun _ =>
    (follows.optionalExpression _).bind fun _ => (consume _ _).bind fun _ =>
      (follows.optionalExpression _).bind fun _ => (consume _ _).bind fun _ =>
        followsStatement.bind fun _ => .pure _

/-- A declaration is looked for by one keyword after the other; the rule looks for all of them at
once. -/
theorem declarationBody (follows : Follows floor walk rule)
    (followsStatement : Follows floor walkStatement statement)
    (followsDeclaration : Follows floor walkDeclaration declaration)
    (advances : Advances declaration) :
    Follows floor
      (do
        if ← Walk.takes [.keyFun] then Walk.function walkDeclaration
        else if ← Walk.takes [.keyVar] then Walk.varDeclaration walk
        else walkStatement)
      (declarationBody statement declaration rule) := by
  refine takesOneOf (fun token isFun => ?_) (.takes followsStatement fun token isVar => ?_)
  · dsimp only
    rw [keywordDeclaration, if_pos isFun]
    exact (followsDeclaration.function advances).behind token
  · dsimp only
    rw [keywordDeclaration, List.mem_singleton.mp isVar, if_neg (by decide)]
    exact follows.varDeclaration.behind token

/-- A statement is looked for by one keyword after the other; the rule looks for all of them at
once. -/
theorem statementBody (follows : Follows floor walk rule)
    (followsStatement : Follows floor walkStatement statement)
    (followsDeclaration : Follows floor walkDeclaration declaration)
    (advances : Advances declaration) :
    Follows floor
      (do
        if ← Walk.takes [.keyFor] then Walk.forStatement walk walkStatement
        else if ← Walk.takes [.keyIf] then Walk.ifStatement walk walkStatement
        else if ← Walk.takes [.keyPrint] then Walk.printStatement walk
        else if ← Walk.takes [.keyReturn] then Walk.returnStatement walk
        else if ← Walk.takes [.keyWhile] then Walk.whileStatement walk walkStatement
        else if ← Walk.takes [.leftBrace] then Stmt.block <$> Walk.block walkDeclaration
        else Walk.expressionStatement walk)
      (statementBody statement declaration rule) := by
  refine takesOneOf (fun token isFor => ?_) <| takesOneOf (fun token isIf => ?_) <|
    takesOneOf (fun token isPrint => ?_) <| takesOneOf (fun token isReturn => ?_) <|
    takesOneOf (fun token isWhile => ?_) <|
    .takes follows.expressionStatement fun token isBrace => ?_
  · dsimp only
    rw [keywordStatement, isFor]
    exact (follows.forStatement followsStatement).behind token
  · dsimp only
    rw [keywordStatement, isIf]
    exact (follows.ifStatement followsStatement).behind token
  · dsimp only
    rw [keywordStatement, isPrint]
    exact follows.printStatement.behind token
  · dsimp only
    rw [keywordStatement, isReturn]
    exact follows.returnStatement token
  · dsimp only
    rw [keywordStatement, isWhile]
    exact (follows.whileStatement followsStatement).behind token
  · dsimp only
    rw [keywordStatement, List.mem_singleton.mp isBrace]
    exact (followsDeclaration.block advances).map.behind token

end Statements

/-- Statements and declarations follow their rules with every limit, by induction on it. -/
theorem statement_declaration (depth : Nat) :
    Follows 1 (Walk.statement depth) (statement depth) ∧
      Follows 1 (Walk.declaration depth) (declaration depth) := by
  induction depth with
  | zero => exact ⟨tooDeep, tooDeep⟩
  | succ depth inductionHypothesis =>
    obtain ⟨followsStatement, followsDeclaration⟩ := inductionHypothesis
    have follows : Follows 1 (Walk.expression depth) (Grammar.expression depth) := expression depth
    have advances := advances_declaration depth
    exact ⟨follows.statementBody followsStatement followsDeclaration advances,
      (follows.declarationBody followsStatement followsDeclaration advances).recovering depth⟩

/-- Declarations follow their rule with every limit. -/
theorem declaration (depth : Nat) :
    Follows 1 (Walk.declaration depth) (declaration depth) :=
  (statement_declaration depth).2

/-! ## Programs -/

/-- The loop over a program begins no declaration where nothing is left, so that it follows its rule
even on a list that begins with its end. -/
theorem parse (limit : Nat) : Follows 0 (Walk.parse limit)
    (Grammar.declarations Grammar.hasNext (Grammar.declaration (depthOf limit + 1))) := by
  have steady := steady_declarations hasNext_looksAhead (depthOf limit + 1)
  refine .bind (.loop steady (fun found => ?_) []) fun _ => .pure _
  intro tokens endLine cursor rest stands
  cases rest with
  | nil =>
    -- Declarations are not followed here; the loop ends before it begins one.
    obtain ⟨last, isNext, isEnd, -⟩ := stands.ahead.last
    rw [steady.idle, Walk.declarationTurn, Walk.bind_eq, Walk.hasNext, Walk.bind_eq,
      Walk.isAtEnd_eq isNext, decide_eq_true isEnd]
    exact .stay stands
  | cons token rest =>
    exact declarationTurn hasNext (declaration (depthOf limit + 1)) found
      ⟨stands.ahead, Nat.succ_pos _⟩

/-- A whole expression follows its rule, with the end of the text behind it. -/
theorem wholeExpression (limit : Nat) :
    Follows floor (Walk.wholeExpression limit) (wholeExpression limit) :=
  (expression (depthOf limit)).bind fun _ => hasNext.bind fun _ => .ite (missing _) (.pure _)

end Follows

end LoxLang.Grammar
