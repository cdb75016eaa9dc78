import LoxLang.Grammar.Program
import LoxLang.Proofs.Grammar.Conduct

/-!
# The limit on nesting

Every rule of the grammar is orderly, and a larger limit on nesting changes nothing of what a rule
does unless the smaller limit was reached. `parse_mono` says so of whole programs: a program whose
reading does not report too much nesting is read alike with every larger limit.

Both facts are proved together, one rule after the other, since a repetition agrees with another
one only if the steps of both are steady. The steps of the repetitions have names here.
-/

namespace LoxLang.Grammar

open Rule

variable {α : Type} {small large : Rule Expr}

/-! ## Repeated steps -/

/-- One more operator of a level with its right operand. -/
def chainStep (level : Level) (operand : Rule Expr) (left : Expr) : Rule (Option Expr) := do
  match ← accept level.operators with
  | none => return none
  | some operator =>
    let right ← operand
    return some (level.combine left operator right)

/-- One more item, after a comma. -/
def listedStep (tooMany : Problem) (item : Rule α) (listed : Nat × List α) :
    Rule (Option (Nat × List α)) := do
  match ← accept [.comma] with
  | none => return none
  | some _ =>
    if listLimit ≤ listed.1 then reportNext tooMany
    let further ← item
    return some (listed.1 + 1, further :: listed.2)

/-- The arguments of a call and its closing parenthesis, after the opening one. -/
def callArguments (expression : Rule Expr) (callee : Expr) : Rule (Option Expr) := do
  let arguments ← if ← nextIs .rightParen then pure [] else listed .tooManyArguments expression
  let paren ← expect .rightParen .parenAfterArguments
  return some (.call callee paren arguments)

/-- One more list of arguments in parentheses. -/
def callStep (expression : Rule Expr) (callee : Expr) : Rule (Option Expr) := do
  match ← accept [.leftParen] with
  | none => return none
  | some _ => callArguments expression callee

/-- One more declaration, which may be dropped. -/
def declarationStep (more : Rule Bool) (declaration : Rule (Option Stmt)) (found : List Stmt) :
    Rule (Option (List Stmt)) := do
  if ← more then
    match ← declaration with
    | some statement => return some (statement :: found)
    | none => return some found
  else return none

/-- A chain of operators repeats the step that takes one more of them. -/
theorem chain_eq (level : Level) (operand : Rule Expr) :
    chain level operand = (do repeated (← operand) (chainStep level operand)) := rfl

/-- Items in a list are the first one and, after each comma, one more. -/
theorem listed_eq (tooMany : Problem) (item : Rule α) :
    listed tooMany item = (do
      let first ← item
      let listed ← repeated (1, [first]) (listedStep tooMany item)
      return listed.2.reverse) := rfl

/-- Calls repeat the step that takes one more list of arguments. -/
theorem calls_eq (expression : Rule Expr) (callee : Expr) :
    calls expression callee = repeated callee (callStep expression) := rfl

/-- Declarations are gathered with the last one in front, and turned round at the end. -/
theorem declarations_eq (more : Rule Bool) (declaration : Rule (Option Stmt)) :
    declarations more declaration =
      (do return (← repeated [] (declarationStep more declaration)).reverse) := rfl

/-- A further operand may be refined. -/
theorem refined_chainStep {level : Level} (refined : Refined small large) (left : Expr) :
    Refined (chainStep level small left) (chainStep level large left) := by
  refine (Orderly.accept _).refined.bind fun operator => ?_
  cases operator with
  | none => exact (Orderly.pure none).refined
  | some operator => exact refined.bind fun _ => (Orderly.pure _).refined

/-- A further operator is taken whenever there is a further operand. -/
theorem steady_chainStep {level : Level} {operand : Rule Expr} (orderly : Orderly operand) :
    Steady (chainStep level operand) :=
  steady_accept fun _ _ => orderly.bind fun _ => .pure _

/-- A further item may be refined; whether there are too many is reported before it is read. -/
theorem refined_furtherItem {tooMany : Problem} {small large : Rule α}
    (refined : Refined small large) (listed : Nat × List α) :
    Refined
      (do
        if listLimit ≤ listed.1 then reportNext tooMany
        return some (listed.1 + 1, (← small) :: listed.2))
      (do
        if listLimit ≤ listed.1 then reportNext tooMany
        return some (listed.1 + 1, (← large) :: listed.2)) := by
  have reads := refined.bind fun further =>
    (Orderly.pure (some (listed.1 + 1, further :: listed.2))).refined
  exact .ite ((Orderly.reportNext tooMany).refined.bind fun _ => reads) reads

/-- A further item and its comma may be refined. -/
theorem refined_listedStep {tooMany : Problem} {small large : Rule α}
    (refined : Refined small large) (listed : Nat × List α) :
    Refined (listedStep tooMany small listed) (listedStep tooMany large listed) := by
  refine (Orderly.accept _).refined.bind fun comma => ?_
  cases comma with
  | none => exact (Orderly.pure none).refined
  | some comma => exact refined_furtherItem refined listed

/-- A comma is taken whenever there is a further item. -/
theorem steady_listedStep {tooMany : Problem} {item : Rule α} (orderly : Orderly item) :
    Steady (listedStep tooMany item) :=
  steady_accept fun listed _ => (refined_furtherItem orderly.refined listed).orderly

/-- A list is refined by refining the rule for its items. -/
theorem refined_listed {tooMany : Problem} {small large : Rule α} (refined : Refined small large) :
    Refined (listed tooMany small) (listed tooMany large) :=
  refined.bind fun _ => .bind (.repeated (steady_listedStep refined.orderly)
    (steady_listedStep refined.orderlyLarge) (refined_listedStep refined) _)
    fun _ => (Orderly.pure _).refined

/-- The arguments of a call are refined by refining the rule for expressions. -/
theorem refined_callArguments (refined : Refined small large) (callee : Expr) :
    Refined (callArguments small callee) (callArguments large callee) := by
  refine (Orderly.nextIs _).refined.bind fun closes => ?_
  have closed (arguments : List Expr) := (Orderly.expect .rightParen .parenAfterArguments).bind
    fun paren => Orderly.pure (some (Expr.call callee paren arguments))
  exact .ite ((Orderly.pure []).refined.bind fun _ => (closed _).refined)
    ((refined_listed refined).bind fun _ => (closed _).refined)

/-- A further call is refined by refining the rule for expressions. -/
theorem refined_callStep (refined : Refined small large) (callee : Expr) :
    Refined (callStep small callee) (callStep large callee) := by
  refine (Orderly.accept _).refined.bind fun opening => ?_
  cases opening with
  | none => exact (Orderly.pure none).refined
  | some opening => exact refined_callArguments refined callee

/-- An opening parenthesis is taken whenever there is a further call. -/
theorem steady_callStep {expression : Rule Expr} (orderly : Orderly expression) :
    Steady (callStep expression) :=
  steady_accept fun callee _ => (refined_callArguments orderly.refined callee).orderly

/-! ## Expressions -/

/-- A level of operators is refined by refining its operands. -/
theorem refined_chain {level : Level} (refined : Refined small large) :
    Refined (chain level small) (chain level large) :=
  refined.bind fun _ => .repeated (steady_chainStep refined.orderly)
    (steady_chainStep refined.orderlyLarge) (refined_chainStep refined) _

/-- Levels of operators above each other are refined by refining the operands of the highest one. -/
theorem refined_operations (levels : List Level) (refined : Refined small large) :
    Refined (operations levels small) (operations levels large) := by
  induction levels with
  | nil => exact refined
  | cons level levels inductionHypothesis => exact refined_chain inductionHypothesis

/-- Calls are refined by refining the rule for expressions. -/
theorem refined_calls (refined : Refined small large) (callee : Expr) :
    Refined (calls small callee) (calls large callee) :=
  .repeated (steady_callStep refined.orderly) (steady_callStep refined.orderlyLarge)
    (refined_callStep refined) callee

/-- A primary expression is refined where it is a grouping, since nothing else in it is nested. -/
theorem refined_primary (refined : Refined small large) :
    Refined (primary small) (primary large) := by
  refine Orderly.next.refined.bind fun found => ?_
  cases found with
  | none => exact (Orderly.fail _).refined
  | some token =>
    have taken (tree : Expr) :
        Refined (skip >>= fun _ => pure tree) (skip >>= fun _ => pure tree) :=
      (Orderly.skip.bind fun _ => .pure tree).refined
    dsimp only
    split
    iterate 6 exact taken _
    · exact Orderly.skip.refined.bind fun _ => refined.bind fun inner =>
        ((Orderly.expect _ _).bind fun _ => .pure _).refined
    · exact (Orderly.fail _).refined

/-- What `unary` does with one unit of its limit taken. -/
def unaryBody (unary expression : Rule Expr) : Rule Expr := do
  match ← accept [.bang, .minus] with
  | some operator =>
    let right ← unary
    return .unary operator right
  | none =>
    let callee ← primary expression
    calls expression callee

/-- What `expression` does with one unit of its limit taken. -/
def expressionBody (unary expression : Rule Expr) : Rule Expr := do
  let target ← operations levels unary
  match ← accept [.equal] with
  | none => return target
  | some equals =>
    let value ← expression
    match target with
    | .reference name => return .assign name value
    | _ =>
      reportAt equals .invalidTarget
      return target

/-- With one more to go, a unary expression is made of parts with one less. -/
theorem unary_succ (depth : Nat) :
    unary (depth + 1) = unaryBody (unary depth) (expression depth) := rfl

/-- With one more to go, an expression is made of parts with one less. -/
theorem expression_succ (depth : Nat) :
    expression (depth + 1) = expressionBody (unary depth) (expression depth) := rfl

/-- The body of a unary expression is refined by refining its parts. -/
theorem refined_unaryBody {smallUnary largeUnary : Rule Expr}
    (refinedUnary : Refined smallUnary largeUnary) (refined : Refined small large) :
    Refined (unaryBody smallUnary small) (unaryBody largeUnary large) := by
  refine (Orderly.accept _).refined.bind fun operator => ?_
  cases operator with
  | none => exact (refined_primary refined).bind fun callee => refined_calls refined callee
  | some operator => exact refinedUnary.bind fun _ => (Orderly.pure _).refined

/-- The body of an expression is refined by refining its parts; an assignment target is checked in
the same way on both sides. -/
theorem refined_expressionBody {smallUnary largeUnary : Rule Expr}
    (refinedUnary : Refined smallUnary largeUnary) (refined : Refined small large) :
    Refined (expressionBody smallUnary small) (expressionBody largeUnary large) := by
  refine (refined_operations levels refinedUnary).bind fun target =>
    (Orderly.accept _).refined.bind fun equals => ?_
  cases equals with
  | none => exact (Orderly.pure _).refined
  | some equals =>
    refine refined.bind fun value => Orderly.refined ?_
    cases target with
    | reference name => exact .pure _
    | _ => exact (Orderly.reportAt _ _).bind fun _ => .pure _

/-- Unary expressions and expressions are orderly with every limit, by induction on it. -/
theorem orderly_unary_expression (depth : Nat) :
    Orderly (unary depth) ∧ Orderly (expression depth) := by
  induction depth with
  | zero => exact ⟨.tooDeep, .tooDeep⟩
  | succ depth inductionHypothesis =>
    obtain ⟨orderlyUnary, orderlyExpression⟩ := inductionHypothesis
    exact ⟨(refined_unaryBody orderlyUnary.refined orderlyExpression.refined).orderly,
      (refined_expressionBody orderlyUnary.refined orderlyExpression.refined).orderly⟩

/-- Unary expressions are orderly with every limit. -/
theorem orderly_unary (depth : Nat) : Orderly (unary depth) := (orderly_unary_expression depth).1

/-- Expressions are orderly with every limit. -/
theorem orderly_expression (depth : Nat) : Orderly (expression depth) :=
  (orderly_unary_expression depth).2

/-- With one more to go, unary expressions and expressions are refined. -/
theorem refined_unary_expression (depth : Nat) :
    Refined (unary depth) (unary (depth + 1)) ∧
      Refined (expression depth) (expression (depth + 1)) := by
  induction depth with
  | zero => exact ⟨.tooDeep (orderly_unary 1), .tooDeep (orderly_expression 1)⟩
  | succ depth inductionHypothesis =>
    obtain ⟨refinedUnary, refinedExpression⟩ := inductionHypothesis
    exact ⟨refined_unaryBody refinedUnary refinedExpression,
      refined_expressionBody refinedUnary refinedExpression⟩

/-! ## Statements -/

/-- The search for the end of a statement only leaves tokens out. -/
theorem statementBoundary_suffix (last : TokenKind) (tokens : List Token) :
    statementBoundary last tokens <:+ tokens := by
  induction tokens generalizing last with
  | nil => exact List.suffix_rfl
  | cons token tokens inductionHypothesis =>
    unfold statementBoundary
    split
    · exact List.suffix_rfl
    · exact (inductionHypothesis token.kind).trans (List.suffix_cons token tokens)

/-- Recovery always leaves the token out at which it begins. -/
theorem synchronize_suffix (tokens : List Token) : synchronize tokens <:+ tokens.tail := by
  cases tokens with
  | nil => exact List.suffix_rfl
  | cons token tokens => exact statementBoundary_suffix token.kind tokens

/-- Where a rule is stopped, what follows the search for the next statement is shorter than the
tokens that the rule was given. -/
theorem synchronize_length_lt {tokens rest : List Token} (suffix : rest <:+ tokens)
    (nonempty : tokens ≠ []) : (synchronize rest).length < tokens.length := by
  have skipped := (synchronize_suffix rest).length_le
  have taken := suffix.length_le
  have positive := List.length_pos_iff.mpr nonempty
  rw [List.length_tail] at skipped
  omega

/-- What becomes of the reply of a rule for a declaration with so much of the limit left below. -/
inductive Recovery (depth : Nat) (endLine : Int) (reply : Reply Stmt) :
    Reply (Option Stmt) → Prop
  | kept {statement : Stmt} (isOk : reply.result = .ok statement) :
      Recovery depth endLine reply ⟨reply.errors, reply.rest, .ok (some statement)⟩
  | dropped (stopped : reply.result = .error .syntaxError) :
      Recovery depth endLine reply ⟨reply.errors, synchronize reply.rest, .ok none⟩
  | tooDeep (stopped : reply.result = .error .tooDeep) (enough : recoveryDepth ≤ depth) :
      Recovery depth endLine reply
        ⟨reply.errors ++ [.atNext .tooMuchNesting reply.rest endLine], synchronize reply.rest,
          .ok none⟩
  /-- The declaration around this one is to recover. What was reported is reported again there. -/
  | passedOn {reported : List SyntaxError} (stopped : reply.result = .error .tooDeep)
      (tooLittle : depth < recoveryDepth)
      (isReport : reported.Sublist [.atNext .tooMuchNesting reply.rest endLine]) :
      Recovery depth endLine reply ⟨reply.errors ++ reported, reply.rest, .error .tooDeep⟩

/-- A declaration is kept, dropped up to the next statement, or passed on. -/
theorem recovery (depth : Nat) (rule : Rule Stmt) (surroundings : Surroundings)
    (tokens : List Token) :
    Recovery depth surroundings.endLine (rule surroundings tokens)
      (recovering depth rule surroundings tokens) := by
  unfold recovering
  dsimp only
  split
  next isOk => exact .kept isOk
  next stopped => exact .dropped stopped
  next stopped =>
    split
    next noReport =>
      have tooLittle : depth < recoveryDepth := Nat.lt_trans noReport (by decide)
      simpa using Recovery.passedOn stopped tooLittle (List.nil_sublist _)
    next =>
      split
      next tooLittle => exact .passedOn stopped tooLittle (List.Sublist.refl _)
      next enough => exact .tooDeep stopped (Nat.le_of_not_lt enough)

/-- Recovery takes tokens from the front, and what it passes on is no syntax error. -/
theorem orderly_recovering (depth : Nat) {rule : Rule Stmt} (orderly : Orderly rule) :
    Orderly (recovering depth rule) where
  suffix surroundings tokens := by
    have taken := orderly.suffix surroundings tokens
    have skipped := ((synchronize_suffix (rule surroundings tokens).rest).trans
      (List.tail_suffix _)).trans taken
    have recovers := recovery depth rule surroundings tokens
    generalize recovering depth rule surroundings tokens = reply at recovers ⊢
    cases recovers with
    | kept => exact taken
    | dropped => exact skipped
    | tooDeep => exact skipped
    | passedOn => exact taken
  stopsThere surroundings tokens := by
    have recovers := recovery depth rule surroundings tokens
    generalize recovering depth rule surroundings tokens = reply at recovers ⊢
    cases recovers <;> nofun

/-- Where a declaration is nested too deeply, it is stopped or that is reported. -/
theorem isDeep_recovering (depth : Nat) {rule : Rule Stmt} {surroundings : Surroundings}
    {tokens : List Token} (isDeep : (rule surroundings tokens).IsDeep) :
    (recovering depth rule surroundings tokens).IsDeep := by
  have recovers := recovery depth rule surroundings tokens
  generalize recovering depth rule surroundings tokens = reply at recovers ⊢
  cases recovers with
  | kept isOk => exact .inr (isDeep.resolve_left (by rw [isOk]; nofun))
  | dropped stopped => exact .inr (isDeep.resolve_left (by rw [stopped]; nofun))
  | tooDeep => exact .inr ⟨_, List.mem_append_right _ (List.mem_singleton_self _), rfl⟩
  | passedOn => exact .inl rfl

/-- Recovery may be refined, also to one with more of the limit left below. -/
theorem refined_recovering {smaller larger : Nat} {small large : Rule Stmt}
    (refined : Refined small large) :
    Refined (recovering smaller small) (recovering larger large) where
  orderly := orderly_recovering smaller refined.orderly
  orderlyLarge := orderly_recovering larger refined.orderlyLarge
  agree surroundings tokens := by
    rcases refined.agree surroundings tokens with isDeep | same
    · exact .inl (isDeep_recovering smaller isDeep)
    · cases isResult : (small surroundings tokens).result with
      | ok statement => exact .inr (by simp only [recovering, ← same, isResult])
      | error stop =>
        cases stop with
        | syntaxError => exact .inr (by simp only [recovering, ← same, isResult])
        | tooDeep => exact .inl (isDeep_recovering smaller (.inl isResult))

/-- A declaration that has a result, whether it is kept or dropped, takes at least one token if
there is one. -/
theorem recovering_length_lt {depth : Nat} {rule : Rule Stmt} (orderly : Orderly rule)
    (takes : Takes rule) {surroundings : Surroundings} {tokens : List Token}
    (nonempty : tokens ≠ []) {found : Option Stmt}
    (isOk : (recovering depth rule surroundings tokens).result = .ok found) :
    (recovering depth rule surroundings tokens).rest.length < tokens.length := by
  have skipped := synchronize_length_lt (orderly.suffix surroundings tokens) nonempty
  have recovers := recovery depth rule surroundings tokens
  generalize recovering depth rule surroundings tokens = reply at recovers isOk ⊢
  cases recovers with
  | kept isKept => exact takes _ _ _ isKept
  | dropped => exact skipped
  | tooDeep => exact skipped
  | passedOn => cases isOk

/-- The rule looks ahead without taking anything, and its answer is no where no token is left. -/
def LooksAhead (more : Rule Bool) : Prop :=
  ∀ (surroundings : Surroundings) (tokens : List Token),
    ∃ answer, more surroundings tokens = ⟨[], tokens, .ok answer⟩ ∧ (answer = true → tokens ≠ [])

/-- To look ahead takes nothing and reports nothing. -/
theorem LooksAhead.orderly {more : Rule Bool} (looksAhead : LooksAhead more) : Orderly more where
  suffix surroundings tokens := by
    obtain ⟨answer, same, -⟩ := looksAhead surroundings tokens
    simp only [same, List.suffix_rfl]
  stopsThere surroundings tokens := by
    obtain ⟨answer, same, -⟩ := looksAhead surroundings tokens
    rw [same]
    nofun

/-- Whether there is a further declaration is found by looking ahead. -/
theorem hasNext_looksAhead : LooksAhead hasNext := by
  intro surroundings tokens
  cases tokens with
  | nil => exact ⟨false, rfl, nofun⟩
  | cons token tokens => exact ⟨true, rfl, fun _ => List.cons_ne_nil _ _⟩

/-- Whether the block goes on is found by looking ahead. -/
theorem inBlock_looksAhead : LooksAhead inBlock := by
  intro surroundings tokens
  cases tokens with
  | nil => exact ⟨false, rfl, nofun⟩
  | cons token tokens =>
    exact ⟨_, rfl, fun _ => List.cons_ne_nil _ _⟩

/-- A rule for declarations whose every reply, if it is not stopped, is shorter than its tokens. -/
def Advances (declaration : Rule (Option Stmt)) : Prop :=
  ∀ (surroundings : Surroundings) (tokens : List Token) (found : Option Stmt), tokens ≠ [] →
    (declaration surroundings tokens).result = .ok found →
      (declaration surroundings tokens).rest.length < tokens.length

/-- A further declaration may be refined. -/
theorem refined_declarationStep {more : Rule Bool} {small large : Rule (Option Stmt)}
    (looksAhead : LooksAhead more) (refined : Refined small large) (found : List Stmt) :
    Refined (declarationStep more small found) (declarationStep more large found) := by
  refine looksAhead.orderly.refined.bind fun answer =>
    .ite (refined.bind fun statement => ?_) (Orderly.pure none).refined
  cases statement with
  | none => exact (Orderly.pure _).refined
  | some statement => exact (Orderly.pure _).refined

/-- A declaration that advances takes a token whenever there is a further one. -/
theorem steady_declarationStep {more : Rule Bool} {declaration : Rule (Option Stmt)}
    (looksAhead : LooksAhead more) (advances : Advances declaration) :
    Steady (declarationStep more declaration) where
  takes {value further surroundings tokens} := by
    obtain ⟨answer, same, nonempty⟩ := looksAhead surroundings tokens
    unfold declarationStep
    rw [bind_eq, same]
    cases answer with
    | false => nofun
    | true =>
      simp only [if_true, after_nil]
      rw [bind_eq]
      cases result : (declaration surroundings tokens).result with
      | error stop => nofun
      | ok found =>
        intro _
        have shorter := advances surroundings tokens found (nonempty rfl) result
        cases found <;> exact shorter
  idle value surroundings := by
    obtain ⟨answer, same, nonempty⟩ := looksAhead surroundings []
    obtain rfl : answer = false := by
      cases answer with
      | false => rfl
      | true => exact absurd rfl (nonempty rfl)
    unfold declarationStep
    rw [bind_eq, same]
    rfl

/-- Declarations one after the other are refined by refining the rule for one. -/
theorem refined_declarations {more : Rule Bool} {small large : Rule (Option Stmt)}
    (looksAhead : LooksAhead more) (advancesSmall : Advances small)
    (advancesLarge : Advances large) (refined : Refined small large) :
    Refined (declarations more small) (declarations more large) :=
  .bind (.repeated (steady_declarationStep looksAhead advancesSmall)
    (steady_declarationStep looksAhead advancesLarge)
    (refined_declarationStep looksAhead refined) _) fun _ => (Orderly.pure _).refined

/-- A block is refined by refining the rule for declarations. -/
theorem refined_block {small large : Rule (Option Stmt)} (advancesSmall : Advances small)
    (advancesLarge : Advances large) (refined : Refined small large) :
    Refined (block small) (block large) :=
  (refined_declarations inBlock_looksAhead advancesSmall advancesLarge refined).bind fun _ =>
    ((Orderly.expect _ _).bind fun _ => .pure _).refined

/-- A function is refined by refining the rule for the declarations of its body. -/
theorem refined_function {small large : Rule (Option Stmt)} (advancesSmall : Advances small)
    (advancesLarge : Advances large) (refined : Refined small large) :
    Refined (function small) (function large) := by
  refine (Orderly.expect _ _).refined.bind fun name => (Orderly.expect _ _).refined.bind fun _ =>
    (Orderly.nextIs _).refined.bind fun closes => ?_
  have ends (parameters : List Token) :=
    (Orderly.expect .rightParen .parenAfterParameters).refined.bind fun _ =>
      (Orderly.expect .leftBrace .braceBeforeBody).refined.bind fun _ =>
      (refined_block advancesSmall advancesLarge refined).withinFunction.bind fun body =>
        (Orderly.pure (Stmt.function name parameters body)).refined
  exact .ite ((Orderly.pure []).refined.bind ends)
    ((refined_listed (Orderly.expect _ _).refined).bind ends)

/-- A variable declaration is refined by refining the rule for its initializer. -/
theorem refined_varDeclaration (refined : Refined small large) :
    Refined (varDeclaration small) (varDeclaration large) := by
  refine (Orderly.expect _ _).refined.bind fun name => ?_
  refine (Orderly.accept _).refined.bind fun equals => ?_
  have ends (start : Option Expr) := ((Orderly.expect .semicolon .semicolonAfterDeclaration).bind
    fun _ => .pure (Stmt.var name start)).refined
  cases equals with
  | none => exact (Orderly.pure none).refined.bind ends
  | some equals => exact refined.map.bind ends

/-- An expression statement is refined by refining the rule for expressions. -/
theorem refined_expressionStatement (refined : Refined small large) :
    Refined (expressionStatement small) (expressionStatement large) :=
  refined.bind fun _ => ((Orderly.expect _ _).bind fun _ => .pure _).refined

/-- A print statement is refined by refining the rule for expressions. -/
theorem refined_printStatement (refined : Refined small large) :
    Refined (printStatement small) (printStatement large) :=
  refined.bind fun _ => ((Orderly.expect _ _).bind fun _ => .pure _).refined

/-- A return statement is refined by refining the rule for its value; whether it stands in a
function is reported before. -/
theorem refined_returnStatement (refined : Refined small large) (keyword : Token) :
    Refined (returnStatement small keyword) (returnStatement large keyword) := by
  refine Orderly.inFunction.refined.bind fun answer => ?_
  have ends (value : Option Expr) := ((Orderly.expect .semicolon .semicolonAfterReturnValue).bind
    fun _ => .pure (Stmt.ret keyword value)).refined
  have given : Refined (some <$> small) (some <$> large) := refined.map
  refine .ite ((Orderly.reportAt _ _).refined.bind fun _ => ?_) ?_
  · exact (Orderly.nextIs _).refined.bind fun closes =>
      .ite ((Orderly.pure none).refined.bind ends) (given.bind ends)
  · exact (Orderly.nextIs _).refined.bind fun closes =>
      .ite ((Orderly.pure none).refined.bind ends) (given.bind ends)

/-- A conditional is refined by refining its condition and its branches. -/
theorem refined_ifStatement {smallStatement largeStatement : Rule Stmt}
    (refined : Refined small large) (refinedStatement : Refined smallStatement largeStatement) :
    Refined (ifStatement small smallStatement) (ifStatement large largeStatement) := by
  refine (Orderly.expect _ _).refined.bind fun _ => refined.bind fun condition =>
    (Orderly.expect _ _).refined.bind fun _ => refinedStatement.bind fun consequent =>
      (Orderly.accept _).refined.bind fun otherwise => ?_
  cases otherwise with
  | none => exact (Orderly.pure none).refined.bind fun _ => (Orderly.pure _).refined
  | some otherwise => exact refinedStatement.map.bind fun _ => (Orderly.pure _).refined

/-- A while loop is refined by refining its condition and its body. -/
theorem refined_whileStatement {smallStatement largeStatement : Rule Stmt}
    (refined : Refined small large) (refinedStatement : Refined smallStatement largeStatement) :
    Refined (whileStatement small smallStatement) (whileStatement large largeStatement) :=
  (Orderly.expect _ _).refined.bind fun _ => refined.bind fun _ =>
    (Orderly.expect _ _).refined.bind fun _ => refinedStatement.bind fun _ =>
      (Orderly.pure _).refined

/-- What a for loop starts with is refined by refining the rule for expressions. -/
theorem refined_forStart (refined : Refined small large) :
    Refined (forStart small) (forStart large) := by
  refine (Orderly.accept _).refined.bind fun found => ?_
  cases found with
  | none => exact (refined_expressionStatement refined).map
  | some token => exact .ite (Orderly.pure none).refined (refined_varDeclaration refined).map

/-- A clause of a for loop that may be absent is refined by refining the rule for expressions. -/
theorem refined_optionalExpression (refined : Refined small large) (closing : TokenKind) :
    Refined (optionalExpression small closing) (optionalExpression large closing) :=
  (Orderly.nextIs _).refined.bind fun _ => .ite (Orderly.pure none).refined refined.map

/-- A for loop is refined by refining its clauses and its body. -/
theorem refined_forStatement {smallStatement largeStatement : Rule Stmt}
    (refined : Refined small large) (refinedStatement : Refined smallStatement largeStatement) :
    Refined (forStatement small smallStatement) (forStatement large largeStatement) :=
  (Orderly.expect _ _).refined.bind fun _ => (refined_forStart refined).bind fun _ =>
    (refined_optionalExpression refined _).bind fun _ => (Orderly.expect _ _).refined.bind fun _ =>
      (refined_optionalExpression refined _).bind fun _ =>
        (Orderly.expect _ _).refined.bind fun _ =>
        refinedStatement.bind fun _ => (Orderly.pure _).refined

/-- A function or a variable declaration, after its keyword. -/
def keywordDeclaration (declaration : Rule (Option Stmt)) (expression : Rule Expr)
    (keyword : Token) : Rule Stmt :=
  if keyword.kind = .keyFun then function declaration else varDeclaration expression

/-- What `declaration` tries with one unit of its limit taken. -/
def declarationBody (statement : Rule Stmt) (declaration : Rule (Option Stmt))
    (expression : Rule Expr) : Rule Stmt := do
  match ← accept [.keyFun, .keyVar] with
  | none => statement
  | some keyword => keywordDeclaration declaration expression keyword

/-- A statement after the keyword or the brace that it begins with. -/
def keywordStatement (statement : Rule Stmt) (declaration : Rule (Option Stmt))
    (expression : Rule Expr) (keyword : Token) : Rule Stmt :=
  match keyword.kind with
  | .keyFor => forStatement expression statement
  | .keyIf => ifStatement expression statement
  | .keyPrint => printStatement expression
  | .keyReturn => returnStatement expression keyword
  | .keyWhile => whileStatement expression statement
  | _ => .block <$> block declaration

/-- What `statement` does with one unit of its limit taken. -/
def statementBody (statement : Rule Stmt) (declaration : Rule (Option Stmt))
    (expression : Rule Expr) : Rule Stmt := do
  match ← accept [.keyFor, .keyIf, .keyPrint, .keyReturn, .keyWhile, .leftBrace] with
  | none => expressionStatement expression
  | some keyword => keywordStatement statement declaration expression keyword

/-- With one more to go, a declaration is made of parts with one less and recovers by what is left.
-/
theorem declaration_succ (depth : Nat) :
    declaration (depth + 1) =
      recovering depth
        (declarationBody (statement depth) (declaration depth) (expression depth)) := rfl

/-- With one more to go, a statement is made of parts with one less. -/
theorem statement_succ (depth : Nat) :
    statement (depth + 1) =
      statementBody (statement depth) (declaration depth) (expression depth) := rfl

section Bodies

variable {smallStatement largeStatement : Rule Stmt}
  {smallDeclaration largeDeclaration : Rule (Option Stmt)}

/-- A declaration that begins with a keyword is refined by refining its parts. -/
theorem refined_keywordDeclaration (advancesSmall : Advances smallDeclaration)
    (advancesLarge : Advances largeDeclaration)
    (refinedDeclaration : Refined smallDeclaration largeDeclaration)
    (refined : Refined small large) (keyword : Token) :
    Refined (keywordDeclaration smallDeclaration small keyword)
      (keywordDeclaration largeDeclaration large keyword) :=
  .ite (refined_function advancesSmall advancesLarge refinedDeclaration)
    (refined_varDeclaration refined)

/-- The body of a declaration is refined by refining its parts. -/
theorem refined_declarationBody (advancesSmall : Advances smallDeclaration)
    (advancesLarge : Advances largeDeclaration)
    (refinedStatement : Refined smallStatement largeStatement)
    (refinedDeclaration : Refined smallDeclaration largeDeclaration)
    (refined : Refined small large) :
    Refined (declarationBody smallStatement smallDeclaration small)
      (declarationBody largeStatement largeDeclaration large) := by
  refine (Orderly.accept _).refined.bind fun keyword => ?_
  cases keyword with
  | none => exact refinedStatement
  | some keyword =>
    exact refined_keywordDeclaration advancesSmall advancesLarge refinedDeclaration refined keyword

/-- A statement that begins with a keyword is refined by refining its parts. -/
theorem refined_keywordStatement (advancesSmall : Advances smallDeclaration)
    (advancesLarge : Advances largeDeclaration)
    (refinedStatement : Refined smallStatement largeStatement)
    (refinedDeclaration : Refined smallDeclaration largeDeclaration)
    (refined : Refined small large) (keyword : Token) :
    Refined (keywordStatement smallStatement smallDeclaration small keyword)
      (keywordStatement largeStatement largeDeclaration large keyword) := by
  unfold keywordStatement
  split
  · exact refined_forStatement refined refinedStatement
  · exact refined_ifStatement refined refinedStatement
  · exact refined_printStatement refined
  · exact refined_returnStatement refined keyword
  · exact refined_whileStatement refined refinedStatement
  · exact (refined_block advancesSmall advancesLarge refinedDeclaration).map

/-- The body of a statement is refined by refining its parts. -/
theorem refined_statementBody (advancesSmall : Advances smallDeclaration)
    (advancesLarge : Advances largeDeclaration)
    (refinedStatement : Refined smallStatement largeStatement)
    (refinedDeclaration : Refined smallDeclaration largeDeclaration)
    (refined : Refined small large) :
    Refined (statementBody smallStatement smallDeclaration small)
      (statementBody largeStatement largeDeclaration large) := by
  refine (Orderly.accept _).refined.bind fun keyword => ?_
  cases keyword with
  | none => exact refined_expressionStatement refined
  | some keyword =>
    exact refined_keywordStatement advancesSmall advancesLarge refinedStatement refinedDeclaration
      refined keyword

end Bodies

/-- What the rules for statements need of those of a smaller depth. -/
structure WellBehaved (statement : Rule Stmt) (declaration : Rule (Option Stmt)) : Prop where
  orderly : Orderly statement
  takes : Takes statement
  orderlyDeclaration : Orderly declaration
  advances : Advances declaration

/-- An expression statement takes its semicolon at least. -/
theorem takes_expressionStatement {expression : Rule Expr} (orderly : Orderly expression) :
    Takes (expressionStatement expression) :=
  takes_bind_right orderly fun _ => takes_bind_left (takes_expect _ _) fun _ => .pure _

/-- The rules for statements and declarations are well-behaved with every limit, by induction on it.
-/
theorem wellBehaved (depth : Nat) : WellBehaved (statement depth) (declaration depth) := by
  induction depth with
  | zero => exact ⟨.tooDeep, fun _ _ _ => nofun, .tooDeep, fun _ _ _ _ => nofun⟩
  | succ depth inductionHypothesis =>
    obtain ⟨orderly, takes, orderlyDeclaration, advances⟩ := inductionHypothesis
    have orderlyExpression := orderly_expression depth
    have orderlyBody := (refined_declarationBody advances advances orderly.refined
      orderlyDeclaration.refined orderlyExpression.refined).orderly
    refine ⟨?_, ?_, ?_, ?_⟩
    · exact (refined_statementBody advances advances orderly.refined orderlyDeclaration.refined
        orderlyExpression.refined).orderly
    · exact takes_accept (takes_expressionStatement orderlyExpression) fun keyword =>
        (refined_keywordStatement advances advances orderly.refined orderlyDeclaration.refined
          orderlyExpression.refined keyword).orderly
    · exact orderly_recovering depth orderlyBody
    · have takesBody : Takes (declarationBody (statement depth) (declaration depth)
          (expression depth)) :=
        takes_accept takes fun keyword => (refined_keywordDeclaration advances advances
          orderlyDeclaration.refined orderlyExpression.refined keyword).orderly
      exact fun _ _ _ nonempty isOk => recovering_length_lt orderlyBody takesBody nonempty isOk

/-- Statements are orderly with every limit. -/
theorem orderly_statement (depth : Nat) : Orderly (statement depth) := (wellBehaved depth).orderly

/-- Declarations are orderly with every limit. -/
theorem orderly_declaration (depth : Nat) : Orderly (declaration depth) :=
  (wellBehaved depth).orderlyDeclaration

/-- A declaration that is not stopped makes the tokens fewer. -/
theorem advances_declaration (depth : Nat) : Advances (declaration depth) :=
  (wellBehaved depth).advances

/-- A declaration is orderly also before it recovers. -/
theorem orderly_declarationBody (depth : Nat) :
    Orderly (declarationBody (statement depth) (declaration depth) (expression depth)) :=
  (refined_declarationBody (advances_declaration depth) (advances_declaration depth)
    (orderly_statement depth).refined (orderly_declaration depth).refined
    (orderly_expression depth).refined).orderly

/-- Declarations one after the other take a token at every turn. -/
theorem steady_declarations {more : Rule Bool} (looksAhead : LooksAhead more) (depth : Nat) :
    Steady (declarationStep more (declaration depth)) :=
  steady_declarationStep looksAhead (advances_declaration depth)

/-- With one more to go, statements and declarations are refined. -/
theorem refined_statement_declaration (depth : Nat) :
    Refined (statement depth) (statement (depth + 1)) ∧
      Refined (declaration depth) (declaration (depth + 1)) := by
  induction depth with
  | zero => exact ⟨.tooDeep (orderly_statement 1), .tooDeep (orderly_declaration 1)⟩
  | succ depth inductionHypothesis =>
    obtain ⟨refinedStatement, refinedDeclaration⟩ := inductionHypothesis
    have advancesSmall := advances_declaration depth
    have advancesLarge := advances_declaration (depth + 1)
    have refined := (refined_unary_expression depth).2
    exact ⟨refined_statementBody advancesSmall advancesLarge refinedStatement refinedDeclaration
        refined,
      refined_recovering (refined_declarationBody advancesSmall advancesLarge refinedStatement
        refinedDeclaration refined)⟩

/-- A declaration with a larger limit refines the one with a smaller limit. -/
theorem refined_declaration {smaller larger : Nat} (le : smaller ≤ larger) :
    Refined (declaration smaller) (declaration larger) := by
  induction le with
  | refl => exact (orderly_declaration smaller).refined
  | step _ inductionHypothesis =>
    exact inductionHypothesis.trans (refined_statement_declaration _).2

/-! ## Programs -/

/-- A declaration with enough of the limit left always gives a reply. -/
theorem recovering_ok {depth : Nat} (enough : recoveryDepth ≤ depth) (rule : Rule Stmt)
    (surroundings : Surroundings) (tokens : List Token) :
    ∃ found, (recovering depth rule surroundings tokens).result = .ok found := by
  have recovers := recovery depth rule surroundings tokens
  generalize recovering depth rule surroundings tokens = reply at recovers ⊢
  cases recovers with
  | kept => exact ⟨_, rfl⟩
  | dropped => exact ⟨_, rfl⟩
  | tooDeep => exact ⟨_, rfl⟩
  | passedOn _ tooLittle => exact absurd enough (Nat.not_le_of_lt tooLittle)

/-- A program has all that recovery may need. -/
theorem recoveryDepth_le (limit : Nat) : recoveryDepth ≤ depthOf limit := Nat.le_add_left _ _

/-- A declaration of a program always gives a reply. -/
theorem declaration_ok (limit : Nat) (surroundings : Surroundings) (tokens : List Token) :
    ∃ found, (declaration (depthOf limit + 1) surroundings tokens).result = .ok found :=
  recovering_ok (recoveryDepth_le limit) _ surroundings tokens

/-- One step over the declarations of a program is never stopped, and is the last only where
nothing is left. -/
theorem declarationStep_ok {depth : Nat} (enough : recoveryDepth ≤ depth) (rule : Rule Stmt)
    (found : List Stmt) (surroundings : Surroundings) (tokens : List Token) :
    ∃ further,
      (declarationStep hasNext (recovering depth rule) found surroundings tokens).result =
        .ok further ∧
      (further = none →
        (declarationStep hasNext (recovering depth rule) found surroundings tokens).rest = []) := by
  unfold declarationStep
  rw [bind_eq]
  cases tokens with
  | nil => exact ⟨none, rfl, fun _ => rfl⟩
  | cons token tokens =>
    obtain ⟨statement, isOk⟩ := recovering_ok enough rule surroundings (token :: tokens)
    have isMore : hasNext surroundings (token :: tokens) = ⟨[], token :: tokens, .ok true⟩ := rfl
    rw [isMore]
    simp only [if_true, after_nil]
    rw [bind_eq, isOk]
    cases statement with
    | none => exact ⟨_, rfl, nofun⟩
    | some statement => exact ⟨_, rfl, nofun⟩

/-- A repetition gives a value if no step of it is stopped, and takes everything if the last step
does. -/
theorem repeated_ok {step : α → Rule (Option α)} (steady : Steady step)
    {surroundings : Surroundings}
    (stepOk : ∀ value tokens, ∃ further, (step value surroundings tokens).result = .ok further ∧
      (further = none → (step value surroundings tokens).rest = []))
    (value : α) (tokens : List Token) :
    ∃ found, (repeated value step surroundings tokens).result = .ok found ∧
      (repeated value step surroundings tokens).rest = [] := by
  generalize bound : tokens.length = count
  induction count using Nat.strongRecOn generalizing value tokens with
  | _ count inductionHypothesis =>
    obtain ⟨further, isOk, isLast⟩ := stepOk value tokens
    rw [repeated_eq steady, bind_eq, isOk]
    cases further with
    | none => exact ⟨value, rfl, isLast rfl⟩
    | some further =>
      have shorter := steady.takes isOk
      exact inductionHypothesis _ (by omega) further _ rfl

/-- The declarations of a program always give a reply and leave nothing, so that the limit of a
program is only ever reported. -/
theorem declarations_ok (limit : Nat) (surroundings : Surroundings) (tokens : List Token) :
    ∃ statements,
      (declarations hasNext (declaration (depthOf limit + 1)) surroundings tokens).result =
        .ok statements ∧
      (declarations hasNext (declaration (depthOf limit + 1)) surroundings tokens).rest = [] := by
  obtain ⟨found, isOk, leavesNothing⟩ := repeated_ok
    (steady_declarations hasNext_looksAhead (depthOf limit + 1))
    (fun found tokens =>
      declarationStep_ok (recoveryDepth_le limit) _ found surroundings tokens) [] tokens
  rw [declarations_eq, bind_eq, isOk]
  exact ⟨found.reverse, rfl, leavesNothing⟩

/-- A program that is not too deeply nested for one limit is read alike with every larger one. -/
theorem parse_mono {smaller larger : Nat} (le : smaller ≤ larger) {tokens : List Token}
    {endLine : Int}
    (within : ∀ error ∈ (parse smaller tokens endLine).errors, error.problem ≠ .tooMuchNesting) :
    parse smaller tokens endLine = parse larger tokens endLine := by
  have refined := refined_declarations hasNext_looksAhead
    (advances_declaration (depthOf smaller + 1)) (advances_declaration (depthOf larger + 1))
    (refined_declaration (Nat.add_le_add_right le (recoveryDepth + 1)))
  obtain ⟨statements, isOk, -⟩ := declarations_ok smaller ⟨endLine, false⟩ tokens
  unfold parse at within ⊢
  rcases refined.agree ⟨endLine, false⟩ tokens with (stopped | ⟨error, member, isNesting⟩) | same
  · rw [stopped] at isOk
    exact nomatch isOk
  · simp only [isOk] at within
    exact absurd isNesting (within error member)
  · rw [same]

end LoxLang.Grammar
