import LoxLang.Proofs.Grammar.Parallel

/-!
# The grammar on two lists of tokens

Every rule of the grammar replies alike to tokens and to their companions. Where a rule ends with a
token of its own, what stands behind never matters. An expression can be gone on by any operator, a
statement by nothing but an `else`, and a declaration that is dropped by the search for the next
one.
-/

namespace LoxLang.Grammar

open Rule

/-! ## Expressions -/

section Expressions

variable {companion : Companion} {follow : Prop} {α γ : Type} {good : α → γ → Prop}
  {inner operand : Rule Expr}

/-- A chain of operators reads alike if its operands do: what follows may only lengthen it. -/
theorem parallel_chain {level : Level} (joins : level.combine ∈ [Expr.logical, Expr.binary])
    (orderly : Orderly operand)
    (parallel : Parallel companion False companion.pairing.OnExpr operand operand) :
    Parallel companion False companion.pairing.OnExpr (chain level operand)
      (chain level operand) := by
  have combine {left right operator otherLeft otherRight other}
      (lefts : companion.pairing.OnExpr left otherLeft)
      (operators : companion.pairing.Pairs operator other)
      (rights : companion.pairing.OnExpr right otherRight) :
      companion.pairing.OnExpr (level.combine left operator right)
        (level.combine otherLeft other otherRight) := by
    simp only [List.mem_cons, List.not_mem_nil, or_false] at joins
    rcases joins with isLogical | isBinary
    · rw [isLogical]
      exact .logical lefts operators rights
    · rw [isBinary]
      exact .binary lefts operators rights
  refine parallel.bind fun first otherFirst firsts => ?_
  refine .repeated (steady_chainStep orderly) (fun left otherLeft lefts => ?_) firsts
  refine (Parallel.accept nofun).bind fun operator other operators => ?_
  cases operators with
  | none => exact .pure .none
  | some operators =>
    exact parallel.bind fun right otherRight rights =>
      .pure (.some (combine lefts operators rights))

/-- Levels of operators above each other read alike if the operands of the highest one do. -/
theorem parallel_operations {levels : List Level}
    (join : ∀ level ∈ levels, level.combine ∈ [Expr.logical, Expr.binary])
    (orderly : Orderly operand)
    (parallel : Parallel companion False companion.pairing.OnExpr operand operand) :
    Parallel companion False companion.pairing.OnExpr (operations levels operand)
      (operations levels operand) := by
  induction levels with
  | nil => exact parallel
  | cons level levels inductionHypothesis =>
    obtain ⟨joins, join⟩ := List.forall_mem_cons.mp join
    exact parallel_chain joins (refined_operations levels orderly.refined).orderly
      (inductionHypothesis join)

/-- The operators of every level make a node of one of two kinds. -/
theorem combine_mem_of_mem_levels :
    ∀ level ∈ levels, level.combine ∈ [Expr.logical, Expr.binary] := by
  simp [levels]

/-- A list reads alike if its items do. -/
theorem parallel_listed {tooMany : Problem} {item : Rule α} {good : α → α → Prop}
    (orderly : Orderly item) (parallel : Parallel companion False good item item) :
    Parallel companion False (List.Forall₂ good) (listed tooMany item) (listed tooMany item) := by
  refine parallel.bind fun first otherFirst firsts => ?_
  let alike : Nat × List α → Nat × List α → Prop := fun found other =>
    other.1 = found.1 ∧ List.Forall₂ good found.2 other.2
  have steps (found other : Nat × List α) (areAlike : alike found other) :
      Parallel companion False (Option.Rel alike) (listedStep tooMany item found)
        (listedStep tooMany item other) := by
    obtain ⟨_, found⟩ := found
    obtain ⟨count, other⟩ := other
    obtain ⟨rfl, all⟩ := areAlike
    refine (Parallel.accept nofun).bind fun comma otherComma commas => ?_
    cases commas with
    | none => exact .pure .none
    | some commas =>
      have reads : Parallel companion False (Option.Rel alike)
          (do return some (count + 1, (← item) :: found))
          (do return some (count + 1, (← item) :: other)) :=
        parallel.bind fun further otherFurther furthers => .pure (.some ⟨rfl, .cons furthers all⟩)
      exact .ite ((Parallel.reportNext tooMany).bind fun _ _ _ => reads) reads
  have all := Parallel.repeated (steady_listedStep orderly) steps
    (show alike (1, [first]) (1, [otherFirst]) from ⟨rfl, .cons firsts .nil⟩)
  exact all.bind fun found other areAlike => .pure (List.rel_reverse areAlike.2)

/-- Calls read alike if their arguments do. -/
theorem parallel_calls (orderly : Orderly inner)
    (parallel : Parallel companion False companion.pairing.OnExpr inner inner)
    {callee otherCallee : Expr} (callees : companion.pairing.OnExpr callee otherCallee) :
    Parallel companion False companion.pairing.OnExpr (calls inner callee)
      (calls inner otherCallee) := by
  refine .repeated (steady_callStep orderly) (fun callee otherCallee callees => ?_) callees
  refine (Parallel.accept nofun).bind fun opening otherOpening openings => ?_
  cases openings with
  | none => exact .pure .none
  | some openings =>
    refine (Parallel.nextIs _).bind fun closes _ same => ?_
    subst same
    have closed (arguments others : List Expr)
        (all : List.Forall₂ companion.pairing.OnExpr arguments others) :
        Parallel companion False (Option.Rel companion.pairing.OnExpr)
          (do
            let paren ← expect .rightParen .parenAfterArguments
            return some (.call callee paren arguments))
          (do
            let paren ← expect .rightParen .parenAfterArguments
            return some (.call otherCallee paren others)) :=
      (Parallel.expect _ _).bind fun paren otherParen parens =>
        .pure (.some (.call callees parens all))
    exact .ite ((Parallel.pure .nil).bind closed) ((parallel_listed orderly parallel).bind closed)

/-- A primary expression reads alike, as it ends with a token of its own. -/
theorem parallel_primary
    (parallel : Parallel companion False companion.pairing.OnExpr inner inner) :
    Parallel companion False companion.pairing.OnExpr (primary inner)
      (primary inner) := by
  refine Parallel.next.bind fun found other tokens => ?_
  cases tokens with
  | none => exact .fail _
  | @some token other tokens =>
    have taken {tree otherTree : Expr} (trees : companion.pairing.OnExpr tree otherTree) :
        Parallel companion False companion.pairing.OnExpr (skip >>= fun _ => pure tree)
          (skip >>= fun _ => pure otherTree) :=
      Parallel.skip.bind fun _ _ _ => .pure trees
    dsimp only
    rw [Pairing.kind_eq tokens, Pairing.literal_eq tokens]
    split
    iterate 5 exact taken (.literal _)
    · exact taken (.reference tokens)
    · refine Parallel.skip.bind fun _ _ _ => parallel.bind fun tree otherTree trees => ?_
      exact (Parallel.expect _ _).bind fun _ _ _ => .pure (.grouping trees)
    · exact .fail _

/-- Unary expressions and expressions read alike with every limit, by induction on it. -/
theorem parallel_unary_expression (companion : Companion) (depth : Nat) :
    Parallel companion False companion.pairing.OnExpr (unary depth) (unary depth) ∧
      Parallel companion False companion.pairing.OnExpr (expression depth) (expression depth) := by
  induction depth with
  | zero => exact ⟨.tooDeep, .tooDeep⟩
  | succ depth inductionHypothesis =>
    obtain ⟨parallelUnary, parallel⟩ := inductionHypothesis
    rw [unary_succ, expression_succ]
    constructor
    · refine (Parallel.accept nofun).bind fun operator other operators => ?_
      cases operators with
      | none =>
        exact (parallel_primary parallel).bind fun callee otherCallee callees =>
          parallel_calls (orderly_expression depth) parallel callees
      | some operators =>
        exact parallelUnary.bind fun right otherRight rights => .pure (.unary operators rights)
    · refine (parallel_operations combine_mem_of_mem_levels (orderly_unary depth)
        parallelUnary).bind fun target otherTarget targets => ?_
      refine (Parallel.accept nofun).bind fun equals other signs => ?_
      cases signs with
      | none => exact .pure targets
      | some signs =>
        refine parallel.bind fun value otherValue values => ?_
        cases targets with
        | reference names => exact .pure (.assign names values)
        | _ =>
          refine (Parallel.reportAt signs _).bind fun _ _ _ => .pure ?_
          constructor <;> assumption

/-- Expressions read alike with every limit. -/
theorem parallel_expression (companion : Companion) (depth : Nat) :
    Parallel companion False companion.pairing.OnExpr (expression depth) (expression depth) :=
  (parallel_unary_expression companion depth).2

end Expressions

/-! ## Statements -/

section Statements

variable {companion : Companion} {follow : Prop} {α γ δ : Type} {good : α → γ → Prop}
  {inner : Rule Expr}

/-- A phrase with a closing token, whatever stands behind. -/
theorem parallel_closed {β : Type} {rule : Rule α} {other : Rule γ} {build : α → β}
    {otherBuild : γ → δ} {fine : β → δ → Prop} {kind : TokenKind} {missing : Expected}
    (parallel : Parallel companion False good rule other)
    (isFine : ∀ value found, good value found → fine (build value) (otherBuild found)) :
    Parallel companion follow fine
      (do
        let value ← rule
        let _ ← expect kind missing
        return build value)
      (do
        let value ← other
        let _ ← expect kind missing
        return otherBuild value) :=
  parallel.bindTakes (fun _ => takes_bind_left (takes_expect _ _) fun _ => .pure _)
    fun _ _ isGood => (Parallel.expect _ _).bind fun _ _ _ => .pure (isFine _ _ isGood)

/-- An expression statement reads alike whatever follows its semicolon. -/
theorem parallel_expressionStatement
    (parallel : Parallel companion False companion.pairing.OnExpr inner inner) :
    Parallel companion follow companion.pairing.OnStmt (expressionStatement inner)
      (expressionStatement inner) :=
  parallel_closed parallel fun _ _ => .expression

/-- A print statement reads alike whatever follows its semicolon. -/
theorem parallel_printStatement
    (parallel : Parallel companion False companion.pairing.OnExpr inner inner) :
    Parallel companion follow companion.pairing.OnStmt (printStatement inner)
      (printStatement inner) :=
  parallel_closed parallel fun _ _ => .print

/-- A variable declaration reads alike whatever follows its semicolon. -/
theorem parallel_varDeclaration (orderly : Orderly inner)
    (parallel : Parallel companion False companion.pairing.OnExpr inner inner) :
    Parallel companion follow companion.pairing.OnStmt (varDeclaration inner)
      (varDeclaration inner) := by
  refine (Parallel.expect _ _).bind fun name otherName names => ?_
  have ends (start : Option Expr) : Takes (do
      let _ ← expect .semicolon .semicolonAfterDeclaration
      return Stmt.var name start) := takes_bind_left (takes_expect _ _) fun _ => .pure _
  refine (Parallel.accept nofun).bindTakes (fun equals => ?_) fun equals other signs => ?_
  · cases equals with
    | none => exact takes_bind_right (.pure none) ends
    | some equals => exact takes_bind_right orderly.map ends
  · cases signs with
    | none => exact parallel_closed (.pure .none) fun _ _ => .var names
    | some signs => exact parallel_closed (parallel.map fun _ _ => .some) fun _ _ => .var names

/-- A return statement reads alike whatever follows its semicolon. -/
theorem parallel_returnStatement (orderly : Orderly inner)
    (parallel : Parallel companion False companion.pairing.OnExpr inner inner)
    {keyword other : Token} (keywords : companion.pairing.Pairs keyword other) :
    Parallel companion follow companion.pairing.OnStmt (returnStatement inner keyword)
      (returnStatement inner other) := by
  refine Parallel.inFunction.bind fun answer _ same => ?_
  subst same
  have ends (value : Option Expr) : Takes (do
      let _ ← expect .semicolon .semicolonAfterReturnValue
      return Stmt.ret keyword value) := takes_bind_left (takes_expect _ _) fun _ => .pure _
  have value : Parallel companion follow companion.pairing.OnStmt
      (do
        let value ← if ← nextIs .semicolon then pure none else some <$> inner
        let _ ← expect .semicolon .semicolonAfterReturnValue
        return .ret keyword value)
      (do
        let value ← if ← nextIs .semicolon then pure none else some <$> inner
        let _ ← expect .semicolon .semicolonAfterReturnValue
        return .ret other value) := by
    refine (Parallel.nextIs _).bindTakes (fun closes => ?_) fun closes _ same => ?_
    · cases closes with
      | true => exact takes_bind_right (.pure none) ends
      | false => exact takes_bind_right orderly.map ends
    · subst same
      exact .ite (parallel_closed (.pure .none) fun _ _ => .ret keywords)
        (parallel_closed (parallel.map fun _ _ => .some) fun _ _ => .ret keywords)
  exact .ite ((Parallel.reportAt keywords _).bind fun _ _ _ => value) value

/-- A clause of a for loop reads alike if its expression does. -/
theorem parallel_optionalExpression
    (parallel : Parallel companion False companion.pairing.OnExpr inner inner)
    (closing : TokenKind) :
    Parallel companion False (Option.Rel companion.pairing.OnExpr)
      (optionalExpression inner closing) (optionalExpression inner closing) := by
  refine (Parallel.nextIs _).bind fun closes _ same => ?_
  subst same
  exact .ite (.pure .none) (parallel.map fun _ _ => .some)

/-- What a for loop starts with reads alike. -/
theorem parallel_forStart (orderly : Orderly inner)
    (parallel : Parallel companion False companion.pairing.OnExpr inner inner) :
    Parallel companion False (Option.Rel companion.pairing.OnStmt) (forStart inner)
      (forStart inner) := by
  refine (Parallel.accept nofun).bind fun found other tokens => ?_
  cases tokens with
  | none => exact (parallel_expressionStatement parallel).map fun _ _ => .some
  | some tokens =>
    dsimp only
    rw [Pairing.kind_eq tokens]
    exact .ite (.pure .none) ((parallel_varDeclaration orderly parallel).map fun _ _ => .some)

variable {body : Rule Stmt}

/-- An `else` that stands behind would go on the conditional, and nothing else would. -/
theorem parallel_ifStatement (orderlyBody : Orderly body)
    (parallel : Parallel companion False companion.pairing.OnExpr inner inner)
    (parallelBody : Parallel companion (Stops [.keyElse] companion.behind)
      companion.pairing.OnStmt body body) :
    Parallel companion (Stops [.keyElse] companion.behind) companion.pairing.OnStmt
      (ifStatement inner body) (ifStatement inner body) := by
  refine (Parallel.expect _ _).bind fun _ _ _ => parallel.bindTakes (fun condition => ?_)
    fun condition otherCondition conditions => (Parallel.expect _ _).bind fun _ _ _ =>
      parallelBody.bind fun consequent otherConsequent consequents =>
      (Parallel.accept id).bind fun otherwise other tokens => ?_
  · refine takes_bind_left (takes_expect _ _) fun _ => orderlyBody.bind fun consequent =>
      (Orderly.accept _).bind fun otherwise => ?_
    cases otherwise with
    | none => exact (Orderly.pure none).bind fun _ => .pure _
    | some otherwise => exact orderlyBody.map.bind fun _ => .pure _
  · cases tokens with
    | none =>
      exact (Parallel.pure .none).bind fun _ _ alternatives =>
        .pure (.conditional conditions consequents alternatives)
    | some tokens =>
      exact (parallelBody.map fun _ _ => .some).bind fun _ _ alternatives =>
        .pure (.conditional conditions consequents alternatives)

/-- A while loop reads alike if its body does. -/
theorem parallel_whileStatement (orderlyBody : Orderly body)
    (parallel : Parallel companion False companion.pairing.OnExpr inner inner)
    (parallelBody : Parallel companion follow companion.pairing.OnStmt body body) :
    Parallel companion follow companion.pairing.OnStmt (whileStatement inner body)
      (whileStatement inner body) :=
  (Parallel.expect _ _).bind fun _ _ _ => parallel.bindTakes
    (fun _ => takes_bind_left (takes_expect _ _) fun _ => orderlyBody.bind fun _ => .pure _)
    fun _ _ conditions => (Parallel.expect _ _).bind fun _ _ _ =>
      parallelBody.bind fun _ _ bodies => .pure (.loop conditions bodies)

/-- The clauses of a `for` loop that stand for each other. -/
theorem onStmt_around {clauses others : ForClauses} {tree other : Stmt}
    (starts : Option.Rel companion.pairing.OnStmt clauses.start others.start)
    (conditions : Option.Rel companion.pairing.OnExpr clauses.condition others.condition)
    (increments : Option.Rel companion.pairing.OnExpr clauses.increment others.increment)
    (bodies : companion.pairing.OnStmt tree other) :
    companion.pairing.OnStmt (clauses.around tree) (others.around other) := by
  obtain ⟨start, condition, increment⟩ := clauses
  obtain ⟨otherStart, otherCondition, otherIncrement⟩ := others
  have condition : companion.pairing.OnExpr (condition.getD (.literal (.bool true)))
      (otherCondition.getD (.literal (.bool true))) := by
    cases conditions with
    | none => exact .literal _
    | some conditions => exact conditions
  unfold ForClauses.around
  cases increments with
  | none =>
    cases starts with
    | none => exact .loop condition bodies
    | some starts => exact .block (.cons starts (.cons (.loop condition bodies) .nil))
  | some increments =>
    have step := Pairing.OnStmt.loop condition
      (.block (.cons bodies (.cons (.expression increments) .nil)))
    cases starts with
    | none => exact step
    | some starts => exact .block (.cons starts (.cons step .nil))

/-- A for loop reads alike if its body does. -/
theorem parallel_forStatement (orderly : Orderly inner) (orderlyBody : Orderly body)
    (parallel : Parallel companion False companion.pairing.OnExpr inner inner)
    (parallelBody : Parallel companion follow companion.pairing.OnStmt body body) :
    Parallel companion follow companion.pairing.OnStmt (forStatement inner body)
      (forStatement inner body) := by
  have orderlyOptional (closing : TokenKind) : Orderly (optionalExpression inner closing) :=
    (refined_optionalExpression orderly.refined closing).orderly
  -- The parts of the loop from its last clause on, and from its condition on.
  have last (start : Option Stmt) (condition increment : Option Expr) : Takes (do
      let _ ← expect .rightParen .parenAfterForClauses
      return ForClauses.around ⟨start, condition, increment⟩ (← body)) :=
    takes_bind_left (takes_expect _ _) fun _ => orderlyBody.bind fun _ => .pure _
  have middle (start : Option Stmt) (condition : Option Expr) : Takes (do
      let _ ← expect .semicolon .semicolonAfterLoopCondition
      let increment ← optionalExpression inner .rightParen
      let _ ← expect .rightParen .parenAfterForClauses
      return ForClauses.around ⟨start, condition, increment⟩ (← body)) :=
    takes_bind_left (takes_expect _ _) fun _ => (orderlyOptional _).bind fun _ =>
      (Orderly.expect _ _).bind fun _ => orderlyBody.bind fun _ => .pure _
  refine (Parallel.expect _ _).bind fun _ _ _ => (parallel_forStart orderly parallel).bindTakes
    (fun start => takes_bind_right (orderlyOptional _) (middle start)) fun start _ starts => ?_
  refine (parallel_optionalExpression parallel _).bindTakes (middle start)
    fun condition _ conditions => (Parallel.expect _ _).bind fun _ _ _ => ?_
  refine (parallel_optionalExpression parallel _).bindTakes (last start condition)
    fun increment _ increments => (Parallel.expect _ _).bind fun _ _ _ => ?_
  exact parallelBody.bind fun _ _ bodies =>
    .pure (onStmt_around starts conditions increments bodies)

/-! ## Declarations -/

/-- The search for the end of a statement stops at the same place in both lists, unless it comes to
the end of the first one. -/
theorem extends_statementBoundary {last : TokenKind} {tokens others : List Token}
    (extend : companion.Extends tokens others)
    (settled : statementBoundary last tokens ≠ [] ∨ companion.behind = [] ∨
      (tokens.map (·.kind)).getLast?.getD last = .semicolon) :
    companion.Extends (statementBoundary last tokens) (statementBoundary last others) := by
  induction tokens generalizing last others with
  | nil =>
    obtain rfl := Companion.extends_nil.mp extend
    rcases settled with isLeft | nothingBehind | isSemicolon
    · exact absurd rfl isLeft
    · rw [nothingBehind] at extend ⊢
      exact extend
    · obtain rfl : last = .semicolon := isSemicolon
      have stays (tokens : List Token) : statementBoundary .semicolon tokens = tokens := by
        cases tokens with
        | nil => rfl
        | cons token tokens => rw [statementBoundary, if_pos (.inl rfl)]
      rw [stays, stays]
      exact extend
  | cons token tokens inductionHypothesis =>
    obtain ⟨other, further, rfl, pairs, extendLeft⟩ := Companion.extends_cons.mp extend
    rw [statementBoundary] at settled ⊢
    rw [statementBoundary, Pairing.kind_eq pairs]
    split
    next => exact extend
    next goesOn =>
      refine inductionHypothesis extendLeft ?_
      rw [if_neg goesOn, List.map_cons, List.getLast?_cons] at settled
      exact settled

/-- The search for the next statement stops at the same place in both lists, unless it comes to the
end of the first one. -/
theorem extends_synchronize {tokens others : List Token} (extend : companion.Extends tokens others)
    (nonempty : tokens ≠ [] ∨ companion.EndsAlike)
    (settled : synchronize tokens ≠ [] ∨ companion.behind = [] ∨
      (tokens.map (·.kind)).getLast? = some .semicolon) :
    companion.Extends (synchronize tokens) (synchronize others) := by
  cases tokens with
  | nil =>
    obtain rfl := Companion.extends_nil_of_settled extend nonempty
    exact extend
  | cons token tokens =>
    obtain ⟨other, further, rfl, pairs, extendLeft⟩ := Companion.extends_cons.mp extend
    rw [synchronize] at settled ⊢
    rw [synchronize, Pairing.kind_eq pairs]
    refine extends_statementBoundary extendLeft ?_
    simpa [List.getLast?_cons] using settled

/-- What settles the search for the next statement settles what is searched. -/
theorem settled_of_synchronize {tokens : List Token}
    (isLeft : synchronize tokens ≠ [] ∨ companion.EndsAlike) :
    (tokens ≠ [] ∨ companion.EndsAlike) ∧
      (synchronize tokens ≠ [] ∨ companion.behind = [] ∨
        (tokens.map (·.kind)).getLast? = some .semicolon) := by
  refine ⟨isLeft.imp_left ?_, isLeft.imp_right fun endsAlike => .inl endsAlike.1⟩
  rintro isLeft rfl
  exact isLeft rfl

/-- A declaration that is dropped is settled only if the search for the next one is. -/
theorem parallel_recovering (depth : Nat) {rule : Rule Stmt}
    (parallel : Parallel companion follow companion.pairing.OnStmt rule rule) :
    Parallel companion False (Option.Rel companion.pairing.OnStmt) (recovering depth rule)
      (recovering depth rule) := by
  intro inFunction tokens others extend
  obtain ⟨suffix, counterpart, replies⟩ := @parallel inFunction tokens others extend
  unfold recovering
  dsimp only
  generalize rule ⟨companion.endLine, inFunction⟩ tokens = reply at *
  generalize rule ⟨companion.otherLine, inFunction⟩ others = other at *
  obtain ⟨errors, rest, result⟩ := reply
  obtain ⟨otherErrors, otherRest, otherResult⟩ := other
  have skipped : synchronize rest <:+ tokens :=
    ((synchronize_suffix rest).trans (List.tail_suffix rest)).trans suffix
  have dropped {errors : List SyntaxError} {found : Option Stmt}
      (isDropped :
        (⟨errors, synchronize rest, .ok none⟩ : Reply (Option Stmt)).result = .ok found) :
      ∃ other, Option.Rel companion.pairing.OnStmt found other := by
    cases isDropped
    exact ⟨none, .none⟩
  cases result with
  | ok statement =>
    refine ⟨suffix, ?_, fun settled => ?_⟩
    · rintro _ ⟨⟩
      obtain ⟨found, isGood⟩ := counterpart statement rfl
      exact ⟨some found, .some isGood⟩
    · obtain ⟨sameErrors, sameRest, sameResult⟩ := replies (settled.weak.imp_right .inl)
      cases sameResult with
      | ok isGood => exact ⟨sameErrors, sameRest, .ok (.some isGood)⟩
  | error stop =>
    cases stop with
    | syntaxError =>
      refine ⟨skipped, fun _ => dropped, fun settled => ?_⟩
      obtain ⟨nonempty, isSearched⟩ := settled_of_synchronize settled.weak
      obtain ⟨sameErrors, sameRest, sameResult⟩ := replies (nonempty.imp_right .inl)
      cases sameResult
      exact ⟨sameErrors, extends_synchronize sameRest nonempty isSearched, .ok .none⟩
    | tooDeep =>
      have reports (nonempty : rest ≠ [] ∨ companion.EndsAlike) :
          otherResult = .error .tooDeep ∧ companion.Extends rest otherRest ∧
            List.Forall₂ companion.pairing.OnError errors otherErrors ∧
            List.Forall₂ companion.pairing.OnError
              (errors ++ [.atNext .tooMuchNesting rest companion.endLine])
              (otherErrors ++ [.atNext .tooMuchNesting otherRest companion.otherLine]) := by
        obtain ⟨sameErrors, sameRest, sameResult⟩ := replies (nonempty.imp_right .inl)
        cases sameResult
        have sameNesting := Companion.onError_atNext sameRest nonempty .tooMuchNesting
        exact ⟨rfl, sameRest, sameErrors, List.rel_append sameErrors (.cons sameNesting .nil)⟩
      by_cases noReport : depth < reportDepth
      · simp only [noReport, if_true]
        refine ⟨suffix, nofun, fun settled => ?_⟩
        obtain ⟨rfl, sameRest, sameErrors, -⟩ := reports settled.weak
        exact ⟨sameErrors, sameRest, .error _⟩
      by_cases tooLittle : depth < recoveryDepth
      · simp only [noReport, tooLittle, if_true, if_false]
        refine ⟨suffix, nofun, fun settled => ?_⟩
        obtain ⟨rfl, sameRest, -, sameReports⟩ := reports settled.weak
        exact ⟨sameReports, sameRest, .error _⟩
      · simp only [noReport, tooLittle, if_false]
        refine ⟨skipped, fun _ => dropped, fun settled => ?_⟩
        obtain ⟨nonempty, isSearched⟩ := settled_of_synchronize settled.weak
        obtain ⟨rfl, sameRest, -, sameReports⟩ := reports nonempty
        exact ⟨sameReports, extends_synchronize sameRest nonempty isSearched, .ok .none⟩

section Blocks

variable {more : Rule Bool} {inner : Rule (Option Stmt)}

/-- Whether there is a further declaration is the same, unless nothing is left in front of what
follows. -/
theorem parallel_hasNext : Parallel companion False Eq hasNext hasNext := by
  refine Parallel.next.bind fun found other tokens => .pure ?_
  cases tokens <;> rfl

/-- Whether the block goes on is the same, unless nothing is left in front of what follows. -/
theorem parallel_inBlock : Parallel companion False Eq inBlock inBlock :=
  parallel_hasNext.bind fun _ _ sameNext => (Parallel.nextIs _).bind fun _ _ sameBrace =>
    .pure (by rw [sameNext, sameBrace])

/-- Declarations one after the other read alike if each of them does. -/
theorem parallel_declarations (looksAhead : LooksAhead more) (advances : Advances inner)
    (parallelMore : Parallel companion False Eq more more)
    (parallel : Parallel companion False (Option.Rel companion.pairing.OnStmt) inner inner) :
    Parallel companion False (List.Forall₂ companion.pairing.OnStmt) (declarations more inner)
      (declarations more inner) := by
  rw [declarations_eq]
  refine (Parallel.repeated (steady_declarationStep looksAhead advances)
    (fun found other all => ?_) .nil).bind fun found other all => .pure (List.rel_reverse all)
  refine parallelMore.bind fun answer _ same => ?_
  subst same
  refine .ite (parallel.bind fun statement otherStatement statements => ?_) (.pure .none)
  cases statements with
  | none => exact .pure (.some all)
  | some statements => exact .pure (.some (.cons statements all))

/-- A block reads alike whatever follows its brace. -/
theorem parallel_block (advances : Advances inner)
    (parallel : Parallel companion False (Option.Rel companion.pairing.OnStmt) inner inner) :
    Parallel companion follow (List.Forall₂ companion.pairing.OnStmt) (block inner)
      (block inner) :=
  parallel_closed (parallel_declarations inBlock_looksAhead advances parallel_inBlock parallel)
    fun _ _ all => all

/-- A function reads alike whatever follows its body. -/
theorem parallel_function (orderly : Orderly inner) (advances : Advances inner)
    (parallel : Parallel companion False (Option.Rel companion.pairing.OnStmt) inner inner) :
    Parallel companion follow companion.pairing.OnStmt (function inner) (function inner) := by
  refine (Parallel.expect _ _).bind fun name otherName names =>
    (Parallel.expect _ _).bind fun _ _ _ => ?_
  have ends (parameters : List Token) : Takes (do
      let _ ← expect .rightParen .parenAfterParameters
      let _ ← expect .leftBrace .braceBeforeBody
      return Stmt.function name parameters (← withinFunction (block inner))) :=
    takes_bind_left (takes_expect _ _) fun _ => (Orderly.expect _ _).bind fun _ =>
      (refined_block advances advances orderly.refined).orderly.withinFunction.bind fun _ => .pure _
  have parallelEnds (parameters others : List Token)
      (all : List.Forall₂ companion.pairing.Pairs parameters others) :
      Parallel companion follow companion.pairing.OnStmt
        (do
          let _ ← expect .rightParen .parenAfterParameters
          let _ ← expect .leftBrace .braceBeforeBody
          return Stmt.function name parameters (← withinFunction (block inner)))
        (do
          let _ ← expect .rightParen .parenAfterParameters
          let _ ← expect .leftBrace .braceBeforeBody
          return Stmt.function otherName others (← withinFunction (block inner))) :=
    (Parallel.expect _ _).bind fun _ _ _ => (Parallel.expect _ _).bind fun _ _ _ =>
      (parallel_block advances parallel).withinFunction.bind fun _ _ bodies =>
        .pure (.function names all bodies)
  have orderlyParameters : Orderly
      (listed .tooManyParameters (expect .identifier .parameterName)) :=
    (refined_listed (Orderly.expect _ _).refined).orderly
  refine (Parallel.nextIs _).bindTakes (fun closes => ?_) fun closes _ same => ?_
  · cases closes with
    | true => exact takes_bind_right (.pure []) ends
    | false => exact takes_bind_right orderlyParameters ends
  · subst same
    exact .ite ((Parallel.pure .nil).bind parallelEnds)
      ((parallel_listed (.expect _ _) (Parallel.expect _ _)).bindTakes ends parallelEnds)

end Blocks

/-- A declaration reads alike before it recovers, if no `else` follows. -/
theorem parallel_declarationBody {depth : Nat}
    (parallelBody : Parallel companion (Stops [.keyElse] companion.behind)
      companion.pairing.OnStmt (statement depth) (statement depth))
    (parallelDeclaration : Parallel companion False (Option.Rel companion.pairing.OnStmt)
      (declaration depth) (declaration depth)) :
    Parallel companion (Stops [.keyElse] companion.behind) companion.pairing.OnStmt
      (declarationBody (statement depth) (declaration depth) (expression depth))
      (declarationBody (statement depth) (declaration depth) (expression depth)) := by
  refine .acceptTakes (wellBehaved depth).takes fun keyword other keywords => ?_
  cases keywords with
  | none => exact parallelBody
  | some keywords =>
    dsimp only
    unfold keywordDeclaration
    rw [Pairing.kind_eq keywords]
    exact .ite (parallel_function (orderly_declaration depth) (advances_declaration depth)
        parallelDeclaration)
      (parallel_varDeclaration (orderly_expression depth) (parallel_expression companion depth))

/-- Statements stand in parallel where no `else` stands behind, declarations where something that
settles them is left. -/
theorem parallel_statement_declaration (companion : Companion) (depth : Nat) :
    Parallel companion (Stops [.keyElse] companion.behind) companion.pairing.OnStmt
        (statement depth) (statement depth) ∧
      Parallel companion False (Option.Rel companion.pairing.OnStmt) (declaration depth)
        (declaration depth) := by
  induction depth with
  | zero => exact ⟨.tooDeep, .tooDeep⟩
  | succ depth inductionHypothesis =>
    obtain ⟨parallelBody, parallelDeclaration⟩ := inductionHypothesis
    have parallel := parallel_expression companion depth
    have orderly := orderly_expression depth
    have orderlyBody := orderly_statement depth
    have advances := advances_declaration depth
    rw [statement_succ, declaration_succ]
    constructor
    · refine .acceptTakes (takes_expressionStatement orderly) fun keyword other keywords => ?_
      cases keywords with
      | none => exact parallel_expressionStatement parallel
      | some keywords =>
        dsimp only
        unfold keywordStatement
        rw [Pairing.kind_eq keywords]
        split
        · exact parallel_forStatement orderly orderlyBody parallel parallelBody
        · exact parallel_ifStatement orderlyBody parallel parallelBody
        · exact parallel_printStatement parallel
        · exact parallel_returnStatement orderly parallel keywords
        · exact parallel_whileStatement orderlyBody parallel parallelBody
        · exact (parallel_block advances parallelDeclaration).map fun _ _ => .block
    · exact parallel_recovering depth (parallel_declarationBody parallelBody parallelDeclaration)

end Statements

end LoxLang.Grammar
