import LoxLang.Proofs.Grammar.Joining

/-!
# Where reading goes on

A declaration that is stopped is dropped, and a search for the next statement begins at the token
where it was stopped. The search skips that token, whatever it is, and then no token that begins a
statement. So the next declaration is read from the first such token behind that one, unless the
search has come behind a semicolon before.
-/

namespace LoxLang.Grammar

open Rule

/-- The search for the next statement skips tokens from the front and leaves the rest. -/
structure Skips (tokens skipped rest : List Token) : Prop where
  splits : tokens = skipped ++ rest
  takes : tokens ≠ [] → skipped ≠ []
  /-- Behind the first token none is skipped that begins a statement. -/
  noStart : ∀ token ∈ skipped.tail, token.kind ∉ statementStarts
  noSemicolon : ∀ token ∈ skipped.dropLast, token.kind ≠ .semicolon
  /-- The search ends behind a semicolon, in front of a statement, or where no token is left. -/
  ends : (skipped.map (·.kind)).getLast? = some .semicolon ∨
    (∃ token ∈ rest.head?, token.kind ∈ statementStarts) ∨ rest = []

/-- Where the search begins at no statement, it does not go beyond the beginning of one. -/
theorem Skips.noStart_of_stops {tokens skipped rest : List Token}
    (skips : Skips tokens skipped rest) (stops : Stops statementStarts tokens) :
    ∀ token ∈ skipped, token.kind ∉ statementStarts := by
  have noStart := skips.noStart
  cases skipped with
  | nil => exact List.forall_mem_nil _
  | cons first skipped =>
    rw [skips.splits] at stops
    exact List.forall_mem_cons.mpr ⟨stops_cons.mp stops, noStart⟩

/-- Behind a token the search skips what neither begins a statement nor follows a semicolon. -/
private theorem skips_statementBoundary (first : Token) (tokens : List Token) :
    ∃ skipped,
      Skips (first :: tokens) (first :: skipped) (statementBoundary first.kind tokens) := by
  have takes {first : Token} {tokens skipped : List Token} :
      first :: tokens ≠ [] → first :: skipped ≠ [] := fun _ => List.cons_ne_nil first skipped
  induction tokens generalizing first with
  | nil => exact ⟨[], rfl, takes, List.forall_mem_nil _, List.forall_mem_nil _, .inr (.inr rfl)⟩
  | cons token tokens inductionHypothesis =>
    unfold statementBoundary
    split
    next ends =>
      refine ⟨[], rfl, takes, List.forall_mem_nil _, List.forall_mem_nil _, ?_⟩
      rcases ends with isSemicolon | begins
      · exact .inl (congrArg some isSemicolon)
      · exact .inr (.inl ⟨token, rfl, begins⟩)
    next goesOn =>
      obtain ⟨noSemicolon, noStart⟩ := not_or.mp goesOn
      obtain ⟨skipped, further⟩ := inductionHypothesis token
      refine ⟨token :: skipped, congrArg (first :: ·) further.splits, takes, ?_, ?_, ?_⟩
      · exact List.forall_mem_cons.mpr ⟨noStart, further.noStart⟩
      · exact List.forall_mem_cons.mpr ⟨noSemicolon, further.noSemicolon⟩
      · simpa using further.ends

/-- The search for the next statement skips some tokens and leaves the others. -/
theorem skips_synchronize (tokens : List Token) :
    ∃ skipped, Skips tokens skipped (synchronize tokens) := by
  cases tokens with
  | nil => exact ⟨[], rfl, id, List.forall_mem_nil _, List.forall_mem_nil _, .inr (.inr rfl)⟩
  | cons token tokens =>
    obtain ⟨skipped, skips⟩ := skips_statementBoundary token tokens
    exact ⟨token :: skipped, skips⟩

/-- The problem keeps a rule from going on. -/
def Problem.stops : Problem → Bool
  | expected _ | tooMuchNesting => true
  | _ => false

/-- The last report of a declaration that is dropped is at the token where it was stopped, and the
search for the next statement begins there. -/
theorem stopped_of_dropped {depth : Nat} {rule : Rule Stmt} (orderly : Orderly rule)
    {surroundings : Surroundings} {tokens : List Token}
    (dropped : (recovering depth rule surroundings tokens).result = .ok none) :
    ∃ (taken stopped : List Token) (problem : Problem), tokens = taken ++ stopped ∧
      problem.stops = true ∧
      (recovering depth rule surroundings tokens).errors.getLast? =
        some (.atNext problem stopped surroundings.endLine) ∧
      (recovering depth rule surroundings tokens).rest = synchronize stopped := by
  obtain ⟨taken, isSuffix⟩ := orderly.suffix surroundings tokens
  have stopsThere := orderly.stopsThere surroundings tokens
  have recovers := recovery depth rule surroundings tokens
  generalize recovering depth rule surroundings tokens = reply at recovers dropped ⊢
  cases recovers with
  | kept => cases dropped
  | dropped stopped =>
    obtain ⟨missing, isLast⟩ := stopsThere stopped
    exact ⟨taken, _, .expected missing, isSuffix.symm, rfl, isLast, rfl⟩
  | tooDeep =>
    exact ⟨taken, _, .tooMuchNesting, isSuffix.symm, rfl, List.getLast?_concat, rfl⟩
  | passedOn => cases dropped

/-- A step over a declaration that is dropped keeps what was found before. -/
private theorem declarationStep_of_dropped {more : Rule Bool} (looksAhead : LooksAhead more)
    {declaration : Rule (Option Stmt)} {surroundings : Surroundings} {tokens : List Token}
    (isMore : (more surroundings tokens).result = .ok true)
    (dropped : (declaration surroundings tokens).result = .ok none) (found : List Stmt) :
    declarationStep more declaration found surroundings tokens =
      ⟨(declaration surroundings tokens).errors, (declaration surroundings tokens).rest,
        .ok (some found)⟩ := by
  obtain ⟨answer, looks, -⟩ := looksAhead surroundings tokens
  rw [looks] at isMore
  obtain rfl := Except.ok.inj isMore
  unfold declarationStep
  rw [bind_eq, looks]
  simp only [if_true, after_nil]
  rw [bind_eq, dropped]
  simp [Reply.after, pure, Rule.pure]

/-- Behind a declaration that is dropped the next one is read from where the search ended. -/
theorem declarations_of_dropped {more : Rule Bool} (looksAhead : LooksAhead more) {depth : Nat}
    {surroundings : Surroundings} {tokens : List Token}
    (isMore : (more surroundings tokens).result = .ok true)
    (dropped : (declaration depth surroundings tokens).result = .ok none) :
    declarations more (declaration depth) surroundings tokens =
      (declarations more (declaration depth) surroundings
        (declaration depth surroundings tokens).rest).after
        (declaration depth surroundings tokens).errors := by
  have steady := steady_declarations looksAhead depth
  have further : repeated [] (declarationStep more (declaration depth)) surroundings tokens =
      (repeated [] (declarationStep more (declaration depth)) surroundings
        (declaration depth surroundings tokens).rest).after
        (declaration depth surroundings tokens).errors := by
    rw [repeated_eq steady, bind_eq, declarationStep_of_dropped looksAhead isMore dropped,
      ← repeated_eq steady]
  rw [declarations_eq, bind_eq, bind_eq, further]
  generalize repeated [] (declarationStep more (declaration depth)) surroundings _ = reply
  obtain ⟨errors, rest, result⟩ := reply
  cases result <;> simp [Reply.after]

/-- A declaration that is dropped has been stopped at the token of its last report. From there the
search for the next statement skips tokens: the first one whatever it is, and no other that begins a
statement; so none at all that begins a statement, if the first is none. In a program and in a block
the next declaration is read from where the search ends. -/
theorem next_declaration_of_dropped {depth : Nat} {surroundings : Surroundings}
    {tokens : List Token}
    (dropped : (declaration (depth + 1) surroundings tokens).result = .ok none) :
    let reply := declaration (depth + 1) surroundings tokens
    (∃ (taken stopped skipped : List Token) (problem : Problem), tokens = taken ++ stopped ∧
      problem.stops = true ∧
      reply.errors.getLast? = some (.atNext problem stopped surroundings.endLine) ∧
      Skips stopped skipped reply.rest ∧
      (Stops statementStarts stopped → ∀ token ∈ skipped, token.kind ∉ statementStarts)) ∧
    ∀ more ∈ [hasNext, inBlock], (more surroundings tokens).result = .ok true →
      declarations more (declaration (depth + 1)) surroundings tokens =
        (declarations more (declaration (depth + 1)) surroundings reply.rest).after
          reply.errors := by
  intro reply
  constructor
  · obtain ⟨taken, stopped, problem, splits, stops, isLast, isRest⟩ :=
      stopped_of_dropped (orderly_declarationBody depth) dropped
    obtain ⟨skipped, skips⟩ := skips_synchronize stopped
    rw [← isRest] at skips
    exact ⟨taken, stopped, skipped, problem, splits, stops, isLast, skips,
      skips.noStart_of_stops⟩
  · intro more isMore
    simp only [List.mem_cons, List.not_mem_nil, or_false] at isMore
    rcases isMore with rfl | rfl
    · exact fun isMore => declarations_of_dropped hasNext_looksAhead isMore dropped
    · exact fun isMore => declarations_of_dropped inBlock_looksAhead isMore dropped

/-- Two names without an operator between them: the second one is skipped, and the statement behind
it is read. -/
theorem next_declaration_of_dropped_name :
    let name : Token := ⟨.identifier, "a", .nil, 1⟩
    let print : Token := ⟨.keyPrint, "print", .nil, 1⟩
    let semicolon : Token := ⟨.semicolon, ";", .nil, 1⟩
    let tokens := [name, name, print, name, semicolon]
    let errors := [SyntaxError.atToken (.expected .semicolonAfterExpression) name]
    (declaration 4 ⟨1, false⟩ tokens).result = .ok none ∧
      (∃ (taken stopped skipped : List Token) (problem : Problem), tokens = taken ++ stopped ∧
        problem.stops = true ∧ errors.getLast? = some (.atNext problem stopped 1) ∧
        Skips stopped skipped [print, name, semicolon] ∧
        (Stops statementStarts stopped → ∀ token ∈ skipped, token.kind ∉ statementStarts)) ∧
      declarations hasNext (declaration 4) ⟨1, false⟩ tokens =
        (declarations hasNext (declaration 4) ⟨1, false⟩ [print, name, semicolon]).after
          errors := by
  intro name print semicolon tokens errors
  have isReply : declaration 4 ⟨1, false⟩ tokens =
      ⟨errors, [print, name, semicolon], .ok none⟩ := by cbv
  have dropped : (declaration 4 ⟨1, false⟩ tokens).result = .ok none :=
    congrArg (·.result) isReply
  have resumes := next_declaration_of_dropped dropped
  dsimp only at resumes
  rw [isReply] at resumes
  exact ⟨dropped, resumes.1, resumes.2 hasNext List.mem_cons_self rfl⟩

/-- A keyword at which the operand of an operator is missing is skipped, and with it the statement
that it begins: of `a + print a;` nothing is read, where `print a;` alone is a statement. -/
theorem start_skipped :
    let plus : Token := ⟨.plus, "+", .nil, 1⟩
    let print : Token := ⟨.keyPrint, "print", .nil, 1⟩
    let name : Token := ⟨.identifier, "a", .nil, 1⟩
    let semicolon : Token := ⟨.semicolon, ";", .nil, 1⟩
    parse 4 [name, plus, print, name, semicolon] 1 =
        ⟨[], [.atToken (.expected .expression) print]⟩ ∧
      parse 4 [print, name, semicolon] 1 = ⟨[.print (.reference name)], []⟩ ∧
      ¬ ∀ (depth : Nat) (surroundings : Surroundings) (taken stopped skipped rest : List Token)
        (missing : Expected), taken ≠ [] →
        declaration (depth + 1) surroundings (taken ++ stopped) =
          ⟨[.atNext (.expected missing) stopped surroundings.endLine], rest, .ok none⟩ →
        stopped = skipped ++ rest → ∀ token ∈ skipped, token.kind ∉ statementStarts := by
  intro plus print name semicolon
  have isReply : declaration 4 ⟨1, false⟩ [name, plus, print, name, semicolon] =
      ⟨[.atNext (.expected .expression) [print, name, semicolon] 1], [], .ok none⟩ := by cbv
  refine ⟨by cbv, by cbv, fun keeps => ?_⟩
  exact keeps 3 ⟨1, false⟩ [name, plus] [print, name, semicolon] [print, name, semicolon] []
    .expression (List.cons_ne_nil _ _) isReply rfl print List.mem_cons_self (by decide)

end LoxLang.Grammar
