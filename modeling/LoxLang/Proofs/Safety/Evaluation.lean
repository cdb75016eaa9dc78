import LoxLang.Proofs.Safety.Site

/-!
# Evaluation is safe

A pool of sites bounds a state if no value that is bound or was printed has a site outside of it.
Whatever a task with sites in the pool does, limits reached or not, leaves the state bounded, gives
values that are bounded, and halts at a site of the pool or at a limit. Function bodies come into
the store with their declarations and stay there, which is why the pool has to bound the store and
not the tree alone.
-/

namespace LoxLang.BigStep

variable {limited : Bool} {pool : List Site}

/-- No value of a state has a site outside of the pool. -/
structure State.Within (pool : List Site) (state : State) : Prop where
  bound : ∀ scope name value, (state.store.bindings scope).get? name = some value →
    value.sites ⊆ pool
  printed : ∃ values : List Value, state.printed = values.map Value.display ∧
    ∀ value ∈ values, value.sites ⊆ pool

namespace State.Within

variable {state : State}

/-- A state stays within the pool if a value is bound whose sites are in it. -/
theorem define (isWithin : state.Within pool) {value : Value} (valueWithin : value.sites ⊆ pool)
    (scope : ScopeId) (name : String) : (state.define scope name value).Within pool where
  bound := by
    intro other otherName found isFound
    rw [State.define, Store.bindings_define] at isFound
    split at isFound
    next =>
      rw [Bindings.get?_set] at isFound
      split at isFound
      next =>
        obtain rfl := Option.some.inj isFound
        exact valueWithin
      next => exact isWithin.bound other otherName found isFound
    next => exact isWithin.bound other otherName found isFound
  printed := isWithin.printed

/-- A state stays within the pool if a scope is opened. -/
theorem inside (isWithin : state.Within pool) (outer : ScopeId) :
    (state.inside outer).Within pool where
  bound := by
    intro scope name value isFound
    rw [State.inside, Store.bindings_push] at isFound
    exact isWithin.bound scope name value isFound
  printed := isWithin.printed

/-- A state stays within the pool if parameters are bound to arguments whose sites are in it. -/
theorem bindParameters (isWithin : state.Within pool) {arguments : List Value}
    (argumentsWithin : arguments.flatMap Value.sites ⊆ pool) (scope : ScopeId)
    (parameters : List Token) : (state.bound scope parameters arguments).Within pool := by
  induction parameters generalizing state arguments with
  | nil => exact isWithin
  | cons parameter parameters inductionHypothesis =>
    cases arguments with
    | nil => exact isWithin
    | cons argument arguments =>
      rw [List.flatMap_cons, List.append_subset] at argumentsWithin
      obtain ⟨argumentWithin, furtherWithin⟩ := argumentsWithin
      exact inductionHypothesis (isWithin.define argumentWithin scope parameter.lexeme)
        furtherWithin

/-- A state stays within the pool if a value is printed. -/
theorem print (isWithin : state.Within pool) {value : Value} (valueWithin : value.sites ⊆ pool) :
    (state.print value.display).Within pool where
  bound := isWithin.bound
  printed := by
    obtain ⟨values, isPrinted, valuesWithin⟩ := isWithin.printed
    refine ⟨values ++ [value], by simp [State.print, isPrinted], fun other member => ?_⟩
    rcases List.mem_append.mp member with earlier | last
    · exact valuesWithin other earlier
    · obtain rfl := List.mem_singleton.mp last
      exact valueWithin

/-- What a bound name is read as. -/
theorem binds (isWithin : state.Within pool) {scope holder : ScopeId} {name : String}
    {value : Value} (binds : Binds state.store scope name holder value) : value.sites ⊆ pool := by
  obtain ⟨_, _, _, isFound, _⟩ := binds
  exact isWithin.bound holder name value isFound

end State.Within

/-- The sites that a task can reach by itself. -/
def Task.sites : Task → List Site
  | .evaluate _ expr => expr.sites
  | .evaluateAll _ exprs => Expr.allSites exprs
  | .call paren callee arguments => .paren paren :: (callee.sites ++ arguments.flatMap Value.sites)
  | .execute _ stmt => stmt.sites
  | .executeAll _ stmts => Stmt.allSites stmts

/-- The sites of what the end of a statement gives. -/
def completionSites : Completion → List Site
  | .normal => []
  | .returned value => value.sites

/-- The sites of the result of a task. -/
def Task.resultSites : (task : Task) → task.Result → List Site
  | .evaluate _ _, value => value.sites
  | .evaluateAll _ _, values => values.flatMap Value.sites
  | .call _ _ _, value => value.sites
  | .execute _ _, completion => completionSites completion
  | .executeAll _ _, completion => completionSites completion

/-- The halt is a limit that nothing reports, or belongs to a site of the pool. -/
def Accounted (pool : List Site) (halt : Halt) : Prop :=
  halt = .overflow ∨ halt = .endless ∨ ∃ site ∈ pool, site.Fits halt

/-- The pool accounts for halts, and results are as they should be. -/
def Ending.Safe {α : Type} (pool : List Site) (good : α → Prop) : Ending α → Prop
  | .ok result => good result
  | .error halt => Accounted pool halt

/-- A reason that fits a site of the pool is accounted for. -/
theorem Accounted.at {site : Site} {halt : Halt} (member : site ∈ pool) (fits : site.Fits halt) :
    Accounted pool halt :=
  .inr (.inr ⟨site, member, fits⟩)

/-- Arithmetic is done by operators of arithmetic only. -/
theorem Arithmetic.mem_arithmeticKinds {kind : TokenKind} {left right : Float} {value : Value}
    (arithmetic : Arithmetic kind left right value) : kind ∈ Site.arithmeticKinds := by
  cases arithmetic <;> decide

/-- Arithmetic gives values without sites. -/
theorem Arithmetic.sites_eq {kind : TokenKind} {left right : Float} {value : Value}
    (arithmetic : Arithmetic kind left right value) : value.sites = [] := by
  cases arithmetic <;> rfl

/-- What a unary operator gives has no sites, and its faults are at the operator. -/
theorem Unary.within {operator : Token} {operand : Value} {ending : Ending Value}
    (operates : Unary operator operand ending) (member : .unary operator ∈ pool) :
    ending.Safe pool (·.sites ⊆ pool) := by
  cases operates with
  | holds | fails | negative => exact List.nil_subset pool
  | noNumber isMinus => exact .at member (.operandNotNumber isMinus)
  | unknown noBang noMinus => exact .at member (.unknownUnary noBang noMinus)

/-- What a binary operator gives has no sites, and its faults are at the operator. -/
theorem Binary.within {operator : Token} {left right : Value} {ending : Ending Value}
    (operates : Binary operator left right ending) (member : .binary operator ∈ pool) :
    ending.Safe pool (·.sites ⊆ pool) := by
  cases operates with
  | arithmetic arithmetic =>
    change Value.sites _ ⊆ pool
    rw [arithmetic.sites_eq]
    exact List.nil_subset pool
  | noNumbers isArithmetic =>
    exact .at member (.operandsNotNumbers isArithmetic.mem_arithmeticKinds)
  | notAlike isPlus => exact .at member (.operandsNotAlike isPlus)
  | unknown isOther => exact .at member (.unknownBinary isOther)
  | _ => exact List.nil_subset pool

/-- A native function gives what it is given, what it has captured, or a plain value, and it halts
with nothing but what it raises. -/
theorem Answers.within {function : NativeFunction} {closure : Option ScopeId}
    {arguments : List Value} {state : State} {ending : Ending Value}
    (answers : Answers function closure arguments state ending) (member : .native function ∈ pool)
    (argumentsWithin : arguments.flatMap Value.sites ⊆ pool) (isWithin : state.Within pool) :
    ending.Safe pool (·.sites ⊆ pool) := by
  cases answers with
  | @literal value =>
    change (Value.ofLiteral value).sites ⊆ pool
    rw [Value.sites_ofLiteral]
    exact List.nil_subset pool
  | argument _ stands =>
    intro site isSite
    exact argumentsWithin (List.mem_flatMap.mpr ⟨_, List.mem_of_getElem? stands, isSite⟩)
  | captured _ _ binds => exact isWithin.binds binds
  | noArgument | notCaptured => exact List.nil_subset pool
  | raises gives => exact .at member (.raised gives)

/-- The token at which an operator reports a used up stack is its own. -/
theorem Reports.accounted {expr : Expr} {token : Token} (reports : Reports expr token)
    (sitesWithin : expr.sites ⊆ pool) : Accounted pool (.failed ⟨.stackOverflow, token⟩) := by
  cases reports with
  | logical => exact .at (sitesWithin (List.mem_cons_self ..)) (.logicalOverflow _)
  | unary => exact .at (sitesWithin (List.mem_cons_self ..)) (.unaryOverflow _)
  | binary => exact .at (sitesWithin (List.mem_cons_self ..)) (.binaryOverflow _)

/-- Every task keeps the state bounded, and its ending is. The induction carries the pool through
the bodies of functions: they are statements that were bound when the call began. -/
theorem Ends.within {task : Task} {before after : State} {ending : Ending task.Result}
    (ends : Ends limited task before ending after) (sitesWithin : task.sites ⊆ pool)
    (isWithin : before.Within pool) :
    after.Within pool ∧ ending.Safe pool (task.resultSites · ⊆ pool) := by
  induction ends with
  | @literal _ literal =>
    refine ⟨isWithin, ?_⟩
    change (Value.ofLiteral literal).sites ⊆ pool
    simp
  | grouping _ inner => exact inner sitesWithin isWithin
  | reference binds => exact ⟨isWithin, isWithin.binds binds⟩
  | undefined unbound =>
    exact ⟨isWithin, .at (sitesWithin (List.mem_cons_self ..)) (.undefinedVariable _)⟩
  | assign _ binds value =>
    obtain ⟨-, valueSites⟩ := List.cons_subset.mp sitesWithin
    obtain ⟨afterWithin, valueWithin⟩ := value valueSites isWithin
    exact ⟨afterWithin.define valueWithin _ _, valueWithin⟩
  | assignUndefined _ unbound value =>
    obtain ⟨member, valueSites⟩ := List.cons_subset.mp sitesWithin
    exact ⟨(value valueSites isWithin).1, .at member (.undefinedVariable _)⟩
  | assignFails _ value | unaryFails _ value =>
    exact value (List.cons_subset.mp sitesWithin).2 isWithin
  | decided _ _ left | logicalFails _ left | leftFails _ left | calleeFails _ left =>
    obtain ⟨-, partsSites⟩ := List.cons_subset.mp sitesWithin
    exact left (List.append_subset.mp partsSites).1 isWithin
  | undecided _ _ _ left right | rightFails _ _ left right | argumentsFail _ _ left right =>
    obtain ⟨-, partsSites⟩ := List.cons_subset.mp sitesWithin
    obtain ⟨leftSites, rightSites⟩ := List.append_subset.mp partsSites
    exact right rightSites (left leftSites isWithin).1
  | unary _ operates right =>
    obtain ⟨member, rightSites⟩ := List.cons_subset.mp sitesWithin
    exact ⟨(right rightSites isWithin).1, operates.within member⟩
  | binary _ _ operates left right =>
    obtain ⟨member, partsSites⟩ := List.cons_subset.mp sitesWithin
    obtain ⟨leftSites, rightSites⟩ := List.append_subset.mp partsSites
    exact ⟨(right rightSites (left leftSites isWithin).1).1, operates.within member⟩
  | call _ _ _ callee arguments calls =>
    obtain ⟨member, partsSites⟩ := List.cons_subset.mp sitesWithin
    obtain ⟨calleeSites, argumentsSites⟩ := List.append_subset.mp partsSites
    obtain ⟨betweenWithin, calleeWithin⟩ := callee calleeSites isWithin
    obtain ⟨calledWithin, argumentsWithin⟩ := arguments argumentsSites betweenWithin
    refine calls (List.cons_subset.mpr ⟨member, ?_⟩) calledWithin
    exact List.append_subset.mpr ⟨calleeWithin, argumentsWithin⟩
  | noExpression | noStatement =>
    exact ⟨isWithin, .at (sitesWithin (List.mem_cons_self ..)) (.unexpectedNode _ _)⟩
  | evaluateNone | executeNone | retNil => exact ⟨isWithin, List.nil_subset pool⟩
  | evaluateMore _ _ first further =>
    obtain ⟨firstSites, furtherSites⟩ := List.append_subset.mp sitesWithin
    obtain ⟨betweenWithin, firstWithin⟩ := first firstSites isWithin
    obtain ⟨afterWithin, furtherWithin⟩ := further furtherSites betweenWithin
    exact ⟨afterWithin, List.append_subset.mpr ⟨firstWithin, furtherWithin⟩⟩
  | firstFails _ first | executeReturns _ first | executeFails _ first =>
    exact first (List.append_subset.mp sitesWithin).1 isWithin
  | furtherFails _ _ first further | executeMore _ _ first further =>
    obtain ⟨firstSites, furtherSites⟩ := List.append_subset.mp sitesWithin
    exact further furtherSites (first firstSites isWithin).1
  | notCallable =>
    exact ⟨isWithin, .at (sitesWithin (List.mem_cons_self ..)) (.notCallable _)⟩
  | wrongCount wrong =>
    exact ⟨isWithin, .at (sitesWithin (List.mem_cons_self ..)) (.wrongCount _ wrong)⟩
  | returns _ _ body | bodyFails _ _ body =>
    obtain ⟨-, partsSites⟩ := List.cons_subset.mp sitesWithin
    obtain ⟨bodySites, argumentsWithin⟩ := List.append_subset.mp partsSites
    exact body bodySites ((isWithin.inside _).bindParameters argumentsWithin _ _)
  | returnsNothing _ _ body =>
    obtain ⟨-, partsSites⟩ := List.cons_subset.mp sitesWithin
    obtain ⟨bodySites, argumentsWithin⟩ := List.append_subset.mp partsSites
    have afterBody := body bodySites ((isWithin.inside _).bindParameters argumentsWithin _ _)
    exact ⟨afterBody.1, List.nil_subset pool⟩
  | clock => exact ⟨⟨isWithin.bound, isWithin.printed⟩, List.nil_subset pool⟩
  | native answers =>
    obtain ⟨-, partsSites⟩ := List.cons_subset.mp sitesWithin
    obtain ⟨calleeSites, argumentsWithin⟩ := List.append_subset.mp partsSites
    have member := calleeSites (List.mem_singleton.mpr rfl)
    exact ⟨isWithin, answers.within member argumentsWithin isWithin⟩
  | abstract =>
    obtain ⟨-, partsSites⟩ := List.cons_subset.mp sitesWithin
    have member : Site.abstract ∈ pool := partsSites (List.mem_cons_self ..)
    exact ⟨isWithin, .at member .notImplemented⟩
  | expression _ value => exact ⟨(value sitesWithin isWithin).1, List.nil_subset pool⟩
  | print _ value =>
    obtain ⟨afterWithin, valueWithin⟩ := value sitesWithin isWithin
    exact ⟨afterWithin.print valueWithin, List.nil_subset pool⟩
  | var _ value =>
    obtain ⟨afterWithin, valueWithin⟩ := value sitesWithin isWithin
    exact ⟨afterWithin.define valueWithin _ _, List.nil_subset pool⟩
  | varNil =>
    have nilWithin : Value.sites .nil ⊆ pool := List.nil_subset pool
    exact ⟨isWithin.define nilWithin _ _, List.nil_subset pool⟩
  | expressionFails _ value | printFails _ value | varFails _ value | ret _ value
  | retFails _ value => exact value sitesWithin isWithin
  | block _ body => exact body sitesWithin (isWithin.inside _)
  | conditionalFails _ condition =>
    obtain ⟨partsSites, -⟩ := List.append_subset.mp sitesWithin
    exact condition (List.append_subset.mp partsSites).1 isWithin
  | chosen _ _ _ condition consequent =>
    obtain ⟨partsSites, -⟩ := List.append_subset.mp sitesWithin
    obtain ⟨conditionSites, consequentSites⟩ := List.append_subset.mp partsSites
    exact consequent consequentSites (condition conditionSites isWithin).1
  | refused _ _ _ condition alternative =>
    obtain ⟨partsSites, alternativeSites⟩ := List.append_subset.mp sitesWithin
    obtain ⟨conditionSites, -⟩ := List.append_subset.mp partsSites
    exact alternative alternativeSites (condition conditionSites isWithin).1
  | skipped _ _ condition =>
    obtain ⟨partsSites, -⟩ := List.append_subset.mp sitesWithin
    obtain ⟨conditionSites, -⟩ := List.append_subset.mp partsSites
    exact ⟨(condition conditionSites isWithin).1, List.nil_subset pool⟩
  | loopFails _ condition => exact condition (List.append_subset.mp sitesWithin).1 isWithin
  | loopEnds _ _ condition =>
    obtain ⟨conditionSites, -⟩ := List.append_subset.mp sitesWithin
    exact ⟨(condition conditionSites isWithin).1, List.nil_subset pool⟩
  | loopBodyFails _ _ _ condition body | loopReturns _ _ _ condition body =>
    obtain ⟨conditionSites, bodySites⟩ := List.append_subset.mp sitesWithin
    exact body bodySites (condition conditionSites isWithin).1
  | loopTurns _ _ _ _ condition body further =>
    obtain ⟨conditionSites, bodySites⟩ := List.append_subset.mp sitesWithin
    exact further sitesWithin (body bodySites (condition conditionSites isWithin).1).1
  | @function scope name parameters body state =>
    have madeWithin : { state with callables := state.callables + 1 }.Within pool :=
      ⟨isWithin.bound, isWithin.printed⟩
    have functionWithin : Value.sites (.callable ⟨state.callables,
      .function ⟨name, parameters, body⟩ scope⟩) ⊆ pool := sitesWithin
    exact ⟨madeWithin.define functionWithin scope name.lexeme, List.nil_subset pool⟩
  | overflow => exact ⟨isWithin, .inl rfl⟩
  | endless => exact ⟨isWithin, .inr (.inl rfl)⟩
  | operatorReports reports _ overflows =>
    exact ⟨(overflows sitesWithin isWithin).1, reports.accounted sitesWithin⟩
  | callReports _ overflows =>
    have member := sitesWithin (List.mem_cons_self ..)
    exact ⟨(overflows sitesWithin isWithin).1, .at member (.callOverflow _)⟩

end LoxLang.BigStep
