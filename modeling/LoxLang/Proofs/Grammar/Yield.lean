import LoxLang.Proofs.Grammar.Nesting
import LoxLang.Proofs.Safety.Site

/-!
# What rules yield

Whatever a rule reads, and whatever errors it reports on the way, the trees that it yields are built
from the tokens that it was given, each at a place for its kind: the statements that are left of a
program with errors are built as those of a program without. No limit on nesting matters here. So no
tree that is read holds a node without a meaning.
-/

namespace LoxLang

/-- Every site of the expression is proper. -/
def Expr.Proper (expr : Expr) : Prop := ∀ site ∈ expr.sites, site.Proper

/-- Every site of the statement is proper. -/
def Stmt.Proper (stmt : Stmt) : Prop := ∀ site ∈ stmt.sites, site.Proper

/-- Sites in a list of expressions are proper if those of each expression are. -/
theorem Expr.proper_allSites {exprs : List Expr} (each : ∀ expr ∈ exprs, expr.Proper) :
    ∀ site ∈ Expr.allSites exprs, site.Proper := by
  intro site isIn
  obtain ⟨expr, isExpr, isSite⟩ := Expr.mem_allSites.mp isIn
  exact each expr isExpr site isSite

/-- Sites in an expression that may be absent are proper if those of the expression are. -/
theorem Expr.proper_optionalSites {option : Option Expr} (each : ∀ expr ∈ option, expr.Proper) :
    ∀ site ∈ Expr.optionalSites option, site.Proper := by
  cases option with
  | none => exact List.forall_mem_nil _
  | some expr => exact each expr rfl

/-- Sites in a statement that may be absent are proper if those of the statement are. -/
theorem Stmt.proper_optionalSites {option : Option Stmt} (each : ∀ stmt ∈ option, stmt.Proper) :
    ∀ site ∈ Stmt.optionalSites option, site.Proper := by
  cases option with
  | none => exact List.forall_mem_nil _
  | some stmt => exact each stmt rfl

/-- Sites in a list of statements are proper if those of each statement are. -/
theorem Stmt.proper_allSites {stmts : List Stmt} (each : ∀ stmt ∈ stmts, stmt.Proper) :
    ∀ site ∈ Stmt.allSites stmts, site.Proper := by
  intro site isIn
  obtain ⟨stmt, isStmt, isSite⟩ := Stmt.mem_allSites.mp isIn
  exact each stmt isStmt site isSite

/-! ## Trees that are built from tokens -/

section Built

variable (known : Token → Prop)

/-- The token is a known one, of one of the kinds. -/
structure Token.Serves (kinds : List TokenKind) (token : Token) : Prop where
  isKnown : known token
  isKind : token.kind ∈ kinds

/-- The value of a word, or of a known token. -/
inductive Literal.Built : Literal → Prop where
  | nil : Built .nil
  | bool (value : Bool) : Built (.bool value)
  | ofToken {token : Token} {value : Literal} (serves : token.Serves known [.number, .string])
      (isValue : token.literal = value) : Built value

/-- An expression that a rule can build from known tokens. -/
inductive Expr.Built : Expr → Prop where
  | literal {value : Literal} (isValue : value.Built known) : Built (.literal value)
  | reference {name : Token} (isName : name.Serves known [.identifier]) : Built (.reference name)
  | assign {name : Token} {value : Expr} (isName : name.Serves known [.identifier])
      (isValue : Built value) : Built (.assign name value)
  | binary {left right : Expr} {operator : Token} (isLeft : Built left)
      (isOperator : operator.Serves known BigStep.binaryKinds) (isRight : Built right) :
      Built (.binary left operator right)
  | logical {left right : Expr} {operator : Token} (isLeft : Built left)
      (isOperator : operator.Serves known [.keyOr, .keyAnd]) (isRight : Built right) :
      Built (.logical left operator right)
  | unary {operator : Token} {right : Expr} (isOperator : operator.Serves known [.bang, .minus])
      (isRight : Built right) : Built (.unary operator right)
  | grouping {inner : Expr} (isInner : Built inner) : Built (.grouping inner)
  | call {callee : Expr} {paren : Token} {arguments : List Expr} (isCallee : Built callee)
      (isParen : paren.Serves known [.rightParen])
      (areArguments : ∀ argument ∈ arguments, Built argument) :
      Built (.call callee paren arguments)

/-- A statement that a rule can build from known tokens. -/
inductive Stmt.Built : Stmt → Prop where
  | expression {value : Expr} (isValue : value.Built known) : Built (.expression value)
  | print {value : Expr} (isValue : value.Built known) : Built (.print value)
  | var {name : Token} {start : Option Expr} (isName : name.Serves known [.identifier])
      (isStart : ∀ value ∈ start, value.Built known) : Built (.var name start)
  | block {statements : List Stmt} (areBuilt : ∀ stmt ∈ statements, Built stmt) :
      Built (.block statements)
  | conditional {condition : Expr} {consequent : Stmt} {alternative : Option Stmt}
      (isCondition : condition.Built known) (isConsequent : Built consequent)
      (isAlternative : ∀ stmt ∈ alternative, Built stmt) :
      Built (.conditional condition consequent alternative)
  | loop {condition : Expr} {body : Stmt} (isCondition : condition.Built known)
      (isBody : Built body) : Built (.loop condition body)
  | function {name : Token} {parameters : List Token} {body : List Stmt}
      (isName : name.Serves known [.identifier])
      (areParameters : ∀ parameter ∈ parameters, parameter.Serves known [.identifier])
      (isBody : ∀ stmt ∈ body, Built stmt) : Built (.function name parameters body)
  | ret {keyword : Token} {value : Option Expr} (isKeyword : keyword.Serves known [.keyReturn])
      (isValue : ∀ expr ∈ value, expr.Built known) : Built (.ret keyword value)

end Built

variable {known : Token → Prop}

/-- An expression that is built from tokens of the right kinds holds no node without a meaning. -/
theorem Expr.Built.proper {expr : Expr} (built : expr.Built known) : expr.Proper := by
  induction built with
  | literal => exact List.forall_mem_nil _
  | reference => exact List.forall_mem_singleton.mpr trivial
  | assign _ _ value => exact List.forall_mem_cons.mpr ⟨trivial, value⟩
  | binary _ _ _ left right | logical _ _ _ left right =>
    exact List.forall_mem_cons.mpr ⟨trivial, List.forall_mem_append.mpr ⟨left, right⟩⟩
  | unary _ _ right => exact List.forall_mem_cons.mpr ⟨trivial, right⟩
  | grouping _ inner => exact inner
  | call _ _ _ callee each =>
    exact List.forall_mem_cons.mpr ⟨trivial,
      List.forall_mem_append.mpr ⟨callee, Expr.proper_allSites each⟩⟩

/-- A statement that is built from tokens of the right kinds holds no node without a meaning. -/
theorem Stmt.Built.proper {stmt : Stmt} (built : stmt.Built known) : stmt.Proper := by
  induction built with
  | expression isValue | print isValue => exact isValue.proper
  | var _ isStart => exact Expr.proper_optionalSites fun expr isIn => (isStart expr isIn).proper
  | block _ each => exact Stmt.proper_allSites each
  | conditional isCondition _ _ consequent each =>
    exact List.forall_mem_append.mpr
      ⟨List.forall_mem_append.mpr ⟨isCondition.proper, consequent⟩, Stmt.proper_optionalSites each⟩
  | loop isCondition _ body => exact List.forall_mem_append.mpr ⟨isCondition.proper, body⟩
  | function _ _ _ each => exact Stmt.proper_allSites each
  | ret _ isValue => exact Expr.proper_optionalSites fun expr isIn => (isValue expr isIn).proper

namespace Grammar

open Rule

variable {α β : Type}

/-- From known tokens the rule reads nothing but good phrases, and it leaves known tokens. -/
def Rule.Yields (known : Token → Prop) (rule : Rule α) (good : α → Prop) : Prop :=
  ∀ (surroundings : Surroundings) (tokens : List Token), (∀ token ∈ tokens, known token) →
    (∀ token ∈ (rule surroundings tokens).rest, known token) ∧
    ∀ value, (rule surroundings tokens).result = .ok value → good value

namespace Rule.Yields

/-- Known tokens are left where all are. -/
private theorem ofSame {rule : Rule α} {good : α → Prop}
    (leaves : ∀ surroundings tokens, (rule surroundings tokens).rest = tokens)
    (isGood : ∀ (surroundings : Surroundings) (tokens : List Token),
      (∀ token ∈ tokens, known token) → ∀ value, (rule surroundings tokens).result = .ok value →
        good value) : Yields known rule good :=
  fun surroundings tokens areKnown =>
    ⟨by rwa [leaves], isGood surroundings tokens areKnown⟩

/-- A rule that only gives a value yields that value. -/
protected theorem pure {good : α → Prop} {value : α} (isGood : good value) :
    Yields known (pure value : Rule α) good :=
  .ofSame (fun _ _ => rfl) fun _ _ _ _ isOk => Except.ok.inj isOk ▸ isGood

/-- A rule that fails yields nothing. -/
protected theorem fail (missing : Expected) (good : α → Prop) :
    Yields known (fail missing) good :=
  .ofSame (fun _ _ => rfl) fun _ _ _ _ isOk => nomatch isOk

/-- A rule that runs into the limit yields nothing. -/
protected theorem tooDeep (good : α → Prop) : Yields known tooDeep good :=
  .ofSame (fun _ _ => rfl) fun _ _ _ _ isOk => nomatch isOk

/-- Whatever kind the next token is of, the answer is neither good nor bad. -/
protected theorem nextIs (kind : TokenKind) : Yields known (nextIs kind) fun _ => True :=
  .ofSame (fun _ _ => rfl) fun _ _ _ _ _ => trivial

/-- A report at a token yields nothing of interest. -/
protected theorem reportAt (token : Token) (problem : Problem) :
    Yields known (reportAt token problem) fun _ => True :=
  .ofSame (fun _ _ => rfl) fun _ _ _ _ _ => trivial

/-- A report at the next token yields nothing of interest. -/
protected theorem reportNext (problem : Problem) :
    Yields known (reportNext problem) fun _ => True :=
  .ofSame (fun _ _ => rfl) fun _ _ _ _ _ => trivial

/-- Whether a function is around is neither good nor bad. -/
protected theorem inFunction : Yields known inFunction fun _ => True :=
  .ofSame (fun _ _ => rfl) fun _ _ _ _ _ => trivial

/-- The next token is a known one. -/
protected theorem next : Yields known next fun found => ∀ token ∈ found, known token := by
  refine .ofSame (fun _ _ => rfl) fun _ tokens areKnown _ isOk token isNext => ?_
  obtain rfl := Except.ok.inj isOk
  exact areKnown token (List.mem_of_mem_head? isNext)

/-- To skip a token leaves known tokens only. -/
protected theorem skip : Yields known skip fun _ => True := fun _ _ areKnown =>
  ⟨fun token isIn => areKnown token (List.mem_of_mem_tail isIn), fun _ _ => trivial⟩

/-- An accepted token is a known one of one of the kinds. -/
protected theorem accept (kinds : List TokenKind) :
    Yields known (accept kinds) fun found => ∀ token ∈ found, token.Serves known kinds := by
  intro _ tokens areKnown
  cases tokens with
  | nil => exact ⟨areKnown, fun _ isOk => Except.ok.inj isOk ▸ nofun⟩
  | cons token tokens =>
    obtain ⟨isKnown, restKnown⟩ := List.forall_mem_cons.mp areKnown
    unfold accept
    dsimp only
    split
    next isKind =>
      refine ⟨restKnown, fun _ isOk => ?_⟩
      obtain rfl := Except.ok.inj isOk
      rintro _ ⟨⟩
      exact ⟨isKnown, isKind⟩
    next => exact ⟨areKnown, fun _ isOk => Except.ok.inj isOk ▸ nofun⟩

/-- What the first rule yields may be used for what the second one yields. -/
protected theorem bind {first : Rule α} {second : α → Rule β} {goodFirst : α → Prop}
    {good : β → Prop} (yieldsFirst : Yields known first goodFirst)
    (yieldsSecond : ∀ value, goodFirst value → Yields known (second value) good) :
    Yields known (first >>= second) good := by
  intro surroundings tokens areKnown
  obtain ⟨restKnown, isFirst⟩ := yieldsFirst surroundings tokens areKnown
  rw [bind_eq]
  cases result : (first surroundings tokens).result with
  | error stop => exact ⟨restKnown, nofun⟩
  | ok between => exact yieldsSecond between (isFirst between result) surroundings _ restKnown

/-- What is read by the first rule does not matter. -/
protected theorem after {first : Rule α} {second : α → Rule β} {goodFirst : α → Prop}
    {good : β → Prop} (yieldsFirst : Yields known first goodFirst)
    (yields : ∀ value, Yields known (second value) good) : Yields known (first >>= second) good :=
  yieldsFirst.bind fun value _ => yields value

/-- What is done to the value of a rule is done to what it yields. -/
protected theorem map {rule : Rule α} {change : α → β} {goodFirst : α → Prop} {good : β → Prop}
    (yields : Yields known rule goodFirst)
    (changes : ∀ value, goodFirst value → good (change value)) :
    Yields known (change <$> rule) good :=
  yields.bind fun value isGood => .pure (changes value isGood)

/-- An expected token is a known one of the kind. -/
protected theorem expect (kind : TokenKind) (missing : Expected) :
    Yields known (expect kind missing) (Token.Serves known [kind]) := by
  refine (Yields.accept _).bind fun found serves => ?_
  cases found with
  | none => exact .fail missing _
  | some token => exact .pure (serves token rfl)

/-- A choice that does not depend on the tokens yields what both its branches yield. -/
protected theorem ite {condition : Prop} [Decidable condition] {rule other : Rule α}
    {good : α → Prop} (yields : Yields known rule good) (yieldsOther : Yields known other good) :
    Yields known (if condition then rule else other) good := by
  split
  · exact yields
  · exact yieldsOther

/-- A rule yields the same within a function. -/
protected theorem withinFunction {rule : Rule α} {good : α → Prop}
    (yields : Yields known rule good) : Yields known (withinFunction rule) good :=
  fun _ tokens => yields _ tokens

/-- A repetition yields a good value if it starts with one and each step leads from one to one. -/
protected theorem repeated {step : α → Rule (Option α)} {good : α → Prop}
    (steps : ∀ value, good value →
      Yields known (step value) fun found => ∀ further ∈ found, good further)
    {value : α} (isGood : good value) : Yields known (repeated value step) good := by
  intro surroundings tokens areKnown
  suffices general : ∀ (budget : List Token) (before : List SyntaxError) (value : α)
      (rest : List Token), good value → (∀ token ∈ rest, known token) →
        let reply := iterate step surroundings budget before value rest
        (∀ token ∈ reply.rest, known token) ∧ ∀ last, reply.result = .ok last → good last from
    general tokens [] value tokens isGood areKnown
  intro budget
  induction budget with
  | nil =>
    intro _ value rest isGood areKnown
    exact ⟨areKnown, fun last isOk => Except.ok.inj isOk ▸ isGood⟩
  | cons _ budget inductionHypothesis =>
    intro before value rest isGood areKnown
    obtain ⟨restKnown, isStep⟩ := steps value isGood surroundings rest areKnown
    unfold iterate
    dsimp only
    split
    next => exact ⟨restKnown, nofun⟩
    next => exact ⟨restKnown, fun last isOk => Except.ok.inj isOk ▸ isGood⟩
    next further result =>
      exact inductionHypothesis _ further _ (isStep (some further) result further rfl) restKnown

end Rule.Yields

/-- Looking ahead takes no token. -/
theorem LooksAhead.yields {more : Rule Bool} (looksAhead : LooksAhead more) :
    more.Yields known fun _ => True := by
  intro surroundings tokens areKnown
  obtain ⟨answer, same, -⟩ := looksAhead surroundings tokens
  rw [same]
  exact ⟨areKnown, fun _ _ => trivial⟩

/-! ## Expressions -/

section Expressions

variable {phrase : Rule Expr}

/-- A chain of operators yields what its operators make of its operands. -/
private theorem yields_chain {level : Level} {operand : Rule Expr}
    (combines : ∀ left operator right, left.Built known → operator.Serves known level.operators →
      right.Built known → (level.combine left operator right).Built known)
    (yields : operand.Yields known (Expr.Built known)) :
    (chain level operand).Yields known (Expr.Built known) := by
  refine yields.bind fun first isFirst => .repeated (fun left isLeft => ?_) isFirst
  refine (Yields.accept _).bind fun found serves => ?_
  cases found with
  | none => exact .pure nofun
  | some operator =>
    refine yields.bind fun right isRight => .pure ?_
    rintro _ ⟨⟩
    exact combines left operator right isLeft (serves operator rfl) isRight

/-- What an operator of some level makes of two expressions is built by one of the constructors. -/
private theorem combines_of_mem_levels : ∀ level ∈ levels, ∀ left operator right,
    left.Built known → operator.Serves known level.operators → right.Built known →
      (level.combine left operator right).Built known := by
  have binary {operators : List TokenKind} (isSubset : operators ⊆ BigStep.binaryKinds)
      (left : Expr) (operator : Token) (right : Expr) (isLeft : left.Built known)
      (serves : operator.Serves known operators) (isRight : right.Built known) :
      (Expr.binary left operator right).Built known :=
    .binary isLeft ⟨serves.isKnown, isSubset serves.isKind⟩ isRight
  have logical {operators : List TokenKind} (isSubset : operators ⊆ [.keyOr, .keyAnd])
      (left : Expr) (operator : Token) (right : Expr) (isLeft : left.Built known)
      (serves : operator.Serves known operators) (isRight : right.Built known) :
      (Expr.logical left operator right).Built known :=
    .logical isLeft ⟨serves.isKnown, isSubset serves.isKind⟩ isRight
  simp only [levels, List.forall_mem_cons]
  exact ⟨logical (by decide), logical (by decide), binary (by decide), binary (by decide),
    binary (by decide), binary (by decide), List.forall_mem_nil _⟩

/-- Levels of operators above each other yield expressions that are built from their operands. -/
private theorem yields_operations {operand : Rule Expr}
    (yields : operand.Yields known (Expr.Built known)) :
    (operations levels operand).Yields known (Expr.Built known) := by
  suffices general : ∀ chosen ⊆ levels,
      (operations chosen operand).Yields known (Expr.Built known) from
    general levels (List.Subset.refl levels)
  intro chosen areLevels
  induction chosen with
  | nil => exact yields
  | cons level chosen inductionHypothesis =>
    obtain ⟨isLevel, areLevels⟩ := List.cons_subset.mp areLevels
    exact yields_chain (combines_of_mem_levels level isLevel) (inductionHypothesis areLevels)

/-- A list yields what the rule for its items yields. -/
private theorem yields_listed {tooMany : Problem} {item : Rule α} {good : α → Prop}
    (yields : item.Yields known good) :
    (listed tooMany item).Yields known fun found => ∀ value ∈ found, good value := by
  refine yields.bind fun first isFirst => ?_
  have steps : Yields known (repeated (1, [first]) (listedStep tooMany item)) fun found =>
      ∀ value ∈ found.2, good value := by
    refine .repeated (fun found areGood => .after (.accept _) fun comma => ?_)
      (List.forall_mem_singleton.mpr isFirst)
    cases comma with
    | none => exact .pure nofun
    | some _ =>
      have further : Yields known (do return some (found.1 + 1, (← item) :: found.2))
          fun longer => ∀ more ∈ longer, ∀ value ∈ more.2, good value := by
        refine yields.bind fun value isGood => .pure ?_
        rintro _ ⟨⟩
        exact List.forall_mem_cons.mpr ⟨isGood, areGood⟩
      exact .ite (.after (.reportNext _) fun _ => further) further
  exact steps.bind fun found areGood => .pure fun value isIn =>
    areGood value (List.mem_reverse.mp isIn)

/-- What is there yields what the rule for it yields. -/
private theorem yields_some {rule : Rule α} {good : α → Prop} (yields : rule.Yields known good) :
    (some <$> rule).Yields known fun found => ∀ value ∈ found, good value :=
  yields.map fun _ isGood _ isValue => Option.some.inj isValue ▸ isGood

/-- Calls yield an expression that is built from the callee and the arguments. -/
private theorem yields_calls (yields : phrase.Yields known (Expr.Built known)) {callee : Expr}
    (isCallee : callee.Built known) :
    (calls phrase callee).Yields known (Expr.Built known) := by
  refine .repeated (fun callee isCallee => .after (.accept _) fun opening => ?_) isCallee
  cases opening with
  | none => exact .pure nofun
  | some _ =>
    have closed (arguments : List Expr)
        (areArguments : ∀ argument ∈ arguments, argument.Built known) :
        Yields known (do
          let paren ← expect .rightParen .parenAfterArguments
          return some (Expr.call callee paren arguments)) fun found =>
            ∀ tree ∈ found, tree.Built known := by
      refine (Yields.expect _ _).bind fun paren isParen => .pure ?_
      rintro _ ⟨⟩
      exact .call isCallee isParen areArguments
    exact .after (.nextIs _) fun _ =>
      .ite ((Yields.pure nofun).bind closed) ((yields_listed yields).bind closed)

/-- A primary expression is built from one token, or from what stands in its parentheses. -/
private theorem yields_primary (yields : phrase.Yields known (Expr.Built known)) :
    (primary phrase).Yields known (Expr.Built known) := by
  refine Yields.next.bind fun found areKnown => ?_
  cases found with
  | none => exact .fail _ _
  | some token =>
    have isKnown := areKnown token rfl
    have taken {tree : Expr} (isBuilt : tree.Built known) :
        Yields known (skip >>= fun _ => pure tree) (Expr.Built known) :=
      .after .skip fun _ => .pure isBuilt
    have valued (isKind : token.kind ∈ [.number, .string]) :=
      taken (.literal (.ofToken ⟨isKnown, isKind⟩ rfl))
    dsimp only
    split
    next => exact taken (.literal (.bool false))
    next => exact taken (.literal (.bool true))
    next => exact taken (.literal .nil)
    next isNumber => exact valued (by simp [isNumber])
    next isString => exact valued (by simp [isString])
    next isName => exact taken (.reference ⟨isKnown, by simp [isName]⟩)
    next =>
      exact .after .skip fun _ => yields.bind fun inner isInner =>
        .after (.expect _ _) fun _ => .pure (.grouping isInner)
    next => exact .fail _ _

/-- Expressions are built from their tokens, however deep they are nested. -/
theorem yields_unary_expression (depth : Nat) :
    (unary depth).Yields known (Expr.Built known) ∧
      (expression depth).Yields known (Expr.Built known) := by
  induction depth with
  | zero => exact ⟨.tooDeep _, .tooDeep _⟩
  | succ depth inductionHypothesis =>
    obtain ⟨yieldsUnary, yields⟩ := inductionHypothesis
    constructor
    · refine (Yields.accept _).bind fun found serves => ?_
      cases found with
      | none => exact (yields_primary yields).bind fun callee => yields_calls yields
      | some operator =>
        exact yieldsUnary.bind fun right isRight => .pure (.unary (serves operator rfl) isRight)
    · refine (yields_operations yieldsUnary).bind fun target isTarget =>
        .after (.accept _) fun equals => ?_
      cases equals with
      | none => exact .pure isTarget
      | some equals =>
        refine yields.bind fun value isValue => ?_
        have isKept := isTarget
        cases isTarget with
        | reference isName => exact .pure (.assign isName isValue)
        | _ => exact .after (.reportAt _ _) fun _ => .pure isKept

/-- Every expression that is read is built from the tokens. -/
theorem yields_expression (depth : Nat) :
    (expression depth).Yields known (Expr.Built known) :=
  (yields_unary_expression depth).2

end Expressions

/-! ## Statements -/

section Statements

variable {phrase : Rule Expr} {inner : Rule Stmt} {declared : Rule (Option Stmt)}

/-- Looking for the next statement only drops tokens. -/
private theorem synchronize_subset (tokens : List Token) : synchronize tokens ⊆ tokens := by
  have boundary (last : TokenKind) (tokens : List Token) :
      statementBoundary last tokens ⊆ tokens := by
    induction tokens generalizing last with
    | nil => exact List.Subset.refl _
    | cons token tokens inductionHypothesis =>
      unfold statementBoundary
      split
      · exact List.Subset.refl _
      · exact List.subset_cons_of_subset _ (inductionHypothesis _)
  cases tokens with
  | nil => exact List.Subset.refl _
  | cons token tokens => exact List.subset_cons_of_subset _ (boundary _ _)

/-- What recovery yields is what the rule yields; to skip tokens adds none. -/
private theorem yields_recovering (depth : Nat) {rule : Rule Stmt}
    (yields : rule.Yields known (Stmt.Built known)) :
    (recovering depth rule).Yields known fun found => ∀ stmt ∈ found, stmt.Built known := by
  intro surroundings tokens areKnown
  obtain ⟨restKnown, isBuilt⟩ := yields surroundings tokens areKnown
  have further : ∀ token ∈ synchronize (rule surroundings tokens).rest, known token :=
    fun token isIn => restKnown token (synchronize_subset _ isIn)
  have recovers := recovery depth rule surroundings tokens
  generalize recovering depth rule surroundings tokens = reply at recovers ⊢
  cases recovers with
  | @kept stmt result =>
    refine ⟨restKnown, fun found isOk => ?_⟩
    obtain rfl := Except.ok.inj isOk
    rintro _ ⟨⟩
    exact isBuilt stmt result
  | dropped => exact ⟨further, fun found isOk => Except.ok.inj isOk ▸ nofun⟩
  | tooDeep => exact ⟨further, fun found isOk => Except.ok.inj isOk ▸ nofun⟩
  | passedOn => exact ⟨restKnown, nofun⟩

/-- Declarations that were not dropped are built from their tokens. -/
theorem yields_declarations {more : Rule Bool} (looksAhead : LooksAhead more)
    (yields : declared.Yields known fun found => ∀ stmt ∈ found, stmt.Built known) :
    (declarations more declared).Yields known fun stmts => ∀ stmt ∈ stmts, stmt.Built known := by
  have steps : Yields known (repeated [] (declarationStep more declared)) fun found =>
      ∀ stmt ∈ found, stmt.Built known := by
    refine .repeated (fun found areBuilt => .after looksAhead.yields fun isMore =>
      .ite ?_ (.pure nofun)) nofun
    refine yields.bind fun declared isBuilt => ?_
    cases declared with
    | none =>
      refine .pure ?_
      rintro _ ⟨⟩
      exact areBuilt
    | some stmt =>
      refine .pure ?_
      rintro _ ⟨⟩
      exact List.forall_mem_cons.mpr ⟨isBuilt stmt rfl, areBuilt⟩
  exact steps.bind fun found areBuilt => .pure fun stmt isIn =>
    areBuilt stmt (List.mem_reverse.mp isIn)

/-- A block yields what its declarations yield. -/
private theorem yields_block
    (yields : declared.Yields known fun found => ∀ stmt ∈ found, stmt.Built known) :
    (block declared).Yields known fun stmts => ∀ stmt ∈ stmts, stmt.Built known :=
  (yields_declarations inBlock_looksAhead yields).bind fun _ areBuilt =>
    .after (.expect _ _) fun _ => .pure areBuilt

/-- A function is built from its name, its parameters and its body. -/
private theorem yields_function
    (yields : declared.Yields known fun found => ∀ stmt ∈ found, stmt.Built known) :
    (function declared).Yields known (Stmt.Built known) := by
  refine (Yields.expect _ _).bind fun name isName => .after (.expect _ _) fun _ =>
    .after (.nextIs _) fun _ => ?_
  have body (parameters : List Token)
      (areParameters : ∀ parameter ∈ parameters, parameter.Serves known [.identifier]) :
      Yields known (do
        let _ ← expect .rightParen .parenAfterParameters
        let _ ← expect .leftBrace .braceBeforeBody
        return Stmt.function name parameters (← withinFunction (block declared)))
        (Stmt.Built known) :=
    .after (.expect _ _) fun _ => .after (.expect _ _) fun _ =>
      (yields_block yields).withinFunction.bind fun _ areBuilt =>
        .pure (.function isName areParameters areBuilt)
  exact .ite ((Yields.pure nofun).bind body) ((yields_listed (.expect _ _)).bind body)

/-- A variable declaration is built from its name and its initializer. -/
private theorem yields_varDeclaration (yields : phrase.Yields known (Expr.Built known)) :
    (varDeclaration phrase).Yields known (Stmt.Built known) := by
  refine (Yields.expect _ _).bind fun name isName => .after (.accept _) fun equal => ?_
  have ended (start : Option Expr) (isStart : ∀ expr ∈ start, expr.Built known) : Yields known
      (do
        let _ ← expect .semicolon .semicolonAfterDeclaration
        return Stmt.var name start) (Stmt.Built known) :=
    .after (.expect _ _) fun _ => .pure (.var isName isStart)
  cases equal with
  | none => exact (Yields.pure nofun).bind ended
  | some _ => exact (yields_some yields).bind ended

/-- An expression statement is built from its expression. -/
private theorem yields_expressionStatement (yields : phrase.Yields known (Expr.Built known)) :
    (expressionStatement phrase).Yields known (Stmt.Built known) :=
  yields.bind fun _ isValue => .after (.expect _ _) fun _ => .pure (.expression isValue)

/-- A print statement is built from its expression. -/
private theorem yields_printStatement (yields : phrase.Yields known (Expr.Built known)) :
    (printStatement phrase).Yields known (Stmt.Built known) :=
  yields.bind fun _ isValue => .after (.expect _ _) fun _ => .pure (.print isValue)

/-- A return statement is built from its keyword and its value. -/
private theorem yields_returnStatement (yields : phrase.Yields known (Expr.Built known))
    {keyword : Token} (isKeyword : keyword.Serves known [.keyReturn]) :
    (returnStatement phrase keyword).Yields known (Stmt.Built known) := by
  have ended (value : Option Expr) (isValue : ∀ expr ∈ value, expr.Built known) : Yields known
      (do
        let _ ← expect .semicolon .semicolonAfterReturnValue
        return Stmt.ret keyword value) (Stmt.Built known) :=
    .after (.expect _ _) fun _ => .pure (.ret isKeyword isValue)
  have valued : Yields known
      (do
        let value ← if ← nextIs .semicolon then pure none else some <$> phrase
        let _ ← expect .semicolon .semicolonAfterReturnValue
        return Stmt.ret keyword value) (Stmt.Built known) :=
    .after (.nextIs _) fun _ =>
      .ite ((Yields.pure nofun).bind ended) ((yields_some yields).bind ended)
  exact .after .inFunction fun _ => .ite (.after (.reportAt _ _) fun _ => valued) valued

/-- A conditional is built from its condition and its branches. -/
private theorem yields_ifStatement (yields : phrase.Yields known (Expr.Built known))
    (yieldsInner : inner.Yields known (Stmt.Built known)) :
    (ifStatement phrase inner).Yields known (Stmt.Built known) := by
  refine .after (.expect _ _) fun _ => yields.bind fun condition isCondition =>
    .after (.expect _ _) fun _ => yieldsInner.bind fun consequent isConsequent =>
      .after (.accept _) fun keyword => ?_
  cases keyword with
  | none => exact .pure (.conditional isCondition isConsequent nofun)
  | some _ =>
    exact (yields_some yieldsInner).bind fun _ isAlternative =>
      .pure (.conditional isCondition isConsequent isAlternative)

/-- A while loop is built from its condition and its body. -/
private theorem yields_whileStatement (yields : phrase.Yields known (Expr.Built known))
    (yieldsInner : inner.Yields known (Stmt.Built known)) :
    (whileStatement phrase inner).Yields known (Stmt.Built known) :=
  .after (.expect _ _) fun _ => yields.bind fun _ isCondition => .after (.expect _ _) fun _ =>
    yieldsInner.bind fun _ isBody => .pure (.loop isCondition isBody)

/-- The tree of a `for` loop is built from the tokens of its clauses and its body. -/
private theorem built_around {clauses : ForClauses} {body : Stmt}
    (isStart : ∀ stmt ∈ clauses.start, stmt.Built known)
    (isCondition : ∀ expr ∈ clauses.condition, expr.Built known)
    (isIncrement : ∀ expr ∈ clauses.increment, expr.Built known) (isBody : body.Built known) :
    (clauses.around body).Built known := by
  obtain ⟨start, condition, increment⟩ := clauses
  have pair {first second : Stmt} (isFirst : first.Built known) (isSecond : second.Built known) :
      (Stmt.block [first, second]).Built known :=
    .block (List.forall_mem_cons.mpr ⟨isFirst, List.forall_mem_singleton.mpr isSecond⟩)
  have tested : (condition.getD (.literal (.bool true))).Built known := by
    cases condition with
    | none => exact .literal (.bool true)
    | some condition => exact isCondition condition rfl
  cases start with
  | none =>
    cases increment with
    | none => exact .loop tested isBody
    | some increment => exact .loop tested (pair isBody (.expression (isIncrement increment rfl)))
  | some start =>
    refine pair (isStart start rfl) (.loop tested ?_)
    cases increment with
    | none => exact isBody
    | some increment => exact pair isBody (.expression (isIncrement increment rfl))

/-- What a for loop starts with is built from a variable declaration or an expression. -/
private theorem yields_forStart (yields : phrase.Yields known (Expr.Built known)) :
    (forStart phrase).Yields known fun start => ∀ stmt ∈ start, stmt.Built known := by
  refine .after (.accept _) fun found => ?_
  cases found with
  | none => exact yields_some (yields_expressionStatement yields)
  | some token => exact .ite (.pure nofun) (yields_some (yields_varDeclaration yields))

/-- A clause of a for loop is built if it is there. -/
private theorem yields_optionalExpression (yields : phrase.Yields known (Expr.Built known))
    (closing : TokenKind) :
    (optionalExpression phrase closing).Yields known
      fun value => ∀ expr ∈ value, expr.Built known :=
  .after (.nextIs _) fun _ => .ite (.pure nofun) (yields_some yields)

/-- A for loop is built from its clauses and its body, as the while loop that stands for it. -/
private theorem yields_forStatement (yields : phrase.Yields known (Expr.Built known))
    (yieldsInner : inner.Yields known (Stmt.Built known)) :
    (forStatement phrase inner).Yields known (Stmt.Built known) :=
  .after (.expect _ _) fun _ => (yields_forStart yields).bind fun _ isStart =>
    (yields_optionalExpression yields _).bind fun _ isCondition => .after (.expect _ _) fun _ =>
      (yields_optionalExpression yields _).bind fun _ isIncrement =>
        .after (.expect _ _) fun _ => yieldsInner.bind fun _ isBody =>
          .pure (built_around isStart isCondition isIncrement isBody)

/-- Whichever statement is read is built from its parts. -/
private theorem yields_statementBody (yields : phrase.Yields known (Expr.Built known))
    (yieldsInner : inner.Yields known (Stmt.Built known))
    (yieldsDeclared : declared.Yields known fun found => ∀ stmt ∈ found, stmt.Built known) :
    (statementBody inner declared phrase).Yields known (Stmt.Built known) := by
  refine (Yields.accept _).bind fun found serves => ?_
  cases found with
  | none => exact yields_expressionStatement yields
  | some keyword =>
    have isKnown := (serves keyword rfl).isKnown
    change (keywordStatement inner declared phrase keyword).Yields known (Stmt.Built known)
    unfold keywordStatement
    split
    next => exact yields_forStatement yields yieldsInner
    next => exact yields_ifStatement yields yieldsInner
    next => exact yields_printStatement yields
    next isReturn => exact yields_returnStatement yields ⟨isKnown, by simp [isReturn]⟩
    next => exact yields_whileStatement yields yieldsInner
    next => exact (yields_block yieldsDeclared).map fun _ areBuilt => .block areBuilt

/-- Whichever declaration is read is built from its parts. -/
private theorem yields_declarationBody (yields : phrase.Yields known (Expr.Built known))
    (yieldsInner : inner.Yields known (Stmt.Built known))
    (yieldsDeclared : declared.Yields known fun found => ∀ stmt ∈ found, stmt.Built known) :
    (declarationBody inner declared phrase).Yields known (Stmt.Built known) := by
  refine .after (.accept _) fun keyword => ?_
  cases keyword with
  | none => exact yieldsInner
  | some keyword => exact .ite (yields_function yieldsDeclared) (yields_varDeclaration yields)

/-- Statements and declarations are built from their tokens, however deep they are nested. -/
theorem yields_statement_declaration (depth : Nat) :
    (statement depth).Yields known (Stmt.Built known) ∧
      (declaration depth).Yields known fun found => ∀ stmt ∈ found, stmt.Built known := by
  induction depth with
  | zero => exact ⟨.tooDeep _, .tooDeep _⟩
  | succ depth inductionHypothesis =>
    obtain ⟨yieldsInner, yieldsDeclared⟩ := inductionHypothesis
    have yields : (expression depth).Yields known (Expr.Built known) := yields_expression depth
    exact ⟨yields_statementBody yields yieldsInner yieldsDeclared,
      yields_recovering depth (yields_declarationBody yields yieldsInner yieldsDeclared)⟩

end Statements

/-- The statements that are left of a list of tokens are built from them, whatever is wrong with
it. -/
theorem built_of_mem_parse {limit : Nat} {tokens : List Token} {endLine : Int} {stmt : Stmt}
    (areKnown : ∀ token ∈ tokens, known token)
    (isIn : stmt ∈ (parse limit tokens endLine).statements) : stmt.Built known := by
  have yields : (declarations hasNext (declaration (depthOf limit + 1))).Yields known fun found =>
      ∀ stmt ∈ found, stmt.Built known :=
    yields_declarations hasNext_looksAhead (yields_statement_declaration (depthOf limit + 1)).2
  unfold parse at isIn
  dsimp only at isIn
  split at isIn
  next statements result =>
    exact (yields ⟨endLine, false⟩ tokens areKnown).2 statements result stmt isIn
  next => cases isIn

end Grammar

/-- The statements that are left of a text are built from its tokens, whatever is wrong with it. -/
theorem Program.built_of_mem_ofSource {limit : Nat} {text : String} {stmt : Stmt}
    (areKnown : ∀ token ∈ (Source.scan text).tokens, known token)
    (isIn : stmt ∈ (Program.ofSource limit text).statements) : stmt.Built known :=
  Grammar.built_of_mem_parse areKnown isIn

/-- The statements that are left of a text are proper, whatever is wrong with it. -/
theorem Program.proper_ofSource (limit : Nat) (text : String) :
    ∀ site ∈ Stmt.allSites (Program.ofSource limit text).statements, site.Proper :=
  Stmt.proper_allSites fun _ isIn =>
    (Program.built_of_mem_ofSource (fun _ isToken => isToken) isIn).proper

end LoxLang
