import LoxLang.Proofs.Evaluation.BigStep

/-!
# What can be told of a machine

The view of a machine is the state that the big-step semantics knows: traced messages are left out.
Truth, equality, operators and look-up along scopes, which the semantics states by themselves, are
those of the interpreter.
-/

namespace LoxLang

/-- The machine that a computation left. -/
def Outcome.machine {α : Type} : Outcome α → Machine
  | .done _ machine | .halted _ machine => machine

namespace BigStep

open Run

variable {α β : Type}

/-! ## Outcomes -/

/-- The line that an event prints, if it prints one. -/
def line? : Event → Option String
  | .printed line | .echoed line => some line
  | .traced _ => none

/-- What can be told of a machine. -/
def view (machine : Machine) : State :=
  ⟨machine.store, machine.callables, machine.clock, machine.readings,
    machine.events.toList.filterMap line?⟩

/-- How a computation ended. -/
def ending : Outcome α → Ending α
  | .done value _ => .ok value
  | .halted halt _ => .error halt

/-- The outcome of a computation with this ending. -/
def outcome : Ending α → Machine → Outcome α
  | .ok value, machine => .done value machine
  | .error halt, machine => .halted halt machine

/-- The state in which a computation ended. -/
def finalState : Outcome α → State
  | .done _ machine | .halted _ machine => view machine

/-- The computation was stopped by a limit of the machine and not by the program. -/
def IsLimit : Halt → Prop
  | .overflow | .endless => True
  | .failed error => error.fault = .stackOverflow
  | .unexpectedNode _ _ | .notImplemented | .raised _ => False

/-- A limit was reached. -/
def Limited (outcome : Outcome α) : Prop := ∃ halt, ending outcome = .error halt ∧ IsLimit halt

/-- The run of the interpreter for a task. -/
def Task.run (settings : Settings) (stack : Nat) : (task : Task) → Run task.Result
  | .evaluate scope expr => LoxLang.evaluate settings stack scope expr
  | .evaluateAll scope exprs => each (LoxLang.evaluate settings stack scope) exprs
  | .call paren callee arguments =>
    Run.call settings.debugLevel (invoke settings stack) paren callee arguments
  | .execute scope stmt => LoxLang.execute settings stack scope stmt
  | .executeAll scope stmts => Run.sequence (LoxLang.execute settings stack scope) stmts

/-- One turn of a `while` loop: how the loop ends, if this turn ends it. -/
def loopTurn (settings : Settings) (stack : Nat) (scope : ScopeId) (condition : Expr)
    (body : Stmt) : Run (Option Completion) := do
  let condition ← evaluate settings stack scope condition
  trace settings.debugLevel (.whileCondition condition)
  if condition.isTruthy then
    match ← execute settings stack scope body with
    | .normal => return none
    | .returned value => return some (.returned value)
  else return some .normal

/-- A while loop repeats its turn. -/
theorem execute_loop (settings : Settings) (stack : Nat) (scope : ScopeId) (condition : Expr)
    (body : Stmt) :
    execute settings (stack + 1) scope (.loop condition body) =
      Run.loop settings.turns (loopTurn settings stack scope condition body) := rfl

/-- Statements one after the other are the first one and, if that comes to its end, the further
ones. -/
theorem sequence_cons (execute : Stmt → Run Completion) (stmt : Stmt) (stmts : List Stmt) :
    Run.sequence execute (stmt :: stmts) = (do
      match ← execute stmt with
      | .normal => Run.sequence execute stmts
      | .returned value => return .returned value) := by
  funext machine
  change _ = Run.bind (execute stmt) _ machine
  simp only [Run.sequence, Run.bind]
  cases execute stmt machine with
  | done completion final => cases completion <;> rfl
  | halted halt final => rfl

/-- A loop with one more turn to go is that turn and, unless it ends the loop, the others. -/
theorem loop_succ (turns : Nat) (turn : Run (Option Completion)) :
    Run.loop (turns + 1) turn = (do
      match ← turn with
      | none => Run.loop turns turn
      | some completion => return completion) := by
  funext machine
  change _ = Run.bind turn _ machine
  simp only [Run.loop, Run.bind]
  cases turn machine with
  | done completion final => cases completion <;> rfl
  | halted halt final => rfl

/-- A captured name that was not there reads as `nil`. -/
theorem readCaptured_some (scope : ScopeId) (name : String) (machine : Machine) :
    readCaptured (some scope) name machine =
      .done ((machine.store.lookup? scope name).getD .nil) machine := by
  simp only [readCaptured, orNil, readVariable]
  cases machine.store.lookup? scope name <;> rfl

/-- Messages cannot be told of a machine. -/
@[simp] theorem view_trace (machine : Machine) (level : Nat) (entry : TraceEntry) :
    view (machine.trace level entry) = view machine := by
  unfold Machine.trace
  split
  · simp [view, Machine.emit, line?]
  · rfl

/-- A line of the program is among the lines that were printed. -/
@[simp] theorem view_print (machine : Machine) (line : String) :
    view (machine.emit (.printed line)) = (view machine).print line := by
  simp [view, Machine.emit, State.print, line?]

/-- A line of the host is among the lines that were printed. -/
@[simp] theorem view_echo (machine : Machine) (line : String) :
    view (machine.emit (.echoed line)) = (view machine).print line := by
  simp [view, Machine.emit, State.print, line?]

/-- A name that is bound is bound in the state, too. -/
theorem view_define (machine : Machine) (scope : ScopeId) (name : String) (value : Value) :
    view { machine with store := machine.store.define scope name value } =
      (view machine).define scope name value := rfl

/-! ## Values and scopes -/

/-- Falsity is the opposite of being truthy. -/
theorem falsy_iff {value : Value} : Falsy value ↔ value.isTruthy = false := by
  constructor
  · rintro (_ | _) <;> rfl
  · intro isFalse
    cases value with
    | nil => exact .nil
    | bool value =>
      obtain rfl : value = false := isFalse
      exact .false
    | _ => exact nomatch isFalse

/-- What is not falsy is truthy. -/
theorem not_falsy_iff {value : Value} : ¬ Falsy value ↔ value.isTruthy = true := by
  rw [falsy_iff, Bool.not_eq_false]

/-- The semantics and the interpreter agree on equality. -/
theorem same_iff {left right : Value} : Same left right ↔ left.equals right = true := by
  constructor
  · intro same
    cases same with
    | nil => rfl
    | bool value => exact beq_self_eq_true value
    | number equal => simp [Value.equals, Value.sameNumber, equal]
    | noNumber noLeft noRight =>
      simp only [Value.equals, Value.sameNumber, noLeft, noRight, Bool.and_true, Bool.or_true]
    | text value => exact beq_self_eq_true value
    | callable identical => simp [Value.equals, identical]
  · intro equal
    unfold Value.equals at equal
    split at equal
    · exact .nil
    next left right =>
      obtain rfl : left = right := beq_iff_eq.mp equal
      exact .bool left
    next left right =>
      simp only [Value.sameNumber, Bool.or_eq_true, Bool.and_eq_true] at equal
      rcases equal with equal | ⟨noLeft, noRight⟩
      · exact .number equal
      · exact .noNumber noLeft noRight
    next left right =>
      obtain rfl : left = right := beq_iff_eq.mp equal
      exact .text left
    · exact .callable (beq_iff_eq.mp equal)
    · exact nomatch equal

/-- The semantics and the interpreter agree on what is not equal. -/
theorem not_same_iff {left right : Value} : ¬ Same left right ↔ left.equals right = false := by
  rw [same_iff, Bool.not_eq_true]

/-- The semantics and the interpreter agree on when the left operand decides. -/
theorem decides_iff {operator : Token} {left : Value} :
    Decides operator.kind left ↔ Operator.decides operator left = true := by
  unfold Operator.decides
  constructor
  · generalize operator.kind = kind
    rintro (holds | ⟨noOr, fails⟩)
    · simpa using not_falsy_iff.mp holds
    · simpa [noOr] using falsy_iff.mp fails
  · split
    next isOr =>
      intro holds
      rw [isOr]
      exact .either (not_falsy_iff.mpr holds)
    next noOr =>
      intro fails
      exact .both noOr (falsy_iff.mpr (by simpa using fails))

/-- What the interpreter looks up is what the semantics says is bound. -/
theorem lookup?_eq_some_iff {store : Store Value} {scope : ScopeId} {name : String}
    {value : Value} :
    store.lookup? scope name = some value ↔ ∃ holder, Binds store scope name holder value := by
  unfold Store.lookup? Binds
  rw [List.findSome?_eq_some_iff]
  constructor
  · rintro ⟨inner, holder, outer, chain, binds, nearer⟩
    exact ⟨holder, inner, outer, chain, binds, nearer⟩
  · rintro ⟨holder, inner, outer, chain, binds, nearer⟩
    exact ⟨inner, holder, outer, chain, binds, nearer⟩

/-- What the interpreter does not find, the semantics says is unbound. -/
theorem lookup?_eq_none_iff {store : Store Value} {scope : ScopeId} {name : String} :
    store.lookup? scope name = none ↔ Unbound store scope name := by
  unfold Store.lookup? Unbound
  exact List.findSome?_eq_none_iff

/-- The holder that the interpreter finds is the one that the semantics names. -/
theorem holder?_eq_some_iff {store : Store Value} {scope holder : ScopeId} {name : String} :
    store.holder? scope name = some holder ↔ ∃ value, Binds store scope name holder value := by
  unfold Store.holder? Binds
  rw [List.find?_eq_some_iff_append]
  constructor
  · rintro ⟨isBound, inner, outer, chain, nearer⟩
    obtain ⟨value, binds⟩ := Option.isSome_iff_exists.mp isBound
    refine ⟨value, inner, outer, chain, binds, fun other member => ?_⟩
    simpa using nearer other member
  · rintro ⟨value, inner, outer, chain, binds, nearer⟩
    refine ⟨by simp [binds], inner, outer, chain, fun other member => ?_⟩
    simp [nearer other member]

/-- Where the interpreter finds no holder, the semantics says that the name is unbound. -/
theorem holder?_eq_none_iff {store : Store Value} {scope : ScopeId} {name : String} :
    store.holder? scope name = none ↔ Unbound store scope name := by
  simp [Store.holder?, Unbound]

/-! ## Native functions and operators -/

/-- A native function ends as the semantics says, and leaves the machine as it is. -/
theorem native_of_answers {function : NativeFunction} {closure : Option ScopeId}
    {arguments : List Value} {machine : Machine} {ending : Ending Value}
    (answers : Answers function closure arguments (view machine) ending) :
    Run.native closure function arguments machine = outcome ending machine := by
  unfold Run.native
  cases answers with
  | literal gives | raises gives => simp only [gives]; rfl
  | argument gives stands => simp only [gives, stands]; rfl
  | noArgument gives missing => simp only [gives, missing]; rfl
  | @captured name scope holder value gives isClosure binds =>
    have found : machine.store.lookup? scope name = some value :=
      lookup?_eq_some_iff.mpr ⟨holder, binds⟩
    simp only [gives, isClosure, readCaptured_some, found]
    rfl
  | @notCaptured name gives unbound =>
    cases closure with
    | none => simp only [gives]; rfl
    | some scope =>
      have missing : machine.store.lookup? scope name = none :=
        lookup?_eq_none_iff.mpr (unbound scope rfl)
      simp only [gives, readCaptured_some, missing]
      rfl

/-- The semantics says how every native function ends. -/
theorem answers_exists (function : NativeFunction) (closure : Option ScopeId)
    (arguments : List Value) (state : State) :
    ∃ ending, Answers function closure arguments state ending := by
  cases gives : function (arguments.map (·.shown)) with
  | error exception => exact ⟨_, .raises gives⟩
  | ok given =>
    cases given with
    | literal value => exact ⟨_, .literal gives⟩
    | argument place =>
      cases stands : arguments[place]? with
      | none => exact ⟨_, .noArgument gives stands⟩
      | some value => exact ⟨_, .argument gives stands⟩
    | captured name =>
      cases found : closure.bind (state.store.lookup? · name) with
      | none =>
        refine ⟨_, .notCaptured gives fun scope isClosure => lookup?_eq_none_iff.mp ?_⟩
        exact Option.bind_eq_none_iff.mp found scope isClosure
      | some value =>
        obtain ⟨scope, isClosure, isValue⟩ := Option.bind_eq_some_iff.mp found
        obtain ⟨holder, binds⟩ := lookup?_eq_some_iff.mp isValue
        exact ⟨_, .captured gives isClosure binds⟩

/-- The ending of an operator. -/
def ofOperator : Except RuntimeError Value → Ending Value
  | .ok value => .ok value
  | .error error => .error (.failed error)

/-- The semantics of a unary operator is what the interpreter computes. -/
theorem unary_iff {operator : Token} {operand : Value} {ending : Ending Value} :
    Unary operator operand ending ↔ ending = ofOperator (Operator.unary operator operand) := by
  unfold Operator.unary
  constructor
  · intro operates
    cases operates with
    | holds isBang falsy => simp [isBang, ofOperator, falsy_iff.mp falsy]
    | fails isBang truthy => simp [isBang, ofOperator, not_falsy_iff.mp truthy]
    | negative isMinus => simp [isMinus, ofOperator]
    | noNumber isMinus noNumber =>
      rw [isMinus]
      cases operand with
      | number value => exact absurd rfl (noNumber value)
      | _ => rfl
    | unknown noBang noMinus =>
      split
      next isBang => exact absurd isBang noBang
      next isMinus => exact absurd isMinus noMinus
      · rfl
  · rintro rfl
    split
    next isBang =>
      by_cases falsy : Falsy operand
      · rw [falsy_iff.mp falsy]
        exact .holds isBang falsy
      · rw [not_falsy_iff.mp falsy]
        exact .fails isBang falsy
    next isMinus =>
      cases operand with
      | number value => exact .negative isMinus
      | _ => exact .noNumber isMinus nofun
    next noBang noMinus => exact .unknown noBang noMinus

/-- An operator on numbers refuses everything else. -/
theorem onNumbers_of_noNumbers {operator : Token} {left right : Value}
    (noNumbers : ∀ first second, ¬ (left = .number first ∧ right = .number second))
    (result : Float → Float → Value) :
    Operator.onNumbers operator left right result = .error ⟨.operandsNotNumbers, operator⟩ := by
  unfold Operator.onNumbers
  split
  next first second => exact absurd ⟨rfl, rfl⟩ (noNumbers first second)
  · rfl

/-- An operator that is in the table of arithmetic has the semantics of that. -/
theorem binary_onNumbers {operator : Token} {result : Float → Float → Value}
    (table : ∀ first second, Arithmetic operator.kind first second (result first second))
    (left right : Value) :
    Binary operator left right (ofOperator (Operator.onNumbers operator left right result)) := by
  unfold Operator.onNumbers
  split
  next first second => exact .arithmetic (table first second)
  next noNumbers =>
    exact .noNumbers (table 0 0) fun first second ⟨isLeft, isRight⟩ =>
      noNumbers first second isLeft isRight

/-- A sum has its semantics: numbers are added, texts joined, and all else is refused. -/
theorem binary_plus {operator : Token} (isPlus : operator.kind = .plus) (left right : Value) :
    Binary operator left right (ofOperator (Operator.plus operator left right)) := by
  unfold Operator.plus
  split
  · exact .sum isPlus
  · exact .joined isPlus
  next noNumbers noTexts =>
    exact .notAlike isPlus
      (fun first second ⟨isLeft, isRight⟩ => noNumbers first second isLeft isRight)
      (fun first second ⟨isLeft, isRight⟩ => noTexts first second isLeft isRight)

/-- Every binary operator has the semantics of what the interpreter computes. -/
theorem binary_operator (operator : Token) (left right : Value) :
    Binary operator left right (ofOperator (Operator.binary operator left right)) := by
  unfold Operator.binary
  split
  next isPlus => exact binary_plus isPlus left right
  next isMinus => exact binary_onNumbers (isMinus ▸ .minus) left right
  next isStar => exact binary_onNumbers (isStar ▸ .star) left right
  next isSlash => exact binary_onNumbers (isSlash ▸ .slash) left right
  next isGreater => exact binary_onNumbers (isGreater ▸ .greater) left right
  next isGreaterEqual => exact binary_onNumbers (isGreaterEqual ▸ .greaterEqual) left right
  next isLess => exact binary_onNumbers (isLess ▸ .less) left right
  next isLessEqual => exact binary_onNumbers (isLessEqual ▸ .lessEqual) left right
  next isEqual =>
    by_cases same : Same left right
    · rw [same_iff.mp same]
      exact .equal isEqual same
    · rw [not_same_iff.mp same]
      exact .notEqual isEqual same
  next isUnequal =>
    by_cases same : Same left right
    · rw [same_iff.mp same]
      exact .notUnequal isUnequal same
    · rw [not_same_iff.mp same]
      exact .unequal isUnequal same
  next => exact .unknown (by simp_all [binaryKinds])

/-- The semantics of a binary operator is what the interpreter computes, and nothing else. -/
theorem binary_iff {operator : Token} {left right : Value} {ending : Ending Value} :
    Binary operator left right ending ↔
      ending = ofOperator (Operator.binary operator left right) := by
  constructor
  · intro operates
    unfold Operator.binary
    cases operates with
    | arithmetic table =>
      generalize operator.kind = kind at table ⊢
      cases table <;> rfl
    | noNumbers isArithmetic noNumbers =>
      generalize operator.kind = kind at isArithmetic ⊢
      cases isArithmetic <;> simp only [onNumbers_of_noNumbers noNumbers] <;> rfl
    | sum isPlus | joined isPlus =>
      rw [isPlus]
      rfl
    | notAlike isPlus noNumbers noTexts =>
      simp only [isPlus, Operator.plus]
      split
      next first second => exact absurd ⟨rfl, rfl⟩ (noNumbers first second)
      next first second => exact absurd ⟨rfl, rfl⟩ (noTexts first second)
      · rfl
    | equal isEqual same => simp [isEqual, ofOperator, same_iff.mp same]
    | notEqual isEqual different => simp [isEqual, ofOperator, not_same_iff.mp different]
    | unequal isUnequal different => simp [isUnequal, ofOperator, not_same_iff.mp different]
    | notUnequal isUnequal same => simp [isUnequal, ofOperator, same_iff.mp same]
    | unknown isOther =>
      generalize operator.kind = kind at isOther ⊢
      cases kind <;> first | rfl | exact absurd (by decide) isOther
  · rintro rfl
    exact binary_operator operator left right

end BigStep
end LoxLang
