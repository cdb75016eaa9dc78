import LoxLang.Proofs.Evaluation.Likeness
import LoxLang.Proofs.Syntax.Pairing

/-!
# Machines whose functions differ in their lines

A pairing of tokens says which trees stand for which other ones. Function values keep trees, so it
also says which values, bindings, messages and machines stand for which other ones. Whatever a
program can tell of a value is the same for the value that stands for it, and so is everything that
was printed.
-/

namespace LoxLang

/-- The lines that were printed so far. -/
def Machine.printed (machine : Machine) : List String := (BigStep.view machine).printed

/-- The tokens of a function. -/
def Declaration.tokens (declaration : Declaration) : List Token :=
  declaration.name :: (declaration.parameters ++ Stmt.allTokens declaration.body)

/-- The tokens that a value keeps: those of the function that it is, if it is one. -/
def Value.tokens : Value → List Token
  | .callable ⟨_, .function declaration _⟩ => declaration.tokens
  | _ => []

/-- The token belongs to a function that some scope binds. -/
def Machine.Holds (machine : Machine) (token : Token) : Prop :=
  ∃ scope, ∃ binding ∈ machine.store.bindings scope, token ∈ binding.2.tokens

namespace Pairing

section Relations

variable (pairing : Pairing)

/-- The functions are declared alike over tokens that stand for each other. -/
structure OnDeclaration (declaration other : Declaration) : Prop where
  name : pairing.Pairs declaration.name other.name
  parameters : List.Forall₂ pairing.Pairs declaration.parameters other.parameters
  body : List.Forall₂ pairing.OnStmt declaration.body other.body

/-- Calls do the same, in scopes inside the same scope. -/
inductive OnBehaviour : Behaviour → Behaviour → Prop where
  | function {declaration other : Declaration} (closure : ScopeId)
      (declarations : pairing.OnDeclaration declaration other) :
      OnBehaviour (.function declaration closure) (.function other closure)
  | clock : OnBehaviour .clock .clock
  | native (arity : Nat) (closure : Option ScopeId) (function : NativeFunction) :
      OnBehaviour (.native arity closure function) (.native arity closure function)
  | abstract (arity : Nat) : OnBehaviour (.abstract arity) (.abstract arity)

/-- The callables have the same identity, and calls of them do the same. -/
structure OnCallable (callable other : Callable) : Prop where
  identity : other.identity = callable.identity
  behaviour : pairing.OnBehaviour callable.behaviour other.behaviour

/-- The values are the same, or callables that stand for each other. -/
inductive OnValue : Value → Value → Prop where
  | plain {value : Value} (isPlain : value.isCallable = false) : OnValue value value
  | callable {callable other : Callable} (callables : pairing.OnCallable callable other) :
      OnValue (.callable callable) (.callable other)

/-- The statements ended in the same way, with values that stand for each other. -/
inductive OnCompletion : Completion → Completion → Prop where
  | normal : OnCompletion .normal .normal
  | returned {value other : Value} (values : pairing.OnValue value other) :
      OnCompletion (.returned value) (.returned other)

/-- The same name is bound, to values that stand for each other. -/
structure OnBinding (binding other : String × Value) : Prop where
  name : other.1 = binding.1
  value : pairing.OnValue binding.2 other.2

/-- The same scopes bind the same names in the same order, to values that stand for each other. -/
structure OnStore (store other : Store Value) : Prop where
  size : other.size = store.size
  enclosing : ∀ scope, other.enclosing scope = store.enclosing scope
  bindings : ∀ scope, List.Forall₂ pairing.OnBinding (store.bindings scope) (other.bindings scope)

/-- The same message, about values and lines that stand for each other. -/
inductive OnTraceEntry : TraceEntry → TraceEntry → Prop where
  | failed (message : String) {token other : Token} (tokens : pairing.Pairs token other) :
      OnTraceEntry (.failed message token.line) (.failed message other.line)
  | defined (name : String) {value other : Value} (values : pairing.OnValue value other) :
      OnTraceEntry (.defined name value) (.defined name other)
  | definedFunction (name : String) (arity : Nat) :
      OnTraceEntry (.definedFunction name arity) (.definedFunction name arity)
  | ifCondition {value other : Value} (values : pairing.OnValue value other) :
      OnTraceEntry (.ifCondition value) (.ifCondition other)
  | whileCondition {value other : Value} (values : pairing.OnValue value other) :
      OnTraceEntry (.whileCondition value) (.whileCondition other)
  | called {callable other : Callable} (count : Nat) {paren otherParen : Token}
      (callables : pairing.OnCallable callable other) (parens : pairing.Pairs paren otherParen) :
      OnTraceEntry (.called callable count paren.line) (.called other count otherParen.line)

/-- The same line was printed, or messages that stand for each other were traced. What was traced
before both runs began is the same. -/
inductive OnEvent : Event → Event → Prop where
  | same (event : Event) : OnEvent event event
  | traced {entry other : TraceEntry} (entries : pairing.OnTraceEntry entry other) :
      OnEvent (.traced entry) (.traced other)

/-- The machines are the same but for the tokens that functions and messages keep. -/
structure OnMachine (machine other : Machine) : Prop where
  store : pairing.OnStore machine.store other.store
  callables : other.callables = machine.callables
  clock : other.clock = machine.clock
  readings : other.readings = machine.readings
  events : List.Forall₂ pairing.OnEvent machine.events.toList other.events.toList

/-- The same fault, at tokens that stand for each other. -/
inductive OnRuntimeError : RuntimeError → RuntimeError → Prop where
  | atToken (fault : Fault) {token other : Token} (tokens : pairing.Pairs token other) :
      OnRuntimeError ⟨fault, token⟩ ⟨fault, other⟩

/-- The same reason to halt. -/
inductive OnHalt : Halt → Halt → Prop where
  | failed {error other : RuntimeError} (errors : pairing.OnRuntimeError error other) :
      OnHalt (.failed error) (.failed other)
  | overflow : OnHalt .overflow .overflow
  | unexpectedNode (activity : Activity) (kind : NodeKind) :
      OnHalt (.unexpectedNode activity kind) (.unexpectedNode activity kind)
  | notImplemented : OnHalt .notImplemented .notImplemented
  | raised (exception : String) : OnHalt (.raised exception) (.raised exception)
  | endless : OnHalt .endless .endless

/-- The computations ended in the same way, on machines that stand for each other. -/
inductive OnOutcome {α : Type} (alike : α → α → Prop) : Outcome α → Outcome α → Prop where
  | done {value other : α} {machine otherMachine : Machine} (values : alike value other)
      (machines : pairing.OnMachine machine otherMachine) :
      OnOutcome alike (.done value machine) (.done other otherMachine)
  | halted {halt other : Halt} {machine otherMachine : Machine} (halts : pairing.OnHalt halt other)
      (machines : pairing.OnMachine machine otherMachine) :
      OnOutcome alike (.halted halt machine) (.halted other otherMachine)

end Relations

variable {pairing : Pairing}

/-! ## What can be told of a value -/

section Values

variable {value other left right otherLeft otherRight : Value}

/-- The value `nil` stands for itself. -/
theorem onValue_nil : pairing.OnValue .nil .nil := .plain rfl

/-- Callables that stand for each other take as many arguments. -/
theorem OnCallable.arity {callable other : Callable}
    (callables : pairing.OnCallable callable other) : other.arity = callable.arity := by
  obtain ⟨identity, behaviour⟩ := callable
  obtain ⟨otherIdentity, otherBehaviour⟩ := other
  obtain ⟨-, behaviours⟩ := callables
  cases behaviours with
  | function closure declarations => exact declarations.parameters.length_eq.symm
  | clock | native | abstract => rfl

/-- Callables that stand for each other are described alike. -/
theorem OnCallable.described {callable other : Callable}
    (callables : pairing.OnCallable callable other) : other.described = callable.described := by
  obtain ⟨identity, behaviour⟩ := callable
  obtain ⟨otherIdentity, otherBehaviour⟩ := other
  obtain ⟨-, behaviours⟩ := callables
  cases behaviours with
  | function closure declarations =>
    simp only [Callable.described, lexeme_eq declarations.name]
  | clock | native | abstract => rfl

/-- Values that stand for each other are truthy alike. -/
theorem OnValue.isTruthy (values : pairing.OnValue value other) :
    other.isTruthy = value.isTruthy := by
  cases values <;> rfl

/-- Values that stand for each other are displayed alike. -/
theorem OnValue.display (values : pairing.OnValue value other) :
    other.display = value.display := by
  cases values with
  | plain => rfl
  | callable callables => exact callables.described

/-- A native function is told the same of values that stand for each other. -/
theorem OnValue.shown (values : pairing.OnValue value other) : other.shown = value.shown := by
  cases values with
  | plain => rfl
  | callable callables =>
    simp only [Value.shown, callables.identity, callables.arity, callables.described]

/-- Values that stand for each other are equal to the same ones, since callables keep their
identity. -/
theorem OnValue.equals (lefts : pairing.OnValue left otherLeft)
    (rights : pairing.OnValue right otherRight) :
    otherLeft.equals otherRight = left.equals right := by
  cases lefts with
  | plain =>
    cases rights with
    | plain => rfl
    | callable => cases left <;> first | rfl | contradiction
  | callable lefts =>
    cases rights with
    | plain => cases right <;> first | rfl | contradiction
    | callable rights => simp only [Value.equals, lefts.identity, rights.identity]

end Values

/-- Statements that ended alike have values that stand for each other. -/
theorem OnCompletion.value {completion other : Completion}
    (completions : pairing.OnCompletion completion other) :
    pairing.OnValue completion.value other.value := by
  cases completions with
  | normal => exact onValue_nil
  | returned values => exact values

/-! ## Operators -/

/-- The operators gave the same plain value, or the same fault at tokens that stand for each
other. -/
inductive OnResult (pairing : Pairing) :
    Except RuntimeError Value → Except RuntimeError Value → Prop where
  | ok {value : Value} (isPlain : value.isCallable = false) :
      OnResult pairing (.ok value) (.ok value)
  | error {error other : RuntimeError} (errors : pairing.OnRuntimeError error other) :
      OnResult pairing (.error error) (.error other)

section Operators

variable {operator other : Token} {left right otherLeft otherRight : Value}

/-- The same fault at tokens that stand for each other is the same result. -/
theorem onResult_fault (operators : pairing.Pairs operator other) (fault : Fault) :
    pairing.OnResult (.error ⟨fault, operator⟩) (.error ⟨fault, other⟩) :=
  .error (.atToken fault operators)

/-- An operator on numbers gives the same number, or the same fault at the operators. -/
theorem onResult_onNumbers (operators : pairing.Pairs operator other)
    (lefts : pairing.OnValue left otherLeft) (rights : pairing.OnValue right otherRight)
    {result : Float → Float → Value}
    (isPlain : ∀ first second, (result first second).isCallable = false) :
    pairing.OnResult (Operator.onNumbers operator left right result)
      (Operator.onNumbers other otherLeft otherRight result) := by
  have noNumbers := onResult_fault operators .operandsNotNumbers
  cases lefts with
  | plain =>
    cases rights with
    | plain => cases left <;> cases right <;> first | exact noNumbers | exact .ok (isPlain _ _)
    | callable => cases left <;> exact noNumbers
  | callable => exact noNumbers

/-- A sum gives the same value, or the same fault at the operators. -/
theorem onResult_plus (operators : pairing.Pairs operator other)
    (lefts : pairing.OnValue left otherLeft) (rights : pairing.OnValue right otherRight) :
    pairing.OnResult (Operator.plus operator left right)
      (Operator.plus other otherLeft otherRight) := by
  have notAlike := onResult_fault operators .operandsNotAlike
  cases lefts with
  | plain =>
    cases rights with
    | plain => cases left <;> cases right <;> first | exact notAlike | exact .ok rfl
    | callable => cases left <;> exact notAlike
  | callable => exact notAlike

/-- A binary operator gives the same value, or the same fault at the operators. -/
theorem onResult_binary (operators : pairing.Pairs operator other)
    (lefts : pairing.OnValue left otherLeft) (rights : pairing.OnValue right otherRight) :
    pairing.OnResult (Operator.binary operator left right)
      (Operator.binary other otherLeft otherRight) := by
  unfold Operator.binary
  rw [kind_eq operators, lefts.equals rights]
  split
  next => exact onResult_plus operators lefts rights
  iterate 7 next => exact onResult_onNumbers operators lefts rights fun _ _ => rfl
  iterate 2 next => exact .ok rfl
  next => exact onResult_fault operators .unknownBinary

/-- A unary operator gives the same value, or the same fault at the operators. -/
theorem onResult_unary (operators : pairing.Pairs operator other)
    (rights : pairing.OnValue right otherRight) :
    pairing.OnResult (Operator.unary operator right) (Operator.unary other otherRight) := by
  unfold Operator.unary
  rw [kind_eq operators, rights.isTruthy]
  split
  next => exact .ok rfl
  next =>
    have noNumber := onResult_fault operators .operandNotNumber
    cases rights with
    | plain => cases right <;> first | exact noNumber | exact .ok rfl
    | callable => exact noNumber
  next => exact onResult_fault operators .unknownUnary

/-- A logical operator decides alike on values that stand for each other. -/
theorem decides_eq (operators : pairing.Pairs operator other)
    (lefts : pairing.OnValue left otherLeft) :
    Operator.decides other otherLeft = Operator.decides operator left := by
  unfold Operator.decides
  rw [kind_eq operators, lefts.isTruthy]

end Operators

/-! ## Stores -/

section Stores

variable {bindings others : Bindings Value} {store other : Store Value}

/-- A name is bound in both bindings or in none. -/
theorem onBindings_get? (all : List.Forall₂ pairing.OnBinding bindings others) (name : String) :
    Option.Rel pairing.OnValue (bindings.get? name) (others.get? name) := by
  induction all with
  | nil => exact .none
  | @cons binding otherBinding rest otherRest first _ inductionHypothesis =>
    obtain ⟨bound, value⟩ := binding
    obtain ⟨otherBound, otherValue⟩ := otherBinding
    obtain ⟨sameName, values⟩ := first
    obtain rfl : otherBound = bound := sameName
    rw [Bindings.get?, Bindings.get?]
    split
    next => exact .some values
    next => exact inductionHypothesis

/-- Bindings stay alike when a name is bound to values that stand for each other. -/
theorem onBindings_set (all : List.Forall₂ pairing.OnBinding bindings others) (name : String)
    {value otherValue : Value} (values : pairing.OnValue value otherValue) :
    List.Forall₂ pairing.OnBinding (bindings.set name value) (others.set name otherValue) := by
  induction all with
  | nil => exact .cons ⟨rfl, values⟩ .nil
  | @cons binding otherBinding rest otherRest first further inductionHypothesis =>
    obtain ⟨bound, old⟩ := binding
    obtain ⟨otherBound, otherOld⟩ := otherBinding
    obtain ⟨sameName, olds⟩ := first
    obtain rfl : otherBound = bound := sameName
    rw [Bindings.set, Bindings.set]
    split
    next => exact .cons ⟨rfl, values⟩ further
    next => exact .cons ⟨rfl, olds⟩ inductionHypothesis

namespace OnStore

/-- The scopes around a scope are the same in both stores. -/
theorem chain (stores : pairing.OnStore store other) (scope : ScopeId) :
    other.chain scope = store.chain scope := by
  rw [Store.chain, Store.chain, stores.enclosing]

/-- A name is found in both stores or in none. -/
theorem lookup? (stores : pairing.OnStore store other) (scope : ScopeId) (name : String) :
    Option.Rel pairing.OnValue (store.lookup? scope name) (other.lookup? scope name) := by
  unfold Store.lookup?
  rw [stores.chain scope]
  induction store.chain scope with
  | nil => exact .none
  | cons candidate candidates inductionHypothesis =>
    have found := onBindings_get? (stores.bindings candidate) name
    rw [List.findSome?_cons, List.findSome?_cons]
    generalize (store.bindings candidate).get? name = value at found ⊢
    generalize (other.bindings candidate).get? name = otherValue at found ⊢
    cases found with
    | none => exact inductionHypothesis
    | some values => exact .some values

/-- A name is held by the same scope in both stores. -/
theorem holder? (stores : pairing.OnStore store other) (scope : ScopeId) (name : String) :
    other.holder? scope name = store.holder? scope name := by
  unfold Store.holder?
  rw [stores.chain scope]
  congr 1
  funext candidate
  have found := onBindings_get? (stores.bindings candidate) name
  generalize (store.bindings candidate).get? name = value at found ⊢
  generalize (other.bindings candidate).get? name = otherValue at found ⊢
  cases found <;> rfl

/-- The same scope may be opened in both stores. -/
theorem push (stores : pairing.OnStore store other) (outer : Option ScopeId) :
    pairing.OnStore (store.push outer) (other.push outer) where
  size := by rw [Store.size_push, Store.size_push, stores.size]
  enclosing scope := by
    have sameChain : other.chain = store.chain := funext stores.chain
    rw [Store.enclosing_push, Store.enclosing_push, stores.size, stores.enclosing, sameChain]
  bindings scope := by
    rw [Store.bindings_push, Store.bindings_push]
    exact stores.bindings scope

/-- The same name may be bound in both stores. -/
theorem define (stores : pairing.OnStore store other) (scope : ScopeId) (name : String)
    {value otherValue : Value} (values : pairing.OnValue value otherValue) :
    pairing.OnStore (store.define scope name value) (other.define scope name otherValue) where
  size := by rw [Store.size_define, Store.size_define, stores.size]
  enclosing scope := by rw [Store.enclosing_define, Store.enclosing_define, stores.enclosing]
  bindings candidate := by
    rw [Store.bindings_define, Store.bindings_define, stores.size]
    split
    next => exact onBindings_set (stores.bindings candidate) name values
    next => exact stores.bindings candidate

end OnStore

end Stores

/-! ## Machines -/

section Machines

variable {machine other : Machine}

/-- Both machines may take the same event down. -/
theorem OnMachine.emit (machines : pairing.OnMachine machine other) {event otherEvent : Event}
    (events : pairing.OnEvent event otherEvent) :
    pairing.OnMachine (machine.emit event) (other.emit otherEvent) where
  store := machines.store
  callables := machines.callables
  clock := machines.clock
  readings := machines.readings
  events := by
    simp only [Machine.emit, Array.toList_push]
    exact List.rel_append machines.events (.cons events .nil)

/-- Messages that stand for each other have the same level. -/
theorem OnTraceEntry.level {entry otherEntry : TraceEntry}
    (entries : pairing.OnTraceEntry entry otherEntry) : otherEntry.level = entry.level := by
  cases entries <;> rfl

/-- Both machines may take the same message down, and do so at the same debug levels. -/
theorem OnMachine.trace (machines : pairing.OnMachine machine other) (level : Nat)
    {entry otherEntry : TraceEntry} (entries : pairing.OnTraceEntry entry otherEntry) :
    pairing.OnMachine (machine.trace level entry) (other.trace level otherEntry) := by
  unfold Machine.trace
  rw [entries.level]
  split
  next => exact machines.emit (.traced entries)
  next => exact machines

/-- Both machines may be given stores that are alike. -/
theorem OnMachine.withStore (machines : pairing.OnMachine machine other)
    {store otherStore : Store Value} (stores : pairing.OnStore store otherStore) :
    pairing.OnMachine { machine with store } { other with store := otherStore } :=
  ⟨stores, machines.callables, machines.clock, machines.readings, machines.events⟩

/-- The same was printed. -/
theorem OnMachine.printed (machines : pairing.OnMachine machine other) :
    other.printed = machine.printed := by
  have events := machines.events
  change other.events.toList.filterMap BigStep.line? = machine.events.toList.filterMap BigStep.line?
  generalize machine.events.toList = all, other.events.toList = others at events ⊢
  induction events with
  | nil => rfl
  | @cons event otherEvent _ _ events _ inductionHypothesis =>
    have sameLine : BigStep.line? otherEvent = BigStep.line? event := by cases events <;> rfl
    rw [List.filterMap_cons, List.filterMap_cons, sameLine, inductionHypothesis]

/-- A value stands for itself if its tokens do. -/
theorem onValue_self : ∀ {value : Value}, (∀ token ∈ value.tokens, pairing.Pairs token token) →
    pairing.OnValue value value
  | .nil, _ | .bool _, _ | .number _, _ | .text _, _ => .plain rfl
  | .callable ⟨_, .clock⟩, _ => .callable ⟨rfl, .clock⟩
  | .callable ⟨_, .native arity closure function⟩, _ =>
    .callable ⟨rfl, .native arity closure function⟩
  | .callable ⟨_, .abstract arity⟩, _ => .callable ⟨rfl, .abstract arity⟩
  | .callable ⟨_, .function _ closure⟩, own =>
    have ⟨isName, inParts⟩ := List.forall_mem_cons.mp own
    have ⟨areParameters, inBody⟩ := List.forall_mem_append.mp inParts
    .callable ⟨rfl, .function closure
      ⟨isName, List.forall₂_same.mpr areParameters, onStmts_self _ inBody⟩⟩

/-- A machine stands for itself if the tokens that it holds do. -/
theorem onMachine_self (own : ∀ token, machine.Holds token → pairing.Pairs token token) :
    pairing.OnMachine machine machine where
  store.size := rfl
  store.enclosing _ := rfl
  store.bindings scope := List.forall₂_same.mpr fun binding isBound =>
    ⟨rfl, onValue_self fun token isKept => own token ⟨scope, binding, isBound, isKept⟩⟩
  callables := rfl
  clock := rfl
  readings := rfl
  events := List.forall₂_same.mpr fun event _ => .same event

end Machines

/-! ## Endings -/

/-- Outcomes that are alike leave machines that stand for each other. -/
theorem OnOutcome.machine {α : Type} {alike : α → α → Prop} {outcome otherOutcome : Outcome α}
    (ended : pairing.OnOutcome alike outcome otherOutcome) :
    pairing.OnMachine outcome.machine otherOutcome.machine := by
  cases ended <;> assumption

/-- Errors that stand for each other have the same message. -/
theorem OnRuntimeError.message {error other : RuntimeError}
    (errors : pairing.OnRuntimeError error other) : other.message = error.message := by
  obtain ⟨fault, tokens⟩ := errors
  simp only [RuntimeError.message, lexeme_eq tokens]

/-- Errors that stand for each other are reported alike, but for the line. -/
theorem OnRuntimeError.diagnostic {error other : RuntimeError}
    (errors : pairing.OnRuntimeError error other) :
    pairing.OnDiagnostic error.diagnostic other.diagnostic := by
  have sameMessage := errors.message
  obtain ⟨fault, tokens⟩ := errors
  simp only [RuntimeError.diagnostic, sameMessage, place_eq tokens]
  exact .onLine _ _ _ tokens

/-- Errors that stand for each other are traced alike, but for the line. -/
theorem OnRuntimeError.traceEntry {error other : RuntimeError}
    (errors : pairing.OnRuntimeError error other) :
    pairing.OnTraceEntry (.failed error.message error.token.line)
      (.failed other.message other.token.line) := by
  have sameMessage := errors.message
  obtain ⟨fault, tokens⟩ := errors
  rw [sameMessage]
  exact .failed _ tokens

end Pairing
end LoxLang
